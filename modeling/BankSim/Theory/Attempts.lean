import BankSim.Core.Retries
import BankSim.Theory.QueueLaw

/-!
# Attempts at Payments

What the two engines that retry payments have in common. An attempt is work on
a payment queue, a failed attempt puts a timer on the scheduler, and a timer
that fires puts the next attempt into the queue. So a payment that is not done
with is in exactly one place at a time: it waits in the queue, a timer is
pending for it, or an attempt at it has just been taken out of the queue.
`Tokens` says so, along with how many attempts are left for each payment.

`Passes` is what may happen to a queue without any of this being noticed, and
`Used` is what works and callbacks may do to it.

`Carries` is what an engine has to show of one attempt and of one timer.
`carried_step` turns it into a fact on every event of the scheduler, the tick
with its loop included, and `run_of_carried` into one on whole runs.

## Main definitions

* `Attempting`: Closures that refer to a payment.
* `Tokens`: Where the payments are, and how many attempts are left.
* `Used`, `Passes`: What uses make of a queue, and changes that do not matter.
* `Carries`: An invariant that attempts and timers keep.

## Theorems

* `Tokens.again`, `Tokens.spent`, `Tokens.fire`, `Tokens.enqueue`: The moves of
  a payment.
* `processItems_carried`, `processTick_carried`: The tick.
* `carried_step`: One event of the scheduler.
* `run_of_carried`: A run does not raise, and comes to an end if nothing else
  is put on the scheduler.
-/

namespace BankSim

open Exec

/-! ### Where the payments are -/

/-- Closures of attempts and of timers. Both refer to a payment by its place. -/
class Attempting (γ : Type) (θ : outParam Type) where
  place : γ → Nat
  closure : θ → γ

export Attempting (place closure)

namespace PaymentQueue

variable {γ δ θ ξ χ κ σ : Type}

/-- The payment a callback is the timer of. -/
def timerOf [Attempting γ θ] : QueueCallback γ (RetryCallback θ ξ) → Option Nat
  | .other (.retry timer) => some (place (closure (γ := γ) timer))
  | .other (.other _) | .enqueue _ _ _ | .tick => none

/-- The callback is a timer. -/
def isTimer : QueueCallback γ (RetryCallback θ ξ) → Bool
  | .other (.retry _) => true
  | .other (.other _) | .enqueue _ _ _ | .tick => false

/-- The callback is an arrival of its own, which no engine schedules. -/
def isArrival : QueueCallback γ (RetryCallback θ ξ) → Bool
  | .enqueue _ _ _ => true
  | .other _ | .tick => false

/-- How many attempts at a payment wait in the queue. -/
def waitingFor [Attempting γ θ] (self : AttemptQueue γ θ ξ) (i : Nat) : Nat :=
  self.waiting.countP fun item => place item.work = i

/-- How many timers are pending for a payment. -/
def timersFor [Attempting γ θ] (self : AttemptQueue γ θ ξ) (i : Nat) : Nat :=
  self.scheduler.queue.countP fun event => timerOf event.callback = some i

/-- How many timers are pending. -/
def pendingTimers (self : AttemptQueue γ θ ξ) : Nat :=
  self.scheduler.queue.countP fun event => isTimer event.callback

/-! ### Changes that do not matter -/

/-- What waits is the same, what is scheduled is the same apart from ticks, and
    the clock has not gone back. -/
structure Passes (queue later : PaymentQueue γ (QueueCallback γ χ)) : Prop where
  waiting : later.waiting = queue.waiting
  events : (later.scheduler.queue.filter fun event => !event.callback.isTick).Perm
    (queue.scheduler.queue.filter fun event => !event.callback.isTick)
  clock : queue.scheduler.clock.time ≤ later.scheduler.clock.time

/-- A pending tick does not matter. -/
theorem passes_awoken (self : PaymentQueue γ (QueueCallback γ χ)) :
    Passes self (self.awoken .tick) := by
  refine ⟨awoken_waiting self _, ?_, by rw [awoken_clock]⟩
  unfold awoken
  by_cases hawake : self.worker.tickScheduled = true
  · rw [if_pos hawake]
  · rw [if_neg hawake]
    refine ((List.perm_orderedInsert _ _ _).filter _).trans ?_
    rw [List.filter_cons_of_neg (by simp [QueueCallback.isTick])]

/-- Events of a kind that ticks are not, are counted alike. -/
theorem Passes.countP {self later : PaymentQueue γ (QueueCallback γ χ)} (h : Passes self later)
    {kind : QueueCallback γ χ → Bool} (hkind : kind .tick = false) :
    later.scheduler.queue.countP (kind ·.callback)
      = self.scheduler.queue.countP (kind ·.callback) := by
  have hticks : ∀ events : List (Event (QueueCallback γ χ)),
      events.countP (kind ·.callback)
        = (events.filter fun event => !event.callback.isTick).countP (kind ·.callback) := by
    intro events
    rw [List.countP_filter]
    refine List.countP_congr fun event _ => ?_
    cases hcallback : event.callback <;> simp [QueueCallback.isTick, hkind]
  rw [hticks, hticks self.scheduler.queue]
  exact h.events.countP_eq _

theorem Passes.mem {self later : PaymentQueue γ (QueueCallback γ χ)} (h : Passes self later)
    {event : Event (QueueCallback γ χ)} (hmem : event ∈ later.scheduler.queue)
    (hkind : event.callback.isTick = false) : event ∈ self.scheduler.queue := by
  have hfilter := h.events.mem_iff.mp (List.mem_filter.mpr ⟨hmem, by rw [hkind]; rfl⟩)
  exact (List.mem_filter.mp hfilter).1

/-- The queue is what uses that leave the clock alone make of it. -/
def Used (self later : PaymentQueue γ (QueueCallback γ χ)) : Prop :=
  ∃ uses : List (Use γ χ), (∀ how ∈ uses, how.Allowed True) ∧
    later = finalState Use.exec self uses

theorem Used.refl {self : PaymentQueue γ (QueueCallback γ χ)} : Used self self :=
  ⟨[], fun _ hmem => absurd hmem List.not_mem_nil, rfl⟩

theorem Used.trans {self later last : PaymentQueue γ (QueueCallback γ χ)} (h : Used self later)
    (hlast : Used later last) : Used self last := by
  rcases h with ⟨uses, hallowed, hlater⟩
  rcases hlast with ⟨more, hmore, hlast⟩
  refine ⟨uses ++ more, fun how hmem => ?_, ?_⟩
  · rcases List.mem_append.mp hmem with hold | hnew
    · exact hallowed how hold
    · exact hmore how hnew
  · rw [finalState_append, ← hlater]
    exact hlast

theorem used_of_exec (self : PaymentQueue γ (QueueCallback γ χ)) {how : Use γ χ}
    (hallowed : how.Allowed True) : Used self (after how.exec self) := by
  refine ⟨[how], fun other hmem => ?_, rfl⟩
  rw [List.mem_singleton.mp hmem]
  exact hallowed

/-- What every use keeps holds of a queue that was used. -/
theorem Used.keeps {self later : PaymentQueue γ (QueueCallback γ χ)} (h : Used self later)
    {I : PaymentQueue γ (QueueCallback γ χ) → Prop}
    (hstep : ∀ self (how : Use γ χ), I self → how.Allowed True → I (after how.exec self))
    (hself : I self) :
    I later := by
  rcases h with ⟨uses, hallowed, rfl⟩
  exact allStates_finalState (allStates_of_allSteps (C := fun _ how => how.Allowed True) hstep
    hself (allSteps_of_forall fun _ how hmem => hallowed how hmem))

/-- A payment that arrives is a use of the queue. -/
theorem used_arrived (self : PaymentQueue γ (QueueCallback γ χ)) {paymentId : String}
    (hid : isBlank paymentId = false) (paymentType : PaymentType) (work : γ) :
    Used self ((self.arrived paymentId paymentType work).awoken .tick) := by
  have hrun := enqueue_of_nonblank QueueCallback.tick hid paymentType work self
  have hused := @used_of_exec _ _ self (.enqueue paymentId paymentType work true)
    ⟨trivial, fun _ => trivial⟩
  rw [Use.exec, after_discard, after_of_ok hrun] at hused
  exact hused

/-- An event that is scheduled is a use of the queue. -/
theorem used_scheduled (self : PaymentQueue γ (QueueCallback γ χ)) {time : Int}
    (htime : self.scheduler.clock.time ≤ time) {callback : QueueCallback γ χ}
    (hkind : callback.isTick = false) :
    Used self { self with scheduler := self.scheduler.scheduled time callback } := by
  have hused := @used_of_exec _ _ self (.scheduleAt time callback) ⟨hkind, fun _ => trivial⟩
  rw [Use.exec, Component.after_zoom] at hused
  have hrun := EventScheduler.scheduleAt_of_le callback htime
  rwa [show schedulerOf.get self = self.scheduler from rfl, after_of_ok hrun] at hused

/-! ### Tokens -/

section Counts

variable [Attempting γ θ] (self : AttemptQueue γ θ ξ) (i : Nat)

theorem timerOf_eq_none {callback : QueueCallback γ (RetryCallback θ ξ)}
    (h : isTimer callback = false) : timerOf callback = none := by
  cases callback with
  | other callback =>
      cases callback with
      | retry timer => cases h
      | other callback => rfl
  | enqueue _ _ _ => rfl
  | tick => rfl

theorem timersFor_scheduled (time : Int) (callback : QueueCallback γ (RetryCallback θ ξ)) :
    ({ self with scheduler := self.scheduler.scheduled time callback } :
      AttemptQueue γ θ ξ).timersFor i
        = self.timersFor i + if timerOf callback = some i then 1 else 0 := by
  have hcount := self.scheduler.countP_scheduled time callback
    fun callback => decide (timerOf callback = some i)
  simp only [decide_eq_true_eq] at hcount
  exact hcount

theorem waitingFor_arrived (paymentId : String) (paymentType : PaymentType) (work : γ) :
    (self.arrived paymentId paymentType work).waitingFor i
      = self.waitingFor i + if place work = i then 1 else 0 := by
  unfold waitingFor arrived
  rw [List.countP_append, List.countP_singleton]
  simp only [decide_eq_true_eq]
  rfl

end Counts

/-- Every payment that has attempts left is in one place: it waits, or a timer
    is pending for it, or it is held. There are so many payments, and the
    closures fit them. -/
structure Tokens [Attempting γ θ] (fits : γ → Prop) (held : Option Nat) (left : Nat → Nat)
    (count : Nat) (queue : AttemptQueue γ θ ξ) : Prop where
  one : ∀ i, queue.waitingFor i + queue.timersFor i + (if held = some i then 1 else 0)
    = if 0 < left i then 1 else 0
  bound : ∀ i, count ≤ i → left i = 0
  waits : ∀ item ∈ queue.waiting, fits item.work
  timers : ∀ event ∈ queue.scheduler.queue, ∀ timer,
    event.callback = .other (.retry timer) → fits (closure timer)
  own : ∀ event ∈ queue.scheduler.queue, isArrival event.callback = false

/-- One attempt less is left for a payment. -/
def spend (left : Nat → Nat) (i : Nat) : Nat → Nat :=
  Function.update left i (left i - 1)

@[simp] theorem spend_self (left : Nat → Nat) (i : Nat) : spend left i i = left i - 1 :=
  Function.update_self i _ left

theorem spend_of_ne (left : Nat → Nat) {i j : Nat} (h : j ≠ i) : spend left i j = left j :=
  Function.update_of_ne h _ left

namespace Tokens

variable [Attempting γ θ] {fits : γ → Prop} {held : Option Nat} {left : Nat → Nat} {count i : Nat}
  {self later : AttemptQueue γ θ ξ}

theorem passes (h : Tokens fits held left count self) (hpass : Passes self later) :
    Tokens fits held left count later where
  one j := by
    have hone := h.one j
    unfold waitingFor timersFor at hone ⊢
    rw [hpass.waiting]
    have hcount := @Passes.countP _ _ _ _ hpass (fun callback => timerOf callback = some j)
      (by simp [timerOf])
    simp only at hcount
    rw [hcount]
    exact hone
  bound := h.bound
  waits item hmem := h.waits item (hpass.waiting ▸ hmem)
  timers event hmem timer hcallback :=
    h.timers event (hpass.mem hmem (by rw [hcallback]; rfl)) timer hcallback
  own event hmem := by
    cases hkind : event.callback.isTick with
    | false => exact h.own event (hpass.mem hmem hkind)
    | true =>
        rw [QueueCallback.eq_tick hkind]
        rfl

/-- A payment that is held has attempts left, and it is nowhere else. -/
theorem held_pos (h : Tokens fits (some i) left count self) :
    0 < left i ∧ self.waitingFor i = 0 ∧ self.timersFor i = 0 := by
  have hone := h.one i
  rw [if_pos rfl] at hone
  by_cases hpos : 0 < left i
  · rw [if_pos hpos] at hone
    exact ⟨hpos, by omega, by omega⟩
  · rw [if_neg hpos] at hone
    omega

theorem lt_count (h : Tokens fits held left count self) (hpos : 0 < left i) : i < count := by
  by_contra hle
  have := h.bound i (not_lt.mp hle)
  omega

/-- The attempt that has waited longest is taken out of the queue. -/
theorem take (h : Tokens fits none left count self) {item : QueuedPayment γ}
    {waiting : List (QueuedPayment γ)} (hwaiting : self.waiting = item :: waiting) :
    Tokens fits (some (place item.work)) left count { self with waiting } ∧ fits item.work := by
  refine ⟨⟨fun j => ?_, h.bound, fun other hmem => h.waits other ?_, h.timers, h.own⟩,
    h.waits item (by rw [hwaiting]; exact List.mem_cons_self)⟩
  · have hone := h.one j
    unfold waitingFor timersFor at hone ⊢
    rw [hwaiting, List.countP_cons] at hone
    simp only [Option.some.injEq, reduceCtorEq, if_false, decide_eq_true_eq] at hone ⊢
    omega
  · rw [hwaiting]
    exact List.mem_cons_of_mem item hmem

/-- A timer leaves the scheduler, and the payment it is for is held. -/
theorem fire (h : Tokens fits none left count self) {event : Event _} {rest : List (Event _)}
    (hqueue : self.scheduler.queue = event :: rest) {timer : θ}
    (htimer : event.callback = .other (.retry timer)) (clock : VirtualClock) :
    Tokens fits (some (place (closure (γ := γ) timer))) left count
        { self with scheduler := self.scheduler.ready clock rest } ∧
      fits (closure timer) := by
  have hold : ∀ other ∈ rest, other ∈ self.scheduler.queue := by
    intro other hmem
    rw [hqueue]
    exact List.mem_cons_of_mem event hmem
  refine ⟨⟨fun j => ?_, h.bound, h.waits, fun other hmem => h.timers other (hold other hmem),
    fun other hmem => h.own other (hold other hmem)⟩,
    h.timers event (by rw [hqueue]; exact List.mem_cons_self) timer htimer⟩
  have hone := h.one j
  unfold waitingFor timersFor at hone ⊢
  rw [hqueue, List.countP_cons, htimer] at hone
  simp only [timerOf, Option.some.injEq, reduceCtorEq, if_false, decide_eq_true_eq] at hone ⊢
  change _ + List.countP _ rest + _ = _
  omega

/-- Any other event leaves the scheduler. -/
theorem popped (h : Tokens fits held left count self) {event : Event _} {rest : List (Event _)}
    (hqueue : self.scheduler.queue = event :: rest)
    (hother : isTimer event.callback = false) (clock : VirtualClock) :
    Tokens fits held left count { self with scheduler := self.scheduler.ready clock rest } := by
  have hold : ∀ other ∈ rest, other ∈ self.scheduler.queue := by
    intro other hmem
    rw [hqueue]
    exact List.mem_cons_of_mem event hmem
  refine ⟨fun j => ?_, h.bound, h.waits, fun other hmem => h.timers other (hold other hmem),
    fun other hmem => h.own other (hold other hmem)⟩
  have hone := h.one j
  unfold waitingFor timersFor at hone ⊢
  rw [hqueue, List.countP_cons, timerOf_eq_none hother] at hone
  exact hone

/-- An attempt at the payment that is held is put into the queue. -/
theorem enqueue (h : Tokens fits (some i) left count self) {work : γ} (hplace : place work = i)
    (hfits : fits work) (paymentId : String) (paymentType : PaymentType) :
    Tokens fits none left count ((self.arrived paymentId paymentType work).awoken .tick) := by
  refine passes ?_ (passes_awoken _)
  refine ⟨fun j => ?_, h.bound, fun item hmem => ?_, h.timers, h.own⟩
  · have hone := h.one j
    have hsame : (self.arrived paymentId paymentType work).timersFor j = self.timersFor j := rfl
    rw [waitingFor_arrived, hsame, hplace]
    simp only [Option.some.injEq, reduceCtorEq, if_false] at hone ⊢
    omega
  · rcases List.mem_append.mp hmem with hold | hnew
    · exact h.waits item hold
    · rw [List.mem_singleton.mp hnew]
      exact hfits

/-- A payment is submitted, with so many attempts to make. -/
theorem submit (h : Tokens fits none left count self) {work : γ} (hplace : place work = count)
    (hfits : fits work) {attempts : Nat} (hpos : 0 < attempts) (paymentId : String)
    (paymentType : PaymentType) :
    Tokens fits none (Function.update left count attempts) (count + 1)
      ((self.arrived paymentId paymentType work).awoken .tick) := by
  have hnone := h.bound count (le_refl count)
  refine enqueue ⟨fun j => ?_, fun j hj => ?_, h.waits, h.timers, h.own⟩ hplace hfits paymentId
    paymentType
  · have hone := h.one j
    by_cases hj : j = count
    · subst hj
      rw [hnone] at hone
      simp only [reduceCtorEq, if_false, lt_irrefl] at hone
      simp only [Function.update_self, if_true, hpos]
      omega
    · simp only [Option.some.injEq, Ne.symm hj, reduceCtorEq, if_false] at hone ⊢
      rw [Function.update_of_ne hj]
      exact hone
  · rw [Function.update_of_ne (by omega)]
    exact h.bound j (by omega)

/-- Something else is scheduled. -/
theorem scheduled (h : Tokens fits held left count self) {callback : QueueCallback γ _}
    (htimer : isTimer callback = false) (harrival : isArrival callback = false) (time : Int) :
    Tokens fits held left count
      { self with scheduler := self.scheduler.scheduled time callback } := by
  refine ⟨fun j => ?_, h.bound, h.waits, fun event hmem timer hcallback => ?_,
    fun event hmem => ?_⟩
  · rw [timersFor_scheduled, timerOf_eq_none htimer, if_neg (by simp)]
    exact h.one j
  · rcases (EventScheduler.mem_scheduled_iff _ _ _ _).mp hmem with rfl | hold
    · rw [show callback = _ from hcallback] at htimer
      cases htimer
    · exact h.timers event hold timer hcallback
  · rcases (EventScheduler.mem_scheduled_iff _ _ _ _).mp hmem with rfl | hold
    · exact harrival
    · exact h.own event hold

/-- The attempt at hand failed, and there will be another one. -/
theorem again (h : Tokens fits (some i) left count self) (hmore : 1 < left i) {timer : θ}
    (hplace : place (closure (γ := γ) timer) = i) (hfits : fits (closure timer)) (time : Int) :
    Tokens fits none (spend left i) count
      { self with scheduler := self.scheduler.scheduled time (.other (.retry timer)) } := by
  refine ⟨fun j => ?_, fun j hj => ?_, h.waits, fun event hmem other hcallback => ?_,
    fun event hmem => ?_⟩
  · have hone := h.one j
    have hsame : ({ self with
        scheduler := self.scheduler.scheduled time (.other (.retry timer)) } :
          AttemptQueue γ θ ξ).waitingFor j = self.waitingFor j := rfl
    rw [timersFor_scheduled, hsame, timerOf, hplace]
    simp only [Option.some.injEq, reduceCtorEq, if_false] at hone ⊢
    by_cases hj : i = j
    · -- The payment itself is not held any more, and a timer is pending for it.
      subst hj
      rw [if_pos rfl, if_pos (by omega)] at hone
      rw [if_pos rfl, spend_self, if_pos (by omega)]
      omega
    · rw [if_neg hj] at hone ⊢
      rw [spend_of_ne left (Ne.symm hj)]
      omega
  · rw [spend_of_ne left (fun heq => ?_)]
    · exact h.bound j hj
    · have := h.lt_count h.held_pos.1
      omega
  · rcases (EventScheduler.mem_scheduled_iff _ _ _ _).mp hmem with rfl | hold
    · cases hcallback
      exact hfits
    · exact h.timers event hold other hcallback
  · rcases (EventScheduler.mem_scheduled_iff _ _ _ _).mp hmem with rfl | hold
    · rfl
    · exact h.own event hold

/-- The attempt at hand was the last. -/
theorem last (h : Tokens fits (some i) left count self) (hlast : left i = 1) :
    Tokens fits none (spend left i) count self := by
  refine ⟨fun j => ?_, fun j hj => ?_, h.waits, h.timers, h.own⟩
  · have hone := h.one j
    simp only [Option.some.injEq, reduceCtorEq, if_false] at hone ⊢
    by_cases hj : i = j
    · subst hj
      rw [if_pos rfl, if_pos (by omega)] at hone
      rw [spend_self, if_neg (by omega)]
      omega
    · rw [if_neg hj] at hone
      rw [spend_of_ne left (Ne.symm hj)]
      exact hone
  · rw [spend_of_ne left (fun heq => ?_)]
    · exact h.bound j hj
    · have := h.lt_count h.held_pos.1
      omega

/-- Closures that fit go on fitting. -/
theorem mono (h : Tokens fits held left count self) {fits' : γ → Prop}
    (hfits : ∀ work, fits work → fits' work) : Tokens fits' held left count self :=
  ⟨h.one, h.bound, fun item hmem => hfits _ (h.waits item hmem),
    fun event hmem timer hcallback => hfits _ (h.timers event hmem timer hcallback), h.own⟩

end Tokens

theorem tokens_new [Attempting γ θ] (fits : γ → Prop) (clock : VirtualClock) {capacity : Int}
    {self : AttemptQueue γ θ ξ}
    (hnew : PaymentQueue.new (EventScheduler.new clock) capacity = .ok self) :
    Tokens fits none (fun _ => 0) 0 self := by
  rcases new_ok hnew with ⟨worker, -, rfl⟩
  refine ⟨fun i => rfl, fun _ _ => rfl, ?_, ?_, ?_⟩
  · exact fun item hmem => absurd hmem List.not_mem_nil
  · exact fun event hmem => absurd hmem List.not_mem_nil
  · exact fun event hmem => absurd hmem List.not_mem_nil

/-! ### When a payment is attempted -/

/-- There is no attempt at a payment before a time: a pending timer is not
    earlier, and an attempt that waits or is at hand is not too early. -/
def NotBefore [Attempting γ θ] (held : Option Nat) (i : Nat) (time : Int)
    (queue : AttemptQueue γ θ ξ) : Prop :=
  (∀ event ∈ queue.scheduler.queue, timerOf event.callback = some i → time ≤ event.time) ∧
    (held = some i ∨ 0 < queue.waitingFor i → time ≤ queue.scheduler.clock.time)

namespace NotBefore

variable [Attempting γ θ] {held : Option Nat} {i j : Nat} {time : Int}
  {self later : AttemptQueue γ θ ξ}

theorem pass (h : NotBefore held i time self) (hpass : Passes self later) :
    NotBefore held i time later := by
  constructor
  · intro event hmem htimer
    refine h.1 event (hpass.mem hmem ?_) htimer
    cases hcallback : event.callback with
    | tick => rw [hcallback] at htimer; cases htimer
    | enqueue _ _ _ => rfl
    | other _ => rfl
  · intro hhere
    unfold waitingFor at hhere
    rw [hpass.waiting] at hhere
    exact (h.2 hhere).trans hpass.clock

theorem release (h : NotBefore held i time self) : NotBefore none i time self := by
  refine ⟨h.1, fun hhere => h.2 (Or.inr ?_)⟩
  rcases hhere with hnone | hwaits
  · cases hnone
  · exact hwaits

theorem take (h : NotBefore none i time self) {item : QueuedPayment γ}
    {waiting : List (QueuedPayment γ)} (hwaiting : self.waiting = item :: waiting) :
    NotBefore (some (place item.work)) i time { self with waiting } := by
  refine ⟨h.1, fun hhere => h.2 (Or.inr ?_)⟩
  unfold waitingFor at hhere ⊢
  rw [hwaiting, List.countP_cons]
  rcases hhere with hheld | hwaits
  · rw [if_pos (by simpa using hheld)]
    exact Nat.succ_pos _
  · exact Nat.lt_of_lt_of_le hwaits (Nat.le_add_right _ _)

/-- An event leaves the scheduler. If it is a timer, its payment is held. -/
theorem popped (h : NotBefore held i time self) {event : Event _} {rest : List (Event _)}
    (hqueue : self.scheduler.queue = event :: rest) {clock : VirtualClock}
    (hdue : self.scheduler.clock.time ≤ event.time) (hclock : clock.time = event.time)
    {held' : Option Nat}
    (hheld : held' = some i → timerOf event.callback = some i ∨ held = some i) :
    NotBefore held' i time { self with scheduler := self.scheduler.ready clock rest } := by
  refine ⟨fun other hmem => h.1 other ?_, ?_⟩
  · rw [hqueue]
    exact List.mem_cons_of_mem event hmem
  · change _ → time ≤ clock.time
    rw [hclock]
    rintro (hnow | hwaits)
    · rcases hheld hnow with htimer | hold
      · exact h.1 event (by rw [hqueue]; exact List.mem_cons_self) htimer
      · exact (h.2 (Or.inl hold)).trans hdue
    · exact (h.2 (Or.inr hwaits)).trans hdue

/-- An attempt is put into the queue, at another payment or at the one that is
    held. -/
theorem arrive (h : NotBefore held i time self) {held' : Option Nat}
    (hheld : held' = some i → held = some i) {work : γ} (hplace : place work = i → held = some i)
    (paymentId : String) (paymentType : PaymentType) :
    NotBefore held' i time ((self.arrived paymentId paymentType work).awoken .tick) := by
  have harrived : NotBefore held' i time (self.arrived paymentId paymentType work) := by
    refine ⟨h.1, fun hhere => h.2 ?_⟩
    rw [waitingFor_arrived] at hhere
    by_cases hi : place work = i
    · exact Or.inl (hplace hi)
    · rw [if_neg hi] at hhere
      rcases hhere with hnow | hwaits
      · exact Or.inl (hheld hnow)
      · exact Or.inr hwaits
  exact harrived.pass (passes_awoken _)

/-- An event is scheduled that is no timer of the payment. -/
theorem scheduled (h : NotBefore held i time self) {callback : QueueCallback γ _}
    (htimer : timerOf callback ≠ some i) (later : Int) :
    NotBefore held i time
      { self with scheduler := self.scheduler.scheduled later callback } := by
  refine ⟨fun event hmem hevent => ?_, h.2⟩
  rcases (EventScheduler.mem_scheduled_iff _ _ _ _).mp hmem with rfl | hold
  · exact absurd hevent htimer
  · exact h.1 event hold hevent

/-- A timer is scheduled for a payment that is nowhere else. -/
theorem again {fits : γ → Prop} {left : Nat → Nat} {count : Nat}
    (h : Tokens fits (some i) left count self) (timer : θ) (time : Int) :
    NotBefore none i time
      { self with scheduler := self.scheduler.scheduled time (.other (.retry timer)) } := by
  rcases h.held_pos with ⟨-, hwaits, htimers⟩
  constructor
  · intro event hmem hevent
    rcases (EventScheduler.mem_scheduled_iff _ _ _ _).mp hmem with rfl | hold
    · exact le_refl time
    · exact absurd hevent (by simpa using List.countP_eq_zero.mp htimers event hold)
  · rintro (hnone | hpos)
    · cases hnone
    · exact absurd hwaits (Nat.pos_iff_ne_zero.mp hpos)

end NotBefore

/-! ### How much is left to do -/

section Load

variable {left : Nat → Nat} {count i : Nat} {self later : AttemptQueue γ θ ξ}

theorem pendingTimers_scheduled (self : AttemptQueue γ θ ξ) (time : Int)
    (callback : QueueCallback γ (RetryCallback θ ξ)) :
    ({ self with scheduler := self.scheduler.scheduled time callback } :
      AttemptQueue γ θ ξ).pendingTimers
        = self.pendingTimers + if isTimer callback then 1 else 0 :=
  self.scheduler.countP_scheduled time callback isTimer

theorem Passes.pendingTimers (h : Passes self later) : later.pendingTimers = self.pendingTimers :=
  h.countP rfl

theorem pendingTimers_scheduled_other (self : AttemptQueue γ θ ξ) (time : Int)
    {callback : QueueCallback γ (RetryCallback θ ξ)} (h : isTimer callback = false) :
    ({ self with scheduler := self.scheduler.scheduled time callback } :
      AttemptQueue γ θ ξ).pendingTimers = self.pendingTimers := by
  rw [pendingTimers_scheduled, h]
  rfl

theorem pendingTimers_arrived (self : AttemptQueue γ θ ξ) (paymentId : String)
    (paymentType : PaymentType) (work : γ) :
    ((self.arrived paymentId paymentType work).awoken .tick).pendingTimers = self.pendingTimers :=
  (passes_awoken (self.arrived paymentId paymentType work)).pendingTimers

theorem pendingTimers_popped {event : Event _} {rest : List (Event _)}
    (hqueue : self.scheduler.queue = event :: rest) (clock : VirtualClock) :
    self.pendingTimers = ({ self with scheduler := self.scheduler.ready clock rest } :
      AttemptQueue γ θ ξ).pendingTimers + if isTimer event.callback then 1 else 0 := by
  unfold PaymentQueue.pendingTimers
  rw [hqueue, List.countP_cons]
  rfl

/-- Every attempt that is left counts twice, because it may take a timer. -/
def load (left : Nat → Nat) (count : Nat) (self : AttemptQueue γ θ ξ) : Nat :=
  2 * (∑ i ∈ Finset.range count, left i) + self.pendingTimers

theorem sum_spend_lt (hpos : 0 < left i) (hcount : i < count) :
    ∑ j ∈ Finset.range count, spend left i j < ∑ j ∈ Finset.range count, left j := by
  refine Finset.sum_lt_sum (fun j _ => ?_) ⟨i, Finset.mem_range.mpr hcount, ?_⟩
  · by_cases hj : j = i
    · subst hj
      rw [spend_self]
      omega
    · rw [spend_of_ne left hj]
  · rw [spend_self]
    omega

/-- An attempt makes the load lighter, also if it schedules the next one. -/
theorem load_spend_lt (hpos : 0 < left i) (hcount : i < count)
    (hpending : later.pendingTimers ≤ self.pendingTimers + 1) :
    load (spend left i) count later < load left count self := by
  have hsum := sum_spend_lt hpos hcount
  unfold load
  omega

theorem load_lt_of_pending (hpending : later.pendingTimers < self.pendingTimers) :
    load left count later < load left count self := by
  unfold load
  omega

end Load

/-! ### What an engine has to show -/

/-- An invariant of a world with a payment queue in it, and a bound on what is
    left to do. The closure is the attempt that was just taken out of the queue,
    if any. Changes that do not matter leave it alone, and an attempt and an
    event other than a tick return and keep it. Under the condition they leave
    less to do. -/
structure Carries (queue : Component σ (PaymentQueue γ (QueueCallback γ χ)))
    (perform : γ → Action σ Unit) (other : χ → Action σ Unit) (condition : Prop)
    (K : Option γ → Nat → σ → Prop) : Prop where
  pass : ∀ held left s later, K held left s → Passes (queue.get s) later →
    K held left (queue.set later s)
  take : ∀ left s item waiting, K none left s → (queue.get s).waiting = item :: waiting →
    K (some item.work) left (queue.set { queue.get s with waiting } s)
  attempt : ∀ closure left s, K (some closure) left s → ∃ t less,
    (perform closure).run s = .ok () t ∧ K none less t ∧ Used (queue.get s) (queue.get t) ∧
      (condition → less < left)
  event : ∀ left s event rest clock, K none left s →
    (queue.get s).scheduler.queue = event :: rest → event.callback.isTick = false →
    (queue.get s).scheduler.clock.time ≤ event.time → clock.time = event.time → ∃ t less,
      (QueueCallback.call queue perform other event.callback).run
          (queue.set { queue.get s with scheduler := (queue.get s).scheduler.ready clock rest } s)
        = .ok () t ∧
      K none less t ∧
      Used { queue.get s with scheduler := (queue.get s).scheduler.ready clock rest }
        (queue.get t) ∧
      (condition → less < left)

section Carried

variable {queue : Component σ (PaymentQueue γ (QueueCallback γ χ))} {perform : γ → Action σ Unit}
  {other : χ → Action σ Unit} {condition : Prop} {K : Option γ → Nat → σ → Prop}

theorem During.used {time : Int} {rounds : Nat} {working : List (QueuedPayment γ)}
    {self later : PaymentQueue γ (QueueCallback γ χ)} (h : During True time rounds working self)
    (hused : Used self later) : During True time rounds working later :=
  hused.keeps (I := During True time rounds working)
    (fun _ _ hself hallowed => hself.use hallowed) h

theorem Between.used {self later : PaymentQueue γ (QueueCallback γ χ)} (h : Between True self)
    (hused : Used self later) : Between True later :=
  hused.keeps (I := Between True) (fun _ _ hself hallowed => hself.use hallowed) h

/-- So many rounds of the loop, each with an attempt that returns. -/
theorem processItems_carried (h : Carries queue perform other condition K) {time : Int}
    (rounds : Nat) : ∀ {s : σ} {left : Nat}, During True time rounds [] (queue.get s) →
      K none left s → ∃ t less,
        (QueueWorker.processItems queue perform rounds).run s = .ok () t ∧
          During True time 0 [] (queue.get t) ∧ K none less t ∧
          (condition → less + rounds ≤ left) := by
  induction rounds with
  | zero => exact fun {s left} hduring hK => ⟨s, left, rfl, hduring, hK, fun _ => le_refl left⟩
  | succ rounds ih =>
      intro s left hduring hK
      rcases hduring.take with ⟨item, begun, htaken, hbegun⟩
      -- The attempt is taken out of the queue, and its start is logged.
      have hheld : K (some item.work) left (queue.set begun s) := by
        rcases taken_some htaken with ⟨waiting, hwaiting, hsame⟩
        have hpass := h.pass _ _ _ begun (h.take left s item waiting hK hwaiting)
          (by rw [queue.get_set, hsame]; exact ⟨rfl, .refl _, le_refl _⟩)
        rwa [queue.set_set] at hpass
      rcases h.attempt item.work left _ hheld with ⟨t, less, hrun, hKt, hused, hless⟩
      rw [queue.get_set] at hused
      have hround : (QueueWorker.processItem queue perform).run s = _ := processItem_taken htaken
      rw [hrun] at hround
      -- It returned, and it is completed.
      have hnow := (hbegun.used hused).finish fun htimed => (hduring.paced htimed).1
      have hdone := h.pass _ _ _ ((queue.get t).finished item
        (queue.get s).scheduler.clock.time) hKt ⟨rfl, .refl _, le_refl _⟩
      rcases ih (by rw [queue.get_set]; exact hnow) hdone with
        ⟨u, least, hrest, hend, hKu, hleast⟩
      refine ⟨u, least, (run_bind_of_ok hround).trans hrest, hend, hKu, fun hcondition => ?_⟩
      have := hless hcondition
      have := hleast hcondition
      omega

/-- A tick, on the queue that has just forgotten it. -/
theorem processTick_carried (h : Carries queue perform other condition K) {time : Int} {s : σ}
    {left : Nat} (hduring : During True time
      (min (queue.get s).worker.capacity (queue.get s).waiting.length) []
      ((queue.get s).ticking (queue.get s).scheduler)) (hK : K none left s)
    (hwaits : (queue.get s).waiting.isEmpty = false) :
    ∃ t less, (QueueWorker.processTick queue perform .tick).run s = .ok () t ∧
      Between True (queue.get t) ∧ K none less t ∧ (condition → less < left) := by
  have hbegun := h.pass _ _ _ ((queue.get s).ticking (queue.get s).scheduler) hK
    ⟨rfl, .refl _, le_refl _⟩
  have hloop : During True time
      (min (queue.get s).worker.capacity (queue.get s).waiting.length) []
      (queue.get (queue.set ((queue.get s).ticking (queue.get s).scheduler) s)) := by
    rw [queue.get_set]
    exact hduring
  rcases processItems_carried h _ hloop hbegun with ⟨t, less, hrun, hend, hKt, hless⟩
  -- There was something to do, so there is less to do now.
  have hfewer : condition → less < left := by
    intro hcondition
    have hle := hless hcondition
    have hpos := (queue.get s).worker.capacity_pos
    have hlen : 0 < (queue.get s).waiting.length := by
      cases hwaiting : (queue.get s).waiting with
      | nil => rw [hwaiting] at hwaits; cases hwaits
      | cons _ _ => exact Nat.succ_pos _
    omega
  have htick : (QueueWorker.processTick queue perform .tick).run s = _ :=
    (processTick_start rfl).trans (run_bind_of_ok hrun)
  rw [run_bind_get] at htick
  cases hempty : (queue.get t).waiting.isEmpty with
  | true =>
      rw [if_neg (by simp [hempty])] at htick
      exact ⟨t, less, htick, hend.rest hempty, hKt, hfewer⟩
  | false =>
      rw [if_pos (by simp [hempty])] at htick
      refine ⟨_, less, htick.trans (Component.zoom_run_ok (wake_run _ _)), ?_,
        h.pass _ _ _ _ hKt (passes_awoken _), hfewer⟩
      rw [queue.get_set]
      exact hend.wake hempty

/-- One event of the scheduler. -/
theorem carried_step (h : Carries queue perform other condition K) {s : σ} {left : Nat}
    (hbetween : Between True (queue.get s)) (hK : K none left s) :
    (queue.get s).scheduler.queue = [] ∨ ∃ t less,
      (EventScheduler.runNext (queue.comp schedulerOf)
        (QueueCallback.call queue perform other)).run s = .ok true t ∧
      Between True (queue.get t) ∧ K none less t ∧ (condition → less < left) := by
  cases hqueue : (queue.get s).scheduler.queue with
  | nil => exact Or.inl rfl
  | cons event rest =>
      refine Or.inr ?_
      rcases hbetween.paced trivial with ⟨last, hpaced⟩
      have hdue := hpaced.orderly.le_queued event (by rw [hqueue]; exact List.mem_cons_self)
      rcases EventScheduler.runNext_due (queue.comp schedulerOf)
        (QueueCallback.call queue perform other) hqueue hdue with ⟨clock, hclock, hrun⟩
      -- Recording the event changes nothing that matters.
      have hrecord : ∀ t less, (QueueCallback.call queue perform other event.callback).run
          (queue.set { queue.get s with scheduler := (queue.get s).scheduler.ready clock rest } s)
            = .ok () t → Between True (queue.get t) → K none less t → (condition → less < left) →
          ∃ t less, (EventScheduler.runNext (queue.comp schedulerOf)
              (QueueCallback.call queue perform other)).run s = .ok true t ∧
            Between True (queue.get t) ∧ K none less t ∧ (condition → less < left) := by
        intro t less hcall ht hKt hless
        have hset : (queue.comp schedulerOf).set
            (((queue.comp schedulerOf).get s).ready clock rest) s
          = queue.set { queue.get s with
              scheduler := (queue.get s).scheduler.ready clock rest } s := rfl
        rw [hset, hcall] at hrun
        refine ⟨_, less, hrun, ?_, h.pass _ _ _ _ hKt ⟨rfl, .refl _, le_refl _⟩, hless⟩
        rw [queue.get_comp_set]
        exact ht.withHistory _
      cases hkind : event.callback.isTick with
      | false =>
          rcases h.event left s event rest clock hK hqueue hkind hdue hclock with
            ⟨t, less, hcall, hKt, hused, hless⟩
          have hready : Between True
              { queue.get s with scheduler := (queue.get s).scheduler.ready clock rest } :=
            hbetween.popped hqueue hkind rfl
              fun _ => ⟨hdue.trans hclock.ge, hpaced.orderly.ready hqueue hclock⟩
          exact hrecord t less hcall (hready.used hused) hKt hless
      | true =>
          -- The tick leaves the scheduler, and the loop begins.
          have hduring := hbetween.ticking hqueue hkind hclock
          have hKready := h.pass _ _ _
            { queue.get s with scheduler := (queue.get s).scheduler.ready clock rest } hK
            ⟨rfl, by
              rw [hqueue, List.filter_cons_of_neg (by simp [hkind])]
              exact .refl _, hdue.trans hclock.ge⟩
          rcases processTick_carried h (s := queue.set _ s)
            (by rw [queue.get_set]; exact hduring) hKready
            (by rw [queue.get_set]; exact (hbetween.only_tick hqueue hkind).2) with
            ⟨t, less, hcall, ht, hKt, hless⟩
          refine hrecord t less ?_ ht hKt hless
          rw [QueueCallback.eq_tick hkind]
          exact hcall

/-- A run never raises. Under the condition it comes to an end. -/
theorem run_of_carried (h : Carries queue perform other condition K) {s : σ} {left : Nat}
    (hbetween : Between True (queue.get s)) (hK : K none left s) :
    (∀ rounds, ∃ ended t, (EventScheduler.run (queue.comp schedulerOf)
        (QueueCallback.call queue perform other) rounds).run s = .ok ended t ∧
      (Between True (queue.get t) ∧ ∃ left, K none left t) ∧
      (ended = true → (queue.get t).scheduler.queue = [])) ∧
    (condition → ∃ t enough, ∀ rounds, enough ≤ rounds →
      (EventScheduler.run (queue.comp schedulerOf)
        (QueueCallback.call queue perform other) rounds).run s = .ok true t) := by
  constructor
  · intro rounds
    refine EventScheduler.run_keeps _ _ (J := fun s => Between True (queue.get s) ∧
      ∃ left, K none left s) ?_ rounds s ⟨hbetween, left, hK⟩
    rintro s ⟨hs, left, hKs⟩
    rcases carried_step h hs hKs with hnil | ⟨t, less, hnext, ht, hKt, -⟩
    · exact Or.inl hnil
    · exact Or.inr ⟨t, hnext, ht, less, hKt⟩
  · intro hcondition
    rcases EventScheduler.leads_of_steps (queue.comp schedulerOf) _
      (J := fun left s => Between True (queue.get s) ∧ K none left s) (fun left s hs => by
        rcases carried_step h hs.1 hs.2 with hnil | ⟨t, less, hnext, ht, hKt, hless⟩
        · exact Or.inl hnil
        · exact Or.inr ⟨t, less, hnext, ⟨ht, hKt⟩, hless hcondition⟩) left s ⟨hbetween, hK⟩ with
      ⟨t, less, hleads, -, hdone⟩
    rcases EventScheduler.run_of_leads _ _ hleads hdone with ⟨enough, henough⟩
    exact ⟨t, enough, henough⟩

end Carried

end PaymentQueue

end BankSim
