import BankSim.Library.Servers
import BankSim.Theory.QueueKeeps

/-!
# How Long a Payment Waits

A payment that is accepted is promised a time, and it is at that time that it
is taken through its work. What arrives later does not change the promise, since
it goes to the end of the queue.

The promise is that of a service with as many servers as the worker has
capacity, each of which is busy for a minute. A payment is ready for it from the
tick on that is the next one when it arrives, or would be if the worker were
woken. That tick is at most a minute away. It may also come within the minute in
which the payment arrives.

So the payment in a place of the queue waits for the ticks that serve the places
before it, and up to a minute for the first of these. In the middle of a tick
the places that its rounds are going to serve do not count, and the next tick is
a full minute away. They are not more than one tick serves, and so the bound is
the same.

## Main definitions

* `PaymentQueue.promised`: When a payment is going to be started.
* `PaymentQueue.slot`: When the payment in a place of the queue is.
* `PaymentQueue.Promise`: What the promise is for the payment.
* `PaymentQueue.Promises`: The queue and the promises it made.
* `PaymentQueue.Prompt`, `PaymentQueue.PromptDuring`: It keeps them, between
  events and in the middle of a tick.

## Theorems

* `promised_next`: The promise to the next payment.
* `Promises.arrived`, `Promises.begun`, `Promises.taken`, `Promises.finished`:
  What happens to a queue leaves its promises as they are.
* `prompt_kept`: The promises are kept.
* `wait_bounded`: How long a payment waits, by its place in the queue.
-/

namespace BankSim

open Exec

namespace PaymentQueue

variable {ω κ ξ σ : Type}

/-- When the payment of an order of arrival is going to be started, if `ready`
    says from which tick on it can be. -/
def promised (capacity : Nat) (ready : Nat → Int) (order : Nat) : Int :=
  Servers.start capacity 1 ready order

/-- When the payment in a place of the queue is going to be started, if the
    current tick still has so many rounds to come and the next one is known. -/
def slot (next : Int) (capacity rounds place : Nat) : Int :=
  if place < rounds then next - 1 else next + ((place - rounds) / capacity : Nat)

/-- What a payment was promised when it arrived in its place. -/
structure Promise (capacity : Nat) (ready : Nat → Int) (item : QueuedPayment ω) : Prop where
  position_pos : 0 < item.queuePosition
  ready_ge : item.queuedAt ≤ ready item.arrivalOrder
  ready_le : ready item.arrivalOrder ≤ item.queuedAt + 1
  /-- The ticks that serve the places before it have to come first. -/
  soonest : item.queuedAt + ((item.queuePosition - 1) / capacity : Nat)
    ≤ promised capacity ready item.arrivalOrder
  latest : promised capacity ready item.arrivalOrder
    ≤ item.queuedAt + ((item.queuePosition - 1) / capacity : Nat) + 1
  /-- If nobody is before it, it waits for a tick of its own. -/
  alone : item.queuePosition = 1 → item.queuedAt < promised capacity ready item.arrivalOrder

/-- The promises a queue made, where the next tick comes at a known time. -/
structure Promises (ready : Nat → Int) (next : Int) (rounds : Nat)
    (working : List (QueuedPayment ω)) (queue : PaymentQueue ω κ) : Prop where
  ready_mono : ∀ i j, i ≤ j → j < queue.nextOrder → ready i ≤ ready j
  ready_le : ∀ i < queue.nextOrder, ready i ≤ next
  promise : ∀ item ∈ queue.completed ++ working ++ queue.waiting,
    Promise queue.worker.capacity ready item
  completed : ∀ item ∈ queue.completed,
    item.processingStartedAt = some (promised queue.worker.capacity ready item.arrivalOrder) ∧
      item.completedAt = some (promised queue.worker.capacity ready item.arrivalOrder)
  current : ∀ item ∈ working,
    promised queue.worker.capacity ready item.arrivalOrder = next - 1
  past : ∀ i < queue.completed.length + working.length,
    promised queue.worker.capacity ready i < next
  waiting : ∀ i < queue.waiting.length,
    promised queue.worker.capacity ready (queue.completed.length + working.length + i)
      = slot next queue.worker.capacity rounds i

/-! ### The promise to the next payment -/

theorem slot_of_le {next : Int} {capacity rounds place : Nat} (h : rounds ≤ place) :
    slot next capacity rounds place = next + ((place - rounds) / capacity : Nat) := by
  unfold slot
  rw [if_neg (not_lt.mpr h)]

/-- A place that the next tick does not reach comes a minute after the one that
    is a whole tick before it. -/
theorem slot_add {next : Int} {capacity rounds place : Nat} (hpos : 0 < capacity)
    (hrounds : rounds ≤ place + capacity) :
    slot next capacity rounds (place + capacity)
      = max next (slot next capacity rounds place + 1) := by
  rw [slot_of_le hrounds]
  by_cases hplace : place < rounds
  · have hzero : (place + capacity - rounds) / capacity = 0 := Nat.div_eq_of_lt (by omega)
    unfold slot
    rw [if_pos hplace, hzero]
    omega
  · have hsucc : (place + capacity - rounds) / capacity = (place - rounds) / capacity + 1 := by
      rw [Nat.sub_add_comm (not_lt.mp hplace), Nat.add_div_right _ hpos]
    rw [slot_of_le (not_lt.mp hplace), hsucc]
    generalize (place - rounds) / capacity = ticks
    omega

variable {ready : Nat → Int} {next : Int} {rounds : Nat} {working : List (QueuedPayment ω)}
  {self : PaymentQueue ω κ}

/-- The payments are numbered in the order in which they stand. -/
theorem Tally.nextOrder_eq (h : Tally working self) :
    self.nextOrder = self.completed.length + working.length + self.waiting.length := by
  have hlength := congrArg List.length h.order
  rw [List.length_map, List.length_range, List.length_append, List.length_append] at hlength
  exact hlength.symm

/-- A payment that is ready from the next tick on is promised the place at the
    end of the queue. -/
theorem promised_next (h : Promises ready next rounds working self)
    (horder : self.nextOrder = self.completed.length + working.length + self.waiting.length)
    (hrounds : rounds ≤ self.waiting.length) (hnext : ready self.nextOrder = next) :
    promised self.worker.capacity ready self.nextOrder
      = slot next self.worker.capacity rounds self.waiting.length := by
  have hpos := self.worker.capacity_pos
  unfold promised
  by_cases hfirst : self.worker.capacity ≤ self.nextOrder
  · rw [Servers.start_of_le hpos hfirst, hnext]
    change max next (promised _ ready _ + 1) = _
    by_cases hwaits : self.worker.capacity ≤ self.waiting.length
    · -- The payment a whole tick before it waits as well.
      have hbefore := h.waiting (self.waiting.length - self.worker.capacity) (by omega)
      have hplace : self.completed.length + working.length
          + (self.waiting.length - self.worker.capacity)
            = self.nextOrder - self.worker.capacity := by omega
      have hslot := @slot_add next _ rounds (self.waiting.length - self.worker.capacity) hpos
        (by omega)
      rw [Nat.sub_add_cancel hwaits] at hslot
      rw [hslot, ← hbefore, hplace]
    · -- That payment is started before the next tick.
      have hbefore := h.past (self.nextOrder - self.worker.capacity) (by omega)
      have hzero : (self.waiting.length - rounds) / self.worker.capacity = 0 :=
        Nat.div_eq_of_lt (by omega)
      rw [slot_of_le hrounds, hzero]
      omega
  · have hzero : (self.waiting.length - rounds) / self.worker.capacity = 0 :=
      Nat.div_eq_of_lt (by omega)
    rw [Servers.start_of_lt (not_le.mp hfirst), hnext, slot_of_le hrounds, hzero]
    omega

/-- Promises rest on the payments up to the one that is promised something. -/
theorem promised_congr {ready' : Nat → Int} {capacity order : Nat}
    (h : ∀ i ≤ order, ready i = ready' i) :
    promised capacity ready order = promised capacity ready' order :=
  Servers.start_congr order h

/-- What a payment is promised that arrives now, if it is ready from the next tick
    on. That tick is a full minute away, unless it is one that others wait for. -/
theorem promise_accepted (hnext : ready self.nextOrder = next)
    (hplace : promised self.worker.capacity ready self.nextOrder
      = slot next self.worker.capacity rounds self.waiting.length)
    (hrounds : rounds ≤ self.waiting.length) (hcapacity : rounds ≤ self.worker.capacity)
    (hnow : self.scheduler.clock.time ≤ next) (hsoon : next ≤ self.scheduler.clock.time + 1)
    (hlate : next = self.scheduler.clock.time + 1 ∨ rounds = 0 ∧ 0 < self.waiting.length)
    (paymentId : String) (paymentType : PaymentType) (work : ω) :
    Promise self.worker.capacity ready (self.accepted paymentId paymentType work) := by
  have hpos := self.worker.capacity_pos
  -- The rounds to come serve places before it, and not more than one tick does.
  have hfewer : (self.waiting.length - rounds) / self.worker.capacity
      ≤ self.waiting.length / self.worker.capacity := Nat.div_le_div_right (Nat.sub_le _ _)
  have hmore : self.waiting.length / self.worker.capacity
      ≤ (self.waiting.length - rounds) / self.worker.capacity + 1 := by
    rw [← Nat.add_div_right _ hpos]
    exact Nat.div_le_div_right (by omega)
  have hnone : rounds = 0 → (self.waiting.length - rounds) / self.worker.capacity
      = self.waiting.length / self.worker.capacity := by
    rintro rfl
    rfl
  rw [slot_of_le hrounds] at hplace
  generalize hticks : self.waiting.length / self.worker.capacity = ticks at hfewer hmore hnone
  generalize (self.waiting.length - rounds) / self.worker.capacity = left
    at hplace hfewer hmore hnone
  refine ⟨Nat.succ_pos _, ?_, ?_, ?_, ?_, ?_⟩
  · change self.scheduler.clock.time ≤ ready self.nextOrder
    omega
  · change ready self.nextOrder ≤ self.scheduler.clock.time + 1
    omega
  · change self.scheduler.clock.time + (self.waiting.length / self.worker.capacity : Nat)
      ≤ promised self.worker.capacity ready self.nextOrder
    rw [hticks]
    omega
  · change promised self.worker.capacity ready self.nextOrder
      ≤ self.scheduler.clock.time + (self.waiting.length / self.worker.capacity : Nat) + 1
    rw [hticks]
    omega
  · intro hfirst
    change self.waiting.length + 1 = 1 at hfirst
    change self.scheduler.clock.time < promised self.worker.capacity ready self.nextOrder
    omega

/-- The ticks from which on the payments can be taken, and that of the next one. -/
def readyWith (ready : Nat → Int) (order : Nat) (next : Int) (i : Nat) : Int :=
  if i < order then ready i else next

theorem Promise.congr {ready' : Nat → Int} {capacity : Nat} {item : QueuedPayment ω}
    (h : Promise capacity ready item) (hsame : ∀ i ≤ item.arrivalOrder, ready i = ready' i) :
    Promise capacity ready' item := by
  have hready := hsame item.arrivalOrder le_rfl
  have hpromised : promised capacity ready item.arrivalOrder
    = promised capacity ready' item.arrivalOrder := promised_congr hsame
  refine ⟨h.position_pos, ?_, ?_, ?_, ?_, ?_⟩
  · rw [← hready]
    exact h.ready_ge
  · rw [← hready]
    exact h.ready_le
  · rw [← hpromised]
    exact h.soonest
  · rw [← hpromised]
    exact h.latest
  · rw [← hpromised]
    exact h.alone

namespace Promises

variable (h : Promises ready next rounds working self)

include h

/-- Another scheduler and another tick do not matter. -/
theorem awoken (tick : κ) : Promises ready next rounds working (self.awoken tick) := by
  unfold PaymentQueue.awoken
  split_ifs
  · exact h
  · exact { h with }

/-- The promises only rest on the payments that arrived. -/
theorem congr (htally : Tally working self) {ready' : Nat → Int}
    (hsame : ∀ i < self.nextOrder, ready i = ready' i) :
    Promises ready' next rounds working self := by
  have horder := htally.nextOrder_eq
  have hnumber : ∀ item ∈ self.completed ++ working ++ self.waiting,
      item.arrivalOrder < self.nextOrder := by
    intro item hmem
    have hrange := List.mem_map_of_mem (f := (·.arrivalOrder)) hmem
    rw [htally.order] at hrange
    exact List.mem_range.mp hrange
  have hpromised : ∀ i < self.nextOrder, promised self.worker.capacity ready i
      = promised self.worker.capacity ready' i :=
    fun i hi => promised_congr fun j hj => hsame j (lt_of_le_of_lt hj hi)
  refine ⟨?_, ?_, ?_, ?_, ?_, ?_, ?_⟩
  · intro i j hij hj
    rw [← hsame i (lt_of_le_of_lt hij hj), ← hsame j hj]
    exact h.ready_mono i j hij hj
  · intro i hi
    rw [← hsame i hi]
    exact h.ready_le i hi
  · intro item hmem
    exact (h.promise item hmem).congr fun j hj => hsame j (lt_of_le_of_lt hj (hnumber item hmem))
  · intro item hmem
    rw [← hpromised item.arrivalOrder (hnumber item (by simp [hmem]))]
    exact h.completed item hmem
  · intro item hmem
    rw [← hpromised item.arrivalOrder (hnumber item (by simp [hmem]))]
    exact h.current item hmem
  · intro i hi
    rw [← hpromised i (by omega)]
    exact h.past i hi
  · intro i hi
    rw [← hpromised _ (by omega)]
    exact h.waiting i hi

/-- A payment that arrives is promised the place at the end of the queue. -/
theorem arrived (htally : Tally working self) (hrounds : rounds ≤ self.waiting.length)
    (hcapacity : rounds ≤ self.worker.capacity) (hnow : self.scheduler.clock.time ≤ next)
    (hsoon : next ≤ self.scheduler.clock.time + 1)
    (hlate : next = self.scheduler.clock.time + 1 ∨ rounds = 0 ∧ 0 < self.waiting.length)
    (paymentId : String) (paymentType : PaymentType) (work : ω) :
    Promises (readyWith ready self.nextOrder next) next rounds working
      (self.arrived paymentId paymentType work) := by
  have horder := htally.nextOrder_eq
  have hnew : readyWith ready self.nextOrder next self.nextOrder = next := if_neg (lt_irrefl _)
  have hsame : ∀ i < self.nextOrder, ready i = readyWith ready self.nextOrder next i :=
    fun i hi => (if_pos hi).symm
  have hold := h.congr htally hsame
  have hplace := promised_next hold horder hrounds hnew
  refine ⟨?_, ?_, ?_, hold.completed, hold.current, hold.past, ?_⟩
  · intro i j hij hj
    rcases Nat.lt_or_eq_of_le (Nat.le_of_lt_succ hj) with hlt | rfl
    · exact hold.ready_mono i j hij hlt
    · rw [hnew]
      rcases Nat.lt_or_eq_of_le hij with hlt | rfl
      · exact hold.ready_le i hlt
      · exact hnew.le
  · intro i hi
    rcases Nat.lt_or_eq_of_le (Nat.le_of_lt_succ hi) with hlt | rfl
    · exact hold.ready_le i hlt
    · exact hnew.le
  · intro item hmem
    change item ∈ self.completed ++ working ++ (self.waiting ++ [_]) at hmem
    rw [← List.append_assoc] at hmem
    rcases List.mem_append.mp hmem with hearlier | hlast
    · exact hold.promise item hearlier
    · rw [List.mem_singleton.mp hlast]
      exact promise_accepted hnew hplace hrounds hcapacity hnow hsoon hlate paymentId paymentType
        work
  · intro i hi
    change i < (self.waiting ++ [_]).length at hi
    rw [List.length_append, List.length_singleton] at hi
    rcases Nat.lt_or_eq_of_le (Nat.le_of_lt_succ hi) with hlt | rfl
    · exact hold.waiting i hlt
    · change promised self.worker.capacity (readyWith ready self.nextOrder next)
        (self.completed.length + working.length + self.waiting.length) = _
      rw [← horder]
      exact hplace

/-- The next tick begins, and its rounds serve the places they are promised to. -/
theorem begun (hnone : rounds = 0) (hworking : working = []) :
    Promises ready (next + 1) (min self.worker.capacity self.waiting.length) [] self := by
  subst hnone hworking
  have hpos := self.worker.capacity_pos
  refine ⟨h.ready_mono, fun i hi => ?_, h.promise, h.completed, fun item hmem => ?_,
    fun i hi => ?_, fun i hi => ?_⟩
  · have hle := h.ready_le i hi
    omega
  · exact absurd hmem List.not_mem_nil
  · have hpast := h.past i hi
    omega
  · rw [h.waiting i hi, slot_of_le (Nat.zero_le i), Nat.sub_zero]
    by_cases hserved : i < min self.worker.capacity self.waiting.length
    · have hzero : i / self.worker.capacity = 0 := Nat.div_eq_of_lt (by omega)
      unfold slot
      rw [if_pos hserved, hzero]
      omega
    · -- The others are a whole tick further back.
      have hmin : min self.worker.capacity self.waiting.length = self.worker.capacity := by omega
      have hsucc : i / self.worker.capacity = (i - self.worker.capacity) / self.worker.capacity + 1
          := by
        rw [← Nat.add_div_right _ hpos, Nat.sub_add_cancel (by omega)]
      rw [slot_of_le (by omega), hmin, hsucc]
      generalize (i - self.worker.capacity) / self.worker.capacity = ticks
      omega

/-- A tick that is over leaves the next one. -/
theorem withWorker (worker : QueueWorker) (hcapacity : worker.capacity = self.worker.capacity) :
    Promises ready next rounds working { self with worker } := by
  refine ⟨h.ready_mono, h.ready_le, ?_, ?_, ?_, ?_, ?_⟩
  all_goals rw [hcapacity]
  · exact h.promise
  · exact h.completed
  · exact h.current
  · exact h.past
  · exact h.waiting

end Promises

/-- The payment that has waited longest is the next one by number. -/
theorem Tally.head_order {item : QueuedPayment ω} {waiting : List (QueuedPayment ω)}
    (h : Tally [] self) (hwaiting : self.waiting = item :: waiting) :
    item.arrivalOrder = self.completed.length := by
  have hlength := h.nextOrder_eq
  have hnumber := congrArg (·[self.completed.length]?) h.order
  rw [hwaiting, List.length_cons] at hlength
  rw [hwaiting] at hnumber
  simp only [List.append_nil, List.map_append, List.map_cons] at hnumber
  rw [List.getElem?_append_right (by simp), List.getElem?_range (by omega)] at hnumber
  simpa using hnumber

/-- It is started when it was promised. -/
theorem Promises.taken {item : QueuedPayment ω} {begun : PaymentQueue ω κ}
    (h : Promises ready next (rounds + 1) [] self) (htally : Tally [] self)
    (htaken : self.taken = some (item, begun)) : Promises ready next rounds [item] begun := by
  rcases taken_some htaken with ⟨waiting, hwaiting, hbegun⟩
  have horder := htally.head_order hwaiting
  have hpromise := h.promise
  have hslots := h.waiting
  rw [hwaiting] at hpromise hslots
  have hslot : slot next self.worker.capacity (rounds + 1) 0 = next - 1 := if_pos (by omega)
  have hfirst : promised self.worker.capacity ready self.completed.length = next - 1 :=
    (hslots 0 (by simp)).trans hslot
  rw [hbegun]
  refine ⟨h.ready_mono, h.ready_le, ?_, h.completed, ?_, ?_, ?_⟩
  · intro other hmem
    exact hpromise other (by simpa using hmem)
  · intro other hmem
    rw [List.mem_singleton.mp hmem, horder]
    exact hfirst
  · intro i hi
    change i < self.completed.length + 1 at hi
    rcases Nat.lt_or_eq_of_le (Nat.le_of_lt_succ hi) with hlt | rfl
    · exact h.past i hlt
    · change promised self.worker.capacity ready self.completed.length < next
      omega
  · intro i hi
    -- Every other payment moves up one place, and there is one round less to come.
    have hnext := hslots (i + 1) (by simpa using hi)
    have hplace : self.completed.length + 1 + i = self.completed.length + 0 + (i + 1) := by omega
    change promised self.worker.capacity ready (self.completed.length + 1 + i) = _
    rw [hplace]
    refine hnext.trans ?_
    unfold slot
    simp

/-- Its work is done, and it is completed then. -/
theorem Promises.finished {item : QueuedPayment ω} (h : Promises ready next rounds [item] self)
    {now : Int} (hnow : next = now + 1) :
    Promises ready next rounds [] (self.finished item now) := by
  have hcurrent := h.current item (List.mem_singleton_self item)
  have hpast := h.past
  have hslots := h.waiting
  have hlength : (self.finished item now).completed.length = self.completed.length + 1 := by
    simp [PaymentQueue.finished]
  have hstarted : promised self.worker.capacity ready item.arrivalOrder = now := by omega
  refine ⟨h.ready_mono, h.ready_le, ?_, ?_, fun other hmem => absurd hmem List.not_mem_nil, ?_, ?_⟩
  · intro other hmem
    change other ∈ self.completed ++ [_] ++ [] ++ self.waiting at hmem
    rw [List.append_nil] at hmem
    rcases List.mem_append.mp hmem with hdone | hwaits
    · rcases List.mem_append.mp hdone with hearlier | hlast
      · exact h.promise other (by simp [hearlier])
      · have hpromise := h.promise item (by simp)
        rw [List.mem_singleton.mp hlast]
        exact ⟨hpromise.position_pos, hpromise.ready_ge, hpromise.ready_le, hpromise.soonest,
          hpromise.latest, hpromise.alone⟩
    · exact h.promise other (by simp [hwaits])
  · intro other hmem
    rcases List.mem_append.mp hmem with hearlier | hlast
    · exact h.completed other hearlier
    · rw [List.mem_singleton.mp hlast]
      change some now = some (promised self.worker.capacity ready item.arrivalOrder) ∧
        some now = some (promised self.worker.capacity ready item.arrivalOrder)
      rw [hstarted]
      exact ⟨rfl, rfl⟩
  · rw [hlength]
    exact hpast
  · rw [hlength]
    exact hslots

/-! ### The promises are kept -/

/-- Between two events, all pending ticks come at the time the promises rest on. -/
def Prompt (capacity : Nat) (queue : PaymentQueue ω (QueueCallback ω ξ)) : Prop :=
  queue.worker.capacity = capacity ∧
    ∃ ready next, Promises ready next 0 [] queue ∧ next ≤ queue.scheduler.clock.time + 1 ∧
      ∀ event ∈ queue.scheduler.queue, event.callback.isTick = true → event.time = next

/-- In the middle of a tick the next one is a minute away. -/
def PromptDuring (capacity : Nat) (time : Int) (rounds : Nat) (working : List (QueuedPayment ω))
    (queue : PaymentQueue ω (QueueCallback ω ξ)) : Prop :=
  queue.worker.capacity = capacity ∧ rounds ≤ queue.worker.capacity ∧
    ∃ ready, Promises ready (time + 1) rounds working queue ∧
      ∀ event ∈ queue.scheduler.queue, event.callback.isTick = true → event.time = time + 1

@[simp] theorem awoken_capacity (self : PaymentQueue ω κ) (tick : κ) :
    (self.awoken tick).worker.capacity = self.worker.capacity := by
  unfold awoken
  split_ifs <;> rfl

/-- A tick of a worker that was woken was there before, or it is a minute away. -/
theorem tick_of_awoken {self : PaymentQueue ω (QueueCallback ω ξ)}
    {event : Event (QueueCallback ω ξ)} (hmem : event ∈ (self.awoken .tick).scheduler.queue) :
    event ∈ self.scheduler.queue ∨
      (self.worker.tickScheduled = false ∧ event.time = self.scheduler.clock.time + 1) := by
  unfold awoken at hmem
  by_cases hawake : self.worker.tickScheduled = true
  · rw [if_pos hawake] at hmem
    exact Or.inl hmem
  · rw [if_neg hawake] at hmem
    rcases (EventScheduler.mem_scheduled_iff _ _ _ _).mp hmem with rfl | hold
    · exact Or.inr ⟨by simpa using hawake, rfl⟩
    · exact Or.inl hold

section Keeps

variable {self : PaymentQueue ω (QueueCallback ω ξ)} {time : Int} {capacity : Nat}

/-- When nothing waits, the next tick may as well be a later one. -/
theorem Promises.later (h : Promises ready next 0 [] self) (hnone : self.waiting = [])
    {next' : Int} (hle : next ≤ next') : Promises ready next' 0 [] self := by
  refine ⟨h.ready_mono, fun i hi => (h.ready_le i hi).trans hle, h.promise, h.completed,
    fun item hmem => absurd hmem List.not_mem_nil, fun i hi => (h.past i hi).trans_le hle, ?_⟩
  intro i hi
  rw [hnone] at hi
  exact absurd hi (Nat.not_lt_zero i)

/-- Nothing is on time that is not yet to come. -/
theorem Between.le_next (h : Between True self) (hwaits : self.waiting.isEmpty = false)
    (hticks : ∀ event ∈ self.scheduler.queue, event.callback.isTick = true → event.time = next) :
    self.scheduler.clock.time ≤ next := by
  rcases h.paced trivial with ⟨last, hpaced⟩
  have hcount := h.tick
  rw [hwaits] at hcount
  have hpos : 0 < self.pendingTicks := by
    rw [hcount]
    exact Nat.one_pos
  rcases List.countP_pos_iff.mp hpos with ⟨event, hmem, htick⟩
  rw [← hticks event hmem htick]
  exact hpaced.orderly.le_queued event hmem

theorem Prompt.arrived (h : Prompt capacity self) (hbetween : Between True self)
    (paymentId : String) (paymentType : PaymentType) (work : ω) :
    Prompt capacity ((self.arrived paymentId paymentType work).awoken .tick) := by
  rcases h with ⟨hcapacity, ready, next, hpromises, hsoon, hticks⟩
  have hawake := hbetween.awake
  cases hempty : self.waiting.isEmpty with
  | true =>
      -- Nothing waited, and the payment wakes the worker.
      have hnone : self.waiting = [] := List.isEmpty_iff.mp hempty
      have hlater := hpromises.later hnone hsoon
      have harrived := hlater.arrived hbetween.tally (Nat.zero_le _) (Nat.zero_le _) (by omega)
        le_rfl (Or.inl rfl) paymentId paymentType work
      refine ⟨(awoken_capacity _ _).trans hcapacity, _, _, harrived.awoken _, ?_, ?_⟩
      · rw [awoken_clock]
        exact le_rfl
      · intro event hmem htick
        rcases tick_of_awoken hmem with hold | ⟨-, hnew⟩
        · have hcount := hbetween.tick
          rw [hempty, if_pos rfl] at hcount
          exact absurd htick (List.countP_eq_zero.mp hcount event hold)
        · exact hnew
  | false =>
      have hnow := hbetween.le_next hempty hticks
      have hpos : 0 < self.waiting.length := by
        rw [List.length_pos_iff]
        intro hnone
        rw [hnone] at hempty
        cases hempty
      have harrived := hpromises.arrived hbetween.tally (Nat.zero_le _) (Nat.zero_le _) hnow hsoon
        (Or.inr ⟨rfl, hpos⟩) paymentId paymentType work
      refine ⟨(awoken_capacity _ _).trans hcapacity, _, _, harrived.awoken _, ?_, ?_⟩
      · rw [awoken_clock]
        exact hsoon
      · intro event hmem htick
        rcases tick_of_awoken hmem with hold | ⟨hasleep, -⟩
        · exact hticks event hold htick
        · -- A tick was pending already, and the worker is not woken.
          rw [hempty] at hawake
          exact absurd (hawake.symm.trans hasleep) (by decide)

theorem PromptDuring.arrived (h : PromptDuring capacity time rounds working self)
    (hduring : During True time rounds working self) (paymentId : String)
    (paymentType : PaymentType) (work : ω) :
    PromptDuring capacity time rounds working
      ((self.arrived paymentId paymentType work).awoken .tick) := by
  rcases h with ⟨hcapacity, hrounds, ready, hpromises, hticks⟩
  have hnow := (hduring.paced trivial).1
  -- What arrives in a tick is for the next one, a minute later.
  have harrived := hpromises.arrived hduring.tally hduring.rounds_le hrounds (by omega) (by omega)
    (Or.inl (by omega)) paymentId paymentType work
  refine ⟨(awoken_capacity _ _).trans hcapacity, ?_, _, harrived.awoken _, ?_⟩
  · rw [awoken_capacity]
    exact hrounds
  · intro event hmem htick
    rcases tick_of_awoken hmem with hold | ⟨-, hnew⟩
    · exact hticks event hold htick
    · rw [← hnow]
      exact hnew

/-- The tick that others wait for begins. -/
theorem Prompt.begun (h : Prompt capacity self) (hbetween : Between True self)
    {event : Event (QueueCallback ω ξ)} {scheduler : EventScheduler (QueueCallback ω ξ)}
    (hqueue : self.scheduler.queue = event :: scheduler.queue)
    (htick : event.callback.isTick = true) :
    PromptDuring capacity event.time (min self.worker.capacity self.waiting.length) []
      (self.ticking scheduler) := by
  rcases h with ⟨hcapacity, ready, next, hpromises, -, hticks⟩
  have htime := hticks event (by rw [hqueue]; exact List.mem_cons_self) htick
  refine ⟨hcapacity, min_le_left _ _, ready, ?_, ?_⟩
  · rw [htime]
    exact { (hpromises.begun rfl rfl).withWorker
      { self.worker with tickScheduled := false } rfl with }
  · -- It was the only one.
    intro later hmem hkind
    have hnone := (hbetween.only_tick hqueue htick).1
    exact absurd hkind (List.countP_eq_zero.mp hnone later hmem)

end Keeps

/-- A queue keeps its promises. -/
theorem prompt_kept (capacity : Nat) : Kept (@Prompt ω ξ capacity) (PromptDuring capacity) where
  moved self scheduler h hbetween hticks htime := by
    rcases h with ⟨hcapacity, ready, next, hpromises, hsoon, hnext⟩
    exact ⟨hcapacity, ready, next, { hpromises with }, hsoon.trans (by simpa using htime),
      fun event hmem htick => hnext event (hticks event hmem htick) htick⟩
  arrived self paymentId paymentType work hbetween h :=
    h.arrived hbetween paymentId paymentType work
  begun self event scheduler hbetween h hqueue htick _ := h.begun hbetween hqueue htick
  movedDuring time rounds working self scheduler h hticks := by
    rcases h with ⟨hcapacity, hrounds, ready, hpromises, hnext⟩
    exact ⟨hcapacity, hrounds, ready, { hpromises with },
      fun event hmem htick => hnext event (hticks event hmem htick) htick⟩
  arrivedDuring time rounds working self paymentId paymentType work hduring h :=
    h.arrived hduring paymentId paymentType work
  taken time rounds self begun item hduring h htaken := by
    rcases h with ⟨hcapacity, hrounds, ready, hpromises, hnext⟩
    have hbegun := hpromises.taken hduring.tally htaken
    rcases taken_some htaken with ⟨waiting, -, hsame⟩
    rw [hsame] at hbegun ⊢
    exact ⟨hcapacity, (Nat.le_succ rounds).trans hrounds, ready, hbegun, hnext⟩
  finished time rounds self item hduring h := by
    rcases h with ⟨hcapacity, hrounds, ready, hpromises, hnext⟩
    exact ⟨hcapacity, hrounds, ready, hpromises.finished rfl, hnext⟩
  woken time self hduring h _ := by
    rcases h with ⟨hcapacity, -, ready, hpromises, hnext⟩
    have hnow := (hduring.paced trivial).1
    refine ⟨(awoken_capacity _ _).trans hcapacity, ready, time + 1, hpromises.awoken _, ?_,
      fun event hmem htick => ?_⟩
    · rw [awoken_clock, hnow]
    · rcases tick_of_awoken hmem with hold | ⟨-, hnew⟩
      · exact hnext event hold htick
      · rw [← hnow]
        exact hnew
  rested time self hduring h _ := by
    rcases h with ⟨hcapacity, -, ready, hpromises, hnext⟩
    have hnow := (hduring.paced trivial).1
    exact ⟨hcapacity, ready, time + 1, hpromises, by omega, hnext⟩

/-- A fresh queue has promised nothing. -/
theorem prompt_new (clock : VirtualClock) {capacity : Int}
    {self : PaymentQueue ω (QueueCallback ω ξ)}
    (hnew : PaymentQueue.new (EventScheduler.new clock) capacity = .ok self) :
    0 < capacity ∧ Prompt capacity.toNat self := by
  unfold PaymentQueue.new QueueWorker.new at hnew
  by_cases hcapacity : capacity ≤ 0
  · rw [dif_pos hcapacity] at hnew
    cases hnew
  · rw [dif_neg hcapacity] at hnew
    cases hnew
    refine ⟨not_le.mp hcapacity, rfl, fun _ => 0, clock.time + 1, ⟨?_, ?_, ?_, ?_, ?_, ?_, ?_⟩,
      le_rfl, fun event hmem => absurd hmem List.not_mem_nil⟩
    · exact fun _ _ _ _ => le_rfl
    · exact fun i hi => absurd hi (Nat.not_lt_zero i)
    · exact fun item hmem => absurd hmem List.not_mem_nil
    · exact fun item hmem => absurd hmem List.not_mem_nil
    · exact fun item hmem => absurd hmem List.not_mem_nil
    · exact fun i hi => absurd hi (Nat.not_lt_zero i)
    · exact fun i hi => absurd hi (Nat.not_lt_zero i)

/-! ### The bound -/

/-- A positive number of payments takes the ticks of those before the last, and
    one more. -/
theorem ceil_div {position : Nat} {capacity : Int} (hposition : 0 < position)
    (hcapacity : 0 < capacity) :
    ⌈(position : ℚ) / capacity⌉ = ((position - 1) / capacity.toNat : Nat) + 1 := by
  obtain ⟨before, rfl⟩ : ∃ before, position = before + 1 := ⟨position - 1, by omega⟩
  obtain ⟨places, rfl⟩ : ∃ places : Nat, capacity = places := ⟨capacity.toNat, by omega⟩
  have hplaces : 0 < places := by omega
  have hbelow := Nat.div_mul_le_self before places
  have habove := Nat.lt_div_mul_add hplaces (a := before)
  have hpos : (0 : ℚ) < places := by exact_mod_cast hplaces
  rw [Int.toNat_natCast, Nat.add_sub_cancel, Int.ceil_eq_iff]
  generalize before / places = ticks at hbelow habove ⊢
  have hbelow' : (ticks : ℚ) * places ≤ before := by exact_mod_cast hbelow
  have habove' : (before : ℚ) + 1 ≤ ticks * places + places := by exact_mod_cast habove
  push_cast
  constructor
  · rw [lt_div_iff₀ hpos]
    linarith
  · rw [div_le_iff₀ hpos]
    linarith

/-- The payment waited, if it was started, as long as its place in the queue
    takes, and up to a minute less. -/
def WaitBounded (capacity : Int) (item : QueuedPayment ω) : Prop :=
  ∀ wait, item.waitDuration = some wait →
    ⌈(item.queuePosition : ℚ) / capacity⌉ - 1 ≤ wait ∧
      wait ≤ ⌈(item.queuePosition : ℚ) / capacity⌉

/-- A promise that is kept bounds the wait. -/
theorem Promise.bounds {ready : Nat → Int} {item : QueuedPayment ω} {capacity : Int}
    (h : Promise capacity.toNat ready item) (hcapacity : 0 < capacity)
    (hstarted : item.processingStartedAt
      = some (promised capacity.toNat ready item.arrivalOrder)) : WaitBounded capacity item := by
  intro wait hwait
  have hsoonest := h.soonest
  have hlatest := h.latest
  rw [QueuedPayment.waitDuration, hstarted] at hwait
  have hwaited : promised capacity.toNat ready item.arrivalOrder - item.queuedAt = wait :=
    Option.some.inj hwait
  rw [ceil_div h.position_pos hcapacity]
  omega

theorem Prompt.bounds {capacity : Int} {self : PaymentQueue ω (QueueCallback ω ξ)}
    (h : Prompt capacity.toNat self) (hcapacity : 0 < capacity) (hbetween : Between True self) :
    ∀ item ∈ self.completed ++ self.waiting, WaitBounded capacity item := by
  rcases h with ⟨hsame, ready, next, hpromises, -⟩
  have hpromise := hpromises.promise
  have hcompleted := hpromises.completed
  rw [List.append_nil] at hpromise
  rw [hsame] at hpromise hcompleted
  intro item hmem
  rcases List.mem_append.mp hmem with hdone | hwaits
  · exact (hpromise item hmem).bounds hcapacity (hcompleted item hdone).1
  · -- What waits is not started.
    intro wait hwait
    rw [QueuedPayment.waitDuration, hbetween.tally.unstarted item hwaits] at hwait
    cases hwait

/-- In a payment queue whose works never raise, while nobody but the scheduler
    moves the clock, a payment waits as many ticks as its place in the queue
    takes, or up to a minute less. -/
theorem wait_bounded (queue : Component σ (PaymentQueue ω (QueueCallback ω ξ)))
    (perform : ω → Action σ Unit) (other : ξ → Action σ Unit)
    (hperform : ∀ work, OnlyMakes queue Use.exec (fun how => how.Fair ∧ how.KeepsTime)
      (perform work))
    (hother : ∀ callback, OnlyMakes queue Use.exec (fun how => how.Fair ∧ how.KeepsTime)
      (other callback))
    (hreturns : ∀ work s, ¬ Raises (perform work) s) (clock : VirtualClock) (capacity : Int)
    (self : PaymentQueue ω (QueueCallback ω ξ))
    (hnew : PaymentQueue.new (EventScheduler.new clock) capacity = .ok self) (s : σ)
    (steps : List (Step ω ξ))
    (hsteps : ∀ step ∈ steps, step.Uses fun how => how.Fair ∧ how.KeepsTime) :
    AllStates (Step.exec queue perform other)
      (fun t => ∀ item ∈ (queue.get t).completed ++ (queue.get t).waiting,
        WaitBounded capacity item) (queue.set self s) steps := by
  rcases prompt_new clock hnew with ⟨hcapacity, hprompt⟩
  have hstart : Between True (queue.get (queue.set self s)) ∧
      Prompt capacity.toNat (queue.get (queue.set self s)) := by
    rw [queue.get_set]
    exact ⟨between_new True clock hnew, hprompt⟩
  have hrun := (prompt_kept capacity.toNat).run hperform hreturns hother hstart hsteps
  exact allStates_mono (fun t ht => ht.2.bounds hcapacity ht.1) hrun

theorem wait_bounded_relay :
    AllStates (Step.exec Component.whole relayWork Empty.elim)
      (fun t => ∀ item ∈ t.completed ++ t.waiting, WaitBounded 1 item) (oneAMinute Nat Empty)
      [.use (.enqueue "PAY-1" .achTransfer 2 true), .use (.enqueue "PAY-2" .achReturn 0 true),
        .runNext, .use (.enqueue " " .achReturn 0 true), .runNext, .runNext, .runNext] :=
  wait_bounded Component.whole relayWork Empty.elim
    (fun work self => (relayWork_run work self).1) (fun callback => callback.elim)
    (fun work self => (relayWork_run work self).2) ⟨0, by decide⟩ 1 (oneAMinute Nat Empty) rfl
    (oneAMinute Nat Empty) _ (by simp [Step.Uses, Use.Fair, Use.KeepsTime])

end PaymentQueue

end BankSim
