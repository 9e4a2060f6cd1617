import BankSim.Theory.PaymentQueues

/-!
# The Law of a Payment Queue

Payments may be enqueued at any moment, by a caller, by a callback of the
scheduler, or by the work of another payment in the middle of a tick. The work
is any program on the world, and so are the other callbacks. What is assumed
of them is what they do to the queue: they enqueue, they schedule callbacks
other than the queue's own tick, and they may move the clock, in any number and
order.

Between two events every accepted payment is completed or waits, in the order
of acceptance, and a tick is pending exactly when something waits. In the middle
of a tick neither is true. One payment is in neither place, and a tick is
pending when something arrived since the tick began. `During` is what holds
then: so many rounds of the loop are still to come, and they do not use up what
arrived in the meantime. What the worker does within a minute is `Paced`, and
that part of the invariant is only there while nobody but the scheduler moves
the clock.

The middle of a tick is also where a work that raises leaves the queue. The
payment it belongs to is lost, and nothing asks for the next tick. The only
other way to go wrong is to move the clock past a tick that is pending, which
the scheduler then drops. `queue_safe_iff` says that there is no third way.

## Main definitions

* `PaymentQueue.Use`: What can be done with a queue and its scheduler.
* `PaymentQueue.Step`: One step of a run.
* `PaymentQueue.Fifo`: The law, in one state of a run.
* `PaymentQueue.Between`, `PaymentQueue.During`: The invariant between events
  and in the middle of a tick.
* `PaymentQueue.Step.Serves`: The tick is on time and the works it comes to
  return.
* `PaymentQueue.Safe`: No payment is lost, and what waits has a tick to come.

## Theorems

* `use_cases`: What a use does to the queue.
* `processItem_during`, `processItems_during`, `processTick_during`: One round
  of the loop, so many rounds, and the tick.
* `onlyMakes_call`, `between_tick`: The callbacks of the events.
* `between_step`: A step keeps the invariant if it serves, and is seen to fail
  if it does not.
* `payment_queue_fifo`: The law, along every run.
* `queue_safe_iff`: A run is safe exactly when all its works return.
-/

namespace BankSim

open Exec

/-- The queue's own closure. -/
def QueueCallback.isTick {ω ξ : Type} : QueueCallback ω ξ → Bool
  | .tick => true
  | .enqueue _ _ _ | .other _ => false

theorem QueueCallback.eq_tick {ω ξ : Type} {callback : QueueCallback ω ξ}
    (h : callback.isTick = true) : callback = .tick := by
  cases callback with
  | tick => rfl
  | enqueue paymentId paymentType work => cases h
  | other callback => cases h

namespace PaymentQueue

variable {ω ξ κ σ : Type}

/-- What can be done with a queue and its scheduler between two events, or from
    inside a callback. -/
inductive Use (ω ξ : Type)
  | enqueue (paymentId : String) (paymentType : PaymentType) (work : ω) (accepted : Bool)
  | scheduleAt (time : Int) (callback : QueueCallback ω ξ)
  | scheduleAfter (delay : Int) (callback : QueueCallback ω ξ)
  | advanceTo (newTime : Int)
  | advanceBy (amount : Int)

def Use.exec : Use ω ξ → Action (PaymentQueue ω (QueueCallback ω ξ)) Unit
  | .enqueue paymentId paymentType work accepted => do
      let _ ← PaymentQueue.enqueue .tick paymentId paymentType work accepted
  | .scheduleAt time callback => schedulerOf.zoom (EventScheduler.scheduleAt time callback)
  | .scheduleAfter delay callback => schedulerOf.zoom (EventScheduler.scheduleAfter delay callback)
  | .advanceTo newTime => do
      let _ ← (schedulerOf.comp EventScheduler.clockOf).zoom (VirtualClock.advanceTo newTime)
  | .advanceBy amount => do
      let _ ← (schedulerOf.comp EventScheduler.clockOf).zoom (VirtualClock.advanceBy amount)

/-- The tick is the queue's own to schedule. -/
def Use.Fair : Use ω ξ → Prop
  | .scheduleAt _ callback | .scheduleAfter _ callback => callback.isTick = false
  | .enqueue _ _ _ _ | .advanceTo _ | .advanceBy _ => True

/-- The use leaves the clock alone. -/
def Use.KeepsTime : Use ω ξ → Prop
  | .enqueue _ _ _ _ | .scheduleAt _ _ | .scheduleAfter _ _ => True
  | .advanceTo _ | .advanceBy _ => False

/-- A fair use, which leaves the clock alone if time is the scheduler's. -/
def Use.Allowed (timed : Prop) (how : Use ω ξ) : Prop :=
  how.Fair ∧ (timed → how.KeepsTime)

/-- One step of a run. -/
inductive Step (ω ξ : Type)
  | use (how : Use ω ξ)
  | runNext

/-- If the step is a use, it is of this kind. -/
def Step.Uses (kind : Use ω ξ → Prop) : Step ω ξ → Prop
  | .use how => kind how
  | .runNext => True

def Step.exec (queue : Component σ (PaymentQueue ω (QueueCallback ω ξ)))
    (perform : ω → Action σ Unit) (other : ξ → Action σ Unit) : Step ω ξ → Action σ Unit
  | .use how => queue.zoom how.exec
  | .runNext => do
      let _ ← EventScheduler.runNext (queue.comp schedulerOf)
        (QueueCallback.call queue perform other)

/-- How many logged events are about this. -/
def logged (action : QueueAction) (events : List QueueEvent) : Nat :=
  events.countP fun event => event.action = action

/-- How many ticks are pending. -/
def pendingTicks (self : PaymentQueue ω (QueueCallback ω ξ)) : Nat :=
  self.scheduler.queue.countP fun event => event.callback.isTick

/-- How many payments started to be processed at a time. -/
def startedAt (time : Int) (items : List (QueuedPayment ω)) : Nat :=
  items.countP fun item => item.processingStartedAt = some time

/-- The law of a payment queue, in one state of a run. -/
structure Fifo (queue : PaymentQueue ω (QueueCallback ω ξ)) : Prop where
  /-- Every accepted payment is completed or waits, once, in arrival order. -/
  order : (queue.completed ++ queue.waiting).map (·.arrivalOrder) = List.range queue.nextOrder
  /-- They are the payments whose arrivals were logged. -/
  accepted : (queue.completed ++ queue.waiting).map (fun item => (item.paymentId, item.queuedAt))
    = (queue.events.filter fun event => event.action = .arrived).map
        fun event => (event.paymentId, event.time)
  /-- One tick is pending if something waits, and none otherwise. -/
  tick : queue.pendingTicks = if queue.waiting.isEmpty then 0 else 1
  /-- At most `capacity` payments start to be processed at any one time. -/
  capacity : ∀ time, startedAt time (queue.completed ++ queue.waiting) ≤ queue.worker.capacity
  /-- The logged depth is what arrived less what began to be processed. -/
  depth : ∀ earlier event, earlier ++ [event] <+: queue.events →
    event.queueSize + logged .processing (earlier ++ [event]) = logged .arrived (earlier ++ [event])

/-! ### What a use does -/

/-- The queue with a tick pending. -/
def awoken (self : PaymentQueue ω κ) (tick : κ) : PaymentQueue ω κ :=
  if self.worker.tickScheduled then self else self.woken tick

theorem wake_run (tick : κ) (self : PaymentQueue ω κ) :
    (QueueWorker.wake tick).run self = .ok () (self.awoken tick) := by
  unfold awoken
  by_cases hawake : self.worker.tickScheduled = true
  · rw [if_pos hawake]
    exact wake_awake tick hawake
  · rw [if_neg hawake]
    exact wake_asleep tick (Bool.not_eq_true _ ▸ hawake)

theorem enqueue_of_blank (tick : κ) {paymentId : String} (hid : isBlank paymentId = true)
    (paymentType : PaymentType) (work : ω) (self : PaymentQueue ω κ) :
    (enqueue tick paymentId paymentType work).run self
      = .error (valueError "payment identifier cannot be blank") self := by
  unfold PaymentQueue.enqueue
  rw [if_neg (by simp), if_pos hid]
  rfl

theorem enqueue_of_nonblank (tick : κ) {paymentId : String} (hid : isBlank paymentId = false)
    (paymentType : PaymentType) (work : ω) (self : PaymentQueue ω κ) :
    (enqueue tick paymentId paymentType work).run self
      = .ok (some (self.accepted paymentId paymentType work))
        ((self.arrived paymentId paymentType work).awoken tick) := by
  rw [enqueue_run tick hid, run_bind_of_ok (wake_run _ _)]
  rfl

/-- A use is refused and does nothing, or it queues an event that is not past, or
    it accepts a payment, or it moves the clock. -/
theorem use_cases {how : Use ω ξ} (hfair : how.Fair)
    (self : PaymentQueue ω (QueueCallback ω ξ)) :
    after how.exec self = self ∨
      (∃ time callback, callback.isTick = false ∧ self.scheduler.clock.time ≤ time ∧
        after how.exec self
          = { self with scheduler := self.scheduler.scheduled time callback }) ∨
      (∃ paymentId paymentType work,
        after how.exec self = (self.arrived paymentId paymentType work).awoken .tick) ∨
      (¬ how.KeepsTime ∧ ∃ clock,
        after how.exec self = { self with scheduler := { self.scheduler with clock } }) := by
  cases how with
  | enqueue paymentId paymentType work accepted =>
      rw [Use.exec, after_discard]
      cases accepted with
      | false => exact Or.inl (after_of_ok rfl)
      | true =>
          by_cases hid : isBlank paymentId = true
          · exact Or.inl (after_of_error (enqueue_of_blank _ hid paymentType work self))
          · refine Or.inr (Or.inr (Or.inl ⟨paymentId, paymentType, work, ?_⟩))
            exact after_of_ok (enqueue_of_nonblank _ (by simpa using hid) paymentType work self)
  | scheduleAt time callback =>
      rw [Use.exec, Component.after_zoom]
      by_cases htime : self.scheduler.clock.time ≤ time
      · refine Or.inr (Or.inl ⟨time, callback, hfair, htime, ?_⟩)
        exact congrArg (schedulerOf.set · self)
          (after_of_ok (EventScheduler.scheduleAt_of_le callback htime))
      · rcases @EventScheduler.scheduleAt_of_lt _ self.scheduler time callback
          (not_le.mp htime) with ⟨e, -, he⟩
        exact Or.inl (congrArg (schedulerOf.set · self) (after_of_error he))
  | scheduleAfter delay callback =>
      rw [Use.exec, Component.after_zoom]
      by_cases hdelay : 0 ≤ delay
      · refine Or.inr (Or.inl ⟨self.scheduler.clock.time + delay, callback, hfair, by omega, ?_⟩)
        exact congrArg (schedulerOf.set · self)
          (after_of_ok (EventScheduler.scheduleAfter_of_nonneg callback hdelay))
      · rcases @EventScheduler.scheduleAfter_of_neg _ self.scheduler delay callback
          (not_le.mp hdelay) with ⟨e, he⟩
        exact Or.inl (congrArg (schedulerOf.set · self) (after_of_error he))
  | advanceTo newTime =>
      rw [Use.exec, after_discard, Component.after_zoom]
      exact Or.inr (Or.inr (Or.inr ⟨id, _, rfl⟩))
  | advanceBy amount =>
      rw [Use.exec, after_discard, Component.after_zoom]
      exact Or.inr (Or.inr (Or.inr ⟨id, _, rfl⟩))

/-! ### The books -/

/-- The logged depths are right, and the last one is this. -/
structure Depths (events : List QueueEvent) (depth : Nat) : Prop where
  each : ∀ earlier event, earlier ++ [event] <+: events →
    event.queueSize + logged .processing (earlier ++ [event]) = logged .arrived (earlier ++ [event])
  last : depth + logged .processing events = logged .arrived events

theorem Depths.append {events : List QueueEvent} {depth : Nat} (h : Depths events depth)
    (event : QueueEvent) (hsize : event.queueSize + logged .processing (events ++ [event])
      = logged .arrived (events ++ [event])) :
    Depths (events ++ [event]) event.queueSize where
  each earlier other hprefix := by
    rcases List.prefix_concat_iff.mp hprefix with hall | hearlier
    · rcases List.append_inj' hall rfl with ⟨rfl, hother⟩
      cases hother
      exact hsize
    · exact h.each earlier other hearlier
  last := hsize

/-- The payments and the log agree, where `working` is what was taken out of the
    queue and is not yet completed. -/
structure Tally (working : List (QueuedPayment ω)) (queue : PaymentQueue ω κ) : Prop where
  order : (queue.completed ++ working ++ queue.waiting).map (·.arrivalOrder)
    = List.range queue.nextOrder
  accepted : (queue.completed ++ working ++ queue.waiting).map
      (fun item => (item.paymentId, item.queuedAt))
    = (queue.events.filter fun event => event.action = .arrived).map
        fun event => (event.paymentId, event.time)
  depths : Depths queue.events queue.waiting.length
  unstarted : ∀ item ∈ queue.waiting, item.processingStartedAt = none

namespace Tally

variable {working : List (QueuedPayment ω)} {self : PaymentQueue ω κ}

theorem withScheduler (h : Tally working self) (scheduler : EventScheduler κ) :
    Tally working { self with scheduler } :=
  { h with }

theorem withWorker (h : Tally working self) (worker : QueueWorker) :
    Tally working { self with worker } :=
  { h with }

theorem awoken (h : Tally working self) (tick : κ) : Tally working (self.awoken tick) := by
  unfold PaymentQueue.awoken
  split_ifs
  · exact h
  · exact (h.withWorker { self.worker with tickScheduled := true }).withScheduler _

/-- A payment arrives. -/
theorem arrived (h : Tally working self) (paymentId : String) (paymentType : PaymentType)
    (work : ω) : Tally working (self.arrived paymentId paymentType work) where
  order := by
    simp only [PaymentQueue.arrived, ← List.append_assoc]
    rw [List.map_append, h.order, List.range_succ]
    rfl
  accepted := by
    simp only [PaymentQueue.arrived, ← List.append_assoc]
    rw [List.map_append, h.accepted, List.filter_append, List.map_append]
    rfl
  depths := by
    refine h.depths.append _ ?_
    have hlast := h.depths.last
    simp only [logged, List.countP_append, List.countP_singleton, List.length_append,
      List.length_singleton] at hlast ⊢
    simp
    omega
  unstarted item hmem := by
    rcases List.mem_append.mp hmem with hold | hnew
    · exact h.unstarted item hold
    · rw [List.mem_singleton.mp hnew]
      rfl

/-- The payment that has waited longest is taken out of the queue. -/
theorem start (h : Tally [] self) {item : QueuedPayment ω} {waiting : List (QueuedPayment ω)}
    (hwaiting : self.waiting = item :: waiting) :
    Tally [item]
      { self with
        waiting
        events := self.events ++
          [⟨self.scheduler.clock.time, .processing, item.paymentId, waiting.length⟩] } where
  order := by
    rw [← h.order, hwaiting, List.append_nil, List.append_assoc, List.singleton_append]
  accepted := by
    have haccepted := h.accepted
    rw [hwaiting, List.append_nil] at haccepted
    rw [List.append_assoc, List.singleton_append, haccepted, List.filter_append]
    exact congrArg _ (List.append_nil _).symm
  depths := by
    refine h.depths.append _ ?_
    have hlast := h.depths.last
    rw [hwaiting] at hlast
    simp only [logged, List.countP_append, List.countP_singleton, List.length_cons] at hlast ⊢
    simp
    omega
  unstarted other hmem := by
    refine h.unstarted other ?_
    rw [hwaiting]
    exact List.mem_cons_of_mem item hmem

/-- It is completed. -/
theorem finish {item : QueuedPayment ω} (h : Tally [item] self) (now : Int) :
    Tally []
      { self with
        completed := self.completed ++
          [{ item with processingStartedAt := some now, completedAt := some now }]
        events := self.events ++ [⟨now, .completed, item.paymentId, self.waiting.length⟩] } where
  order := by
    rw [← h.order, List.append_nil]
    simp only [List.map_append, List.map_cons, List.map_nil]
  accepted := by
    have haccepted := h.accepted
    rw [List.append_nil, List.filter_append, List.filter_cons_of_neg (by simp), List.filter_nil,
      List.append_nil, ← haccepted]
    simp only [List.map_append, List.map_cons, List.map_nil]
  depths := by
    refine h.depths.append _ ?_
    have hlast := h.depths.last
    simp only [logged, List.countP_append, List.countP_singleton] at hlast ⊢
    simp
    omega
  unstarted := h.unstarted

end Tally

/-! ### The pace -/

/-- The worker last worked at `last`. What it started by then is within its
    capacity, with so many places left at that time, and the next tick is later.
    This is how things are while nobody else moves the clock. -/
structure Paced (last : Int) (spare : Nat) (queue : PaymentQueue ω (QueueCallback ω ξ)) :
    Prop where
  orderly : queue.scheduler.Orderly
  last_le : last ≤ queue.scheduler.clock.time
  started : ∀ item ∈ queue.completed, ∀ time ∈ item.processingStartedAt, time ≤ last
  later : ∀ event ∈ queue.scheduler.queue, event.callback.isTick = true → last < event.time
  within : ∀ time, startedAt time queue.completed ≤ queue.worker.capacity
  spare : startedAt last queue.completed + spare ≤ queue.worker.capacity

@[simp] theorem awoken_waiting (self : PaymentQueue ω κ) (tick : κ) :
    (self.awoken tick).waiting = self.waiting := by
  unfold awoken
  split_ifs <;> rfl

@[simp] theorem awoken_tickScheduled (self : PaymentQueue ω κ) (tick : κ) :
    (self.awoken tick).worker.tickScheduled = true := by
  unfold awoken
  split_ifs with h
  · exact h
  · rfl

@[simp] theorem awoken_clock (self : PaymentQueue ω κ) (tick : κ) :
    (self.awoken tick).scheduler.clock = self.scheduler.clock := by
  unfold awoken
  split_ifs <;> rfl

namespace Paced

variable {last : Int} {spare : Nat} {self : PaymentQueue ω (QueueCallback ω ξ)}

theorem scheduled (h : Paced last spare self) {time : Int} {callback : QueueCallback ω ξ}
    (hkind : callback.isTick = false) (htime : self.scheduler.clock.time ≤ time) :
    Paced last spare { self with scheduler := self.scheduler.scheduled time callback } where
  orderly := h.orderly.scheduled callback htime
  last_le := h.last_le
  started := h.started
  later event hmem hevent := by
    rcases (EventScheduler.mem_scheduled_iff _ _ _ _).mp hmem with rfl | hold
    · exact absurd (hkind.symm.trans hevent) (by decide)
    · exact h.later event hold hevent
  within := h.within
  spare := h.spare

theorem arrived (h : Paced last spare self) (paymentId : String) (paymentType : PaymentType)
    (work : ω) : Paced last spare (self.arrived paymentId paymentType work) :=
  ⟨h.orderly, h.last_le, h.started, h.later, h.within, h.spare⟩

/-- A new tick is pending for the minute after this one. -/
theorem awoken (h : Paced last spare self) : Paced last spare (self.awoken .tick) := by
  unfold PaymentQueue.awoken
  by_cases hawake : self.worker.tickScheduled = true
  · rw [if_pos hawake]
    exact h
  · rw [if_neg hawake]
    have hlast := h.last_le
    refine ⟨h.orderly.scheduled _ (by omega), hlast, h.started, ?_, h.within, h.spare⟩
    intro event hmem hevent
    rcases (EventScheduler.mem_scheduled_iff _ _ _ _).mp hmem with rfl | hold
    · exact Int.lt_add_one_of_le hlast
    · exact h.later event hold hevent

/-- The payment that is completed takes one of the places that were left. -/
theorem finish (h : Paced last (spare + 1) self) (item : QueuedPayment ω)
    (events : List QueueEvent) :
    Paced last spare
      { self with
        events
        completed := self.completed ++
          [{ item with processingStartedAt := some last, completedAt := some last }] } where
  orderly := h.orderly
  last_le := h.last_le
  started other hmem time htime := by
    rcases List.mem_append.mp hmem with hold | hnew
    · exact h.started other hold time htime
    · rw [List.mem_singleton.mp hnew] at htime
      cases htime
      exact le_refl last
  later := h.later
  within time := by
    have hspare := h.spare
    have hwithin := h.within time
    unfold startedAt at hspare hwithin ⊢
    rw [List.countP_append, List.countP_singleton]
    by_cases htime : last = time
    · subst htime
      simp
      omega
    · simp [htime]
      omega
  spare := by
    have hspare := h.spare
    unfold startedAt at hspare ⊢
    rw [List.countP_append, List.countP_singleton]
    simp
    omega

end Paced

/-! ### Between events, and in the middle of a tick -/

/-- As many ticks are pending as the worker remembers. -/
def Wound (queue : PaymentQueue ω (QueueCallback ω ξ)) : Prop :=
  queue.pendingTicks = if queue.worker.tickScheduled then 1 else 0

theorem Wound.awoken {self : PaymentQueue ω (QueueCallback ω ξ)} (h : self.Wound) :
    (self.awoken .tick).Wound := by
  unfold PaymentQueue.awoken
  by_cases hawake : self.worker.tickScheduled = true
  · rw [if_pos hawake]
    exact h
  · rw [if_neg hawake]
    unfold Wound pendingTicks at h ⊢
    rw [if_neg hawake] at h
    unfold woken
    rw [EventScheduler.countP_scheduled, h]
    rfl

/-- What holds between two events. Where `timed` is true, nobody but the
    scheduler moves the clock. -/
structure Between (timed : Prop) (queue : PaymentQueue ω (QueueCallback ω ξ)) : Prop where
  tally : Tally [] queue
  wound : queue.Wound
  awake : queue.worker.tickScheduled = !queue.waiting.isEmpty
  paced : timed → ∃ last, Paced last 0 queue

/-- What holds in the middle of a tick, with so many rounds of its loop to come
    after the payment at hand. -/
structure During (timed : Prop) (time : Int) (rounds : Nat) (working : List (QueuedPayment ω))
    (queue : PaymentQueue ω (QueueCallback ω ξ)) : Prop where
  tally : Tally working queue
  wound : queue.Wound
  rounds_le : rounds ≤ queue.waiting.length
  /-- What arrived since the tick began is not for its rounds. -/
  rounds_lt : queue.worker.tickScheduled = true → rounds < queue.waiting.length
  paced : timed → queue.scheduler.clock.time = time ∧ Paced time (rounds + working.length) queue

section Uses

variable {timed : Prop} {how : Use ω ξ} {self : PaymentQueue ω (QueueCallback ω ξ)}

/-- A property that an event, an arrival and a move of the clock keep, every use
    keeps. -/
theorem keeps_use {I : PaymentQueue ω (QueueCallback ω ξ) → Prop}
    (hschedule : ∀ self time callback, I self → callback.isTick = false →
      self.scheduler.clock.time ≤ time →
        I { self with scheduler := self.scheduler.scheduled time callback })
    (harrive : ∀ self paymentId paymentType work, I self →
      I ((self.arrived paymentId paymentType work).awoken .tick))
    (hclock : ¬ timed → ∀ (self : PaymentQueue ω (QueueCallback ω ξ)) clock, I self →
      I { self with scheduler := { self.scheduler with clock } })
    (hallowed : how.Allowed timed) (h : I self) : I (after how.exec self) := by
  rcases use_cases hallowed.1 self with
    hsame | ⟨time, callback, hkind, htime, hafter⟩ | ⟨paymentId, paymentType, work, hafter⟩ |
      ⟨hmoves, clock, hafter⟩
  · rwa [hsame]
  · rw [hafter]
    exact hschedule self time callback h hkind htime
  · rw [hafter]
    exact harrive self paymentId paymentType work h
  · rw [hafter]
    exact hclock (fun htimed => hmoves (hallowed.2 htimed)) self clock h

theorem Wound.scheduled (h : self.Wound) {callback : QueueCallback ω ξ}
    (hkind : callback.isTick = false) (time : Int) :
    Wound { self with scheduler := self.scheduler.scheduled time callback } := by
  unfold Wound pendingTicks
  rw [EventScheduler.countP_scheduled, hkind]
  exact h

theorem Between.use (h : Between timed self) (hallowed : how.Allowed timed) :
    Between timed (after how.exec self) := by
  refine keeps_use (I := Between timed) ?_ ?_ ?_ hallowed h
  · intro self time callback h hkind htime
    refine ⟨h.tally.withScheduler _, h.wound.scheduled hkind time, h.awake, fun htimed => ?_⟩
    rcases h.paced htimed with ⟨last, hpaced⟩
    exact ⟨last, hpaced.scheduled hkind htime⟩
  · intro self paymentId paymentType work h
    have hwound : (self.arrived paymentId paymentType work).Wound := h.wound
    refine ⟨(h.tally.arrived _ _ _).awoken _, hwound.awoken, ?_, fun htimed => ?_⟩
    · simp [PaymentQueue.arrived]
    · rcases h.paced htimed with ⟨last, hpaced⟩
      exact ⟨last, (hpaced.arrived _ _ _).awoken⟩
  · intro hfree self clock h
    exact ⟨h.tally.withScheduler _, h.wound, h.awake, fun htimed => absurd htimed hfree⟩

theorem During.use {time : Int} {rounds : Nat} {working : List (QueuedPayment ω)}
    (h : During timed time rounds working self) (hallowed : how.Allowed timed) :
    During timed time rounds working (after how.exec self) := by
  refine keeps_use (I := During timed time rounds working) ?_ ?_ ?_ hallowed h
  · intro self time' callback h hkind htime
    refine ⟨h.tally.withScheduler _, h.wound.scheduled hkind time', h.rounds_le, h.rounds_lt,
      fun htimed => ?_⟩
    rcases h.paced htimed with ⟨hnow, hpaced⟩
    exact ⟨hnow, hpaced.scheduled hkind htime⟩
  · intro self paymentId paymentType work h
    have hle := h.rounds_le
    have hwound : (self.arrived paymentId paymentType work).Wound := h.wound
    -- There is one more payment, and it is not for the rounds of this tick.
    have hmore :
        rounds < ((self.arrived paymentId paymentType work).awoken .tick).waiting.length := by
      rw [awoken_waiting]
      simp only [PaymentQueue.arrived, List.length_append, List.length_singleton]
      omega
    refine ⟨(h.tally.arrived _ _ _).awoken _, hwound.awoken, hmore.le, fun _ => hmore,
      fun htimed => ?_⟩
    rcases h.paced htimed with ⟨hnow, hpaced⟩
    rw [awoken_clock]
    exact ⟨hnow, (hpaced.arrived _ _ _).awoken⟩
  · intro hfree self clock h
    exact ⟨h.tally.withScheduler _, h.wound, h.rounds_le, h.rounds_lt,
      fun htimed => absurd htimed hfree⟩

end Uses

/-! ### The tick -/

section Tick

variable (queue : Component σ (PaymentQueue ω (QueueCallback ω ξ))) (perform : ω → Action σ Unit)

/-- So many rounds of the loop come to works that return. -/
def WorksReturn : Nat → σ → Prop
  | 0, _ => True
  | rounds + 1, s => ∀ item begun, (queue.get s).taken = some (item, begun) →
      ¬ Raises (perform item.work) (queue.set begun s) ∧
        WorksReturn rounds (after (QueueWorker.processItem queue perform) s)

/-- If the step comes to the tick, then the clock has not passed it, and the
    works it comes to return. -/
def Step.Serves (s : σ) : Step ω ξ → Prop
  | .use _ => True
  | .runNext => ∀ event rest, (queue.get s).scheduler.queue = event :: rest →
      event.callback.isTick = true →
        (queue.get s).scheduler.clock.time ≤ event.time ∧
          ∀ clock : VirtualClock, clock.time = event.time →
            WorksReturn queue perform
              (min (queue.get s).worker.capacity (queue.get s).waiting.length)
              (queue.set ((queue.get s).ticking ((queue.get s).scheduler.ready clock rest)) s)

variable {queue perform}

variable {timed : Prop} {time : Int} {rounds : Nat} {s : σ}
variable (hperform : ∀ work, OnlyMakes queue Use.exec (Use.Allowed timed) (perform work))

/-- Taking a payment out of the queue uses up one of the rounds. -/
theorem During.take {self : PaymentQueue ω (QueueCallback ω ξ)}
    (h : During timed time (rounds + 1) [] self) :
    ∃ item begun, self.taken = some (item, begun) ∧ During timed time rounds [item] begun := by
  have hle := h.rounds_le
  rcases List.exists_cons_of_length_pos (l := self.waiting) (by omega) with
    ⟨item, waiting, hwaiting⟩
  rw [hwaiting, List.length_cons] at hle
  refine ⟨item, _, by unfold taken; rw [hwaiting], h.tally.start hwaiting, h.wound, ?_, ?_, ?_⟩
  · change rounds ≤ waiting.length
    omega
  · intro hawake
    have hlt := h.rounds_lt hawake
    rw [hwaiting, List.length_cons] at hlt
    change rounds < waiting.length
    omega
  · intro htimed
    rcases h.paced htimed with ⟨hnow, hpaced⟩
    exact ⟨hnow, hpaced.orderly, hpaced.last_le, hpaced.started, hpaced.later, hpaced.within,
      hpaced.spare⟩

/-- Completing it gives up no more than its own place. -/
theorem During.finish {self : PaymentQueue ω (QueueCallback ω ξ)} {item : QueuedPayment ω}
    (h : During timed time rounds [item] self) {now : Int} (hnow : timed → now = time) :
    During timed time rounds [] (self.finished item now) := by
  refine ⟨h.tally.finish now, h.wound, h.rounds_le, h.rounds_lt, fun htimed => ?_⟩
  rcases h.paced htimed with ⟨hclock, hpaced⟩
  rw [hnow htimed]
  exact ⟨hclock, hpaced.finish item _⟩

include hperform

/-- One round of the loop: the work of the next payment returns and it is
    completed, or its work raises and it is in neither place. -/
theorem processItem_during (h : During timed time (rounds + 1) [] (queue.get s)) :
    ∃ item begun, (queue.get s).taken = some (item, begun) ∧
      ((¬ Raises (perform item.work) (queue.set begun s) ∧
          ∃ t, (QueueWorker.processItem queue perform).run s = .ok () t ∧
            During timed time rounds [] (queue.get t)) ∨
        (Raises (perform item.work) (queue.set begun s) ∧
          ∃ e t, (QueueWorker.processItem queue perform).run s = .error e t ∧
            During timed time rounds [item] (queue.get t))) := by
  rcases h.take with ⟨item, begun, htaken, hbegun⟩
  refine ⟨item, begun, htaken, ?_⟩
  have hrun : (QueueWorker.processItem queue perform).run s = _ := processItem_taken htaken
  -- The work uses the queue, and what holds in the middle of a tick still does.
  have hworked : During timed time rounds [item]
      (queue.get (after (perform item.work) (queue.set begun s))) := by
    refine (hperform item.work).keeps (I := During timed time rounds [item])
      (fun self how hself hallowed => hself.use hallowed) ?_
    rw [queue.get_set]
    exact hbegun
  cases hwork : (perform item.work).run (queue.set begun s) with
  | ok value t =>
      rw [hwork] at hrun
      rw [after_of_ok hwork] at hworked
      refine Or.inl ⟨?_, _, hrun, ?_⟩
      · rintro ⟨e, u, herror⟩
        rw [hwork] at herror
        cases herror
      · rw [queue.get_set]
        exact hworked.finish fun htimed => (h.paced htimed).1
  | error e t =>
      rw [hwork] at hrun
      rw [after_of_error hwork] at hworked
      exact Or.inr ⟨⟨e, t, hwork⟩, e, t, hrun, hworked⟩

/-- So many rounds: all works return and no round is left, or one raises. -/
theorem processItems_during (rounds : Nat) :
    ∀ {s : σ}, During timed time rounds [] (queue.get s) →
      (WorksReturn queue perform rounds s ∧
          ∃ t, (QueueWorker.processItems queue perform rounds).run s = .ok () t ∧
            During timed time 0 [] (queue.get t)) ∨
        (¬ WorksReturn queue perform rounds s ∧
          ∃ e t left item, (QueueWorker.processItems queue perform rounds).run s = .error e t ∧
            During timed time left [item] (queue.get t)) := by
  induction rounds with
  | zero => exact fun {s} h => Or.inl ⟨trivial, s, rfl, h⟩
  | succ rounds ih =>
      intro s h
      rcases processItem_during hperform h with
        ⟨item, begun, htaken, ⟨hreturns, t, hfirst, ht⟩ | ⟨hraises, e, t, hfirst, ht⟩⟩
      · have hwhole : WorksReturn queue perform (rounds + 1) s ↔
            WorksReturn queue perform rounds t := by
          constructor
          · intro hall
            have hrest := (hall item begun htaken).2
            rwa [after_of_ok hfirst] at hrest
          · intro hrest other later hother
            cases htaken.symm.trans hother
            rw [after_of_ok hfirst]
            exact ⟨hreturns, hrest⟩
        rw [hwhole]
        rcases ih ht with ⟨hrest, u, hrun, hu⟩ | ⟨hrest, e, u, left, lost, hrun, hu⟩
        · exact Or.inl ⟨hrest, u, (run_bind_of_ok hfirst).trans hrun, hu⟩
        · exact Or.inr ⟨hrest, e, u, left, lost, (run_bind_of_ok hfirst).trans hrun, hu⟩
      · -- The loop ends with the exception of the work.
        refine Or.inr ⟨fun hall => (hall item begun htaken).1 hraises, e, t, rounds, item, ?_, ht⟩
        exact run_bind_of_error hfirst

omit hperform

/-- When no round is left, the worker is woken if something waits. -/
theorem During.wake {self : PaymentQueue ω (QueueCallback ω ξ)} (h : During timed time 0 [] self)
    (hwaits : self.waiting.isEmpty = false) : Between timed (self.awoken .tick) := by
  refine ⟨h.tally.awoken _, h.wound.awoken, ?_, fun htimed => ?_⟩
  · rw [awoken_tickScheduled, awoken_waiting, hwaits]
    rfl
  · exact ⟨time, (h.paced htimed).2.awoken⟩

theorem During.rest {self : PaymentQueue ω (QueueCallback ω ξ)} (h : During timed time 0 [] self)
    (hnone : self.waiting.isEmpty = true) : Between timed self := by
  refine ⟨h.tally, h.wound, ?_, fun htimed => ⟨time, (h.paced htimed).2⟩⟩
  rw [hnone]
  -- A pending tick would mean that something waits.
  by_contra hawake
  have hlt := h.rounds_lt (by simpa using hawake)
  rw [List.isEmpty_iff.mp hnone] at hlt
  exact absurd hlt (Nat.not_lt_zero _)

include hperform

/-- A tick on the world in which its event is gone: either its works return and
    the next tick is pending if something waits, or a payment is in neither
    place. -/
theorem processTick_during {begun : PaymentQueue ω (QueueCallback ω ξ)}
    (hbegun : begun = (queue.get s).ticking (queue.get s).scheduler)
    (h : During timed time (min begun.worker.capacity begun.waiting.length) [] begun) :
    (WorksReturn queue perform (min begun.worker.capacity begun.waiting.length)
          (queue.set begun s) ∧
        Between timed (queue.get (after (QueueWorker.processTick queue perform .tick) s))) ∨
      (¬ WorksReturn queue perform (min begun.worker.capacity begun.waiting.length)
          (queue.set begun s) ∧
        ∃ left item, During timed time left [item]
          (queue.get (after (QueueWorker.processTick queue perform .tick) s))) := by
  have hstart : (QueueWorker.processTick queue perform .tick).run s = _ :=
    processTick_start hbegun
  have hloops : During timed time (min begun.worker.capacity begun.waiting.length) []
      (queue.get (queue.set begun s)) := by
    rw [queue.get_set]
    exact h
  rcases processItems_during hperform _ hloops with
    ⟨hall, t, hloop, ht⟩ | ⟨hall, e, t, left, item, hloop, ht⟩
  · refine Or.inl ⟨hall, ?_⟩
    rw [run_bind_of_ok hloop, run_bind_get] at hstart
    cases hempty : (queue.get t).waiting.isEmpty with
    | true =>
        rw [if_neg (by simp [hempty])] at hstart
        rw [after_of_ok hstart]
        exact ht.rest hempty
    | false =>
        rw [if_pos (by simp [hempty])] at hstart
        rw [after_of_ok (hstart.trans (Component.zoom_run_ok (wake_run _ _))), queue.get_set]
        exact ht.wake hempty
  · -- The exception leaves the tick before it asks for the next one.
    rw [run_bind_of_error hloop] at hstart
    refine Or.inr ⟨hall, left, item, ?_⟩
    rw [after_of_error hstart]
    exact ht

end Tick

/-! ### Runs -/

/-- No accepted payment is lost, and what waits has a tick to come. -/
structure Safe (queue : PaymentQueue ω (QueueCallback ω ξ)) : Prop where
  kept : ∀ number < queue.nextOrder,
    ∃ item ∈ queue.completed ++ queue.waiting, item.arrivalOrder = number
  tick : queue.waiting ≠ [] → ∃ event ∈ queue.scheduler.queue, event.callback.isTick = true

theorem between_new (timed : Prop) (clock : VirtualClock) {capacity : Int}
    {self : PaymentQueue ω (QueueCallback ω ξ)}
    (hnew : PaymentQueue.new (EventScheduler.new clock) capacity = .ok self) :
    Between timed self := by
  rcases new_ok hnew with ⟨worker, hasleep, rfl⟩
  have hnone : ∀ earlier : List QueueEvent, ∀ event, ¬ earlier ++ [event] <+: [] := by
    intro earlier event hprefix
    simpa using List.prefix_nil.mp hprefix
  refine ⟨⟨rfl, rfl, ⟨fun earlier event h => absurd h (hnone earlier event), rfl⟩, ?_⟩, ?_,
    hasleep, fun _ => ⟨clock.time, EventScheduler.orderly_new clock, le_refl _, ?_, ?_,
      fun _ => Nat.zero_le _, Nat.zero_le _⟩⟩
  · exact fun item hmem => absurd hmem List.not_mem_nil
  · unfold Wound
    rw [hasleep]
    rfl
  · exact fun item hmem => absurd hmem List.not_mem_nil
  · exact fun event hmem => absurd hmem List.not_mem_nil

section Laws

variable {timed : Prop} {self : PaymentQueue ω (QueueCallback ω ξ)} {last time : Int}
  {spare left : Nat}

theorem Between.order (h : Between timed self) :
    (self.completed ++ self.waiting).map (·.arrivalOrder) = List.range self.nextOrder := by
  have horder := h.tally.order
  rwa [List.append_nil] at horder

theorem Between.tick (h : Between timed self) :
    self.pendingTicks = if self.waiting.isEmpty then 0 else 1 := by
  rw [h.wound, h.awake]
  cases self.waiting.isEmpty <;> rfl

theorem Between.fifo (h : Between True self) : Fifo self where
  order := h.order
  accepted := by
    have haccepted := h.tally.accepted
    rwa [List.append_nil] at haccepted
  tick := h.tick
  capacity time := by
    rcases h.paced trivial with ⟨last, hpaced⟩
    have hwithin := hpaced.within time
    -- Nothing that still waits has been started.
    have hnone : startedAt time self.waiting = 0 := by
      unfold startedAt
      rw [List.countP_eq_zero]
      intro item hmem
      rw [h.tally.unstarted item hmem]
      simp
    unfold startedAt at hwithin hnone ⊢
    rw [List.countP_append, hnone]
    exact hwithin
  depth := h.tally.depths.each

theorem Between.safe (h : Between timed self) : Safe self where
  kept number hnumber := by
    have hmem : number ∈ (self.completed ++ self.waiting).map (·.arrivalOrder) := by
      rw [h.order]
      exact List.mem_range.mpr hnumber
    rcases List.mem_map.mp hmem with ⟨item, hitem, horder⟩
    exact ⟨item, hitem, horder⟩
  tick hwaits := by
    have htick := h.tick
    rw [if_neg (by simpa using hwaits)] at htick
    have hpos : 0 < self.pendingTicks := by omega
    exact List.countP_pos_iff.mp hpos

/-- A payment that was taken out of the queue and not completed is in neither
    place, though its number was given out. -/
theorem During.not_safe {item : QueuedPayment ω} (h : During timed time left [item] self) :
    ¬ Safe self := by
  intro hsafe
  have horder := h.tally.order
  simp only [List.map_append, List.map_singleton] at horder
  have hmem : item.arrivalOrder ∈ List.range self.nextOrder := by
    rw [← horder]
    simp
  have hnodup := List.nodup_range (n := self.nextOrder)
  rw [← horder, List.nodup_append, List.nodup_append] at hnodup
  rcases hsafe.kept item.arrivalOrder (List.mem_range.mp hmem) with ⟨other, hother, hsame⟩
  rcases List.mem_append.mp hother with hdone | hwaits
  · exact hnodup.1.2.2 _ (List.mem_map_of_mem hdone) _ (List.mem_singleton_self _) hsame
  · exact hnodup.2.2 _ (List.mem_append_right _ (List.mem_singleton_self _)) _
      (List.mem_map_of_mem hwaits) hsame.symm

/-- Nobody looks at the history. -/
theorem Paced.withHistory (h : Paced last spare self) (history : List Execution) :
    Paced last spare { self with scheduler := self.scheduler.withHistory history } :=
  { h with orderly := h.orderly.withHistory history }

theorem Between.withHistory (h : Between timed self) (history : List Execution) :
    Between timed { self with scheduler := self.scheduler.withHistory history } := by
  refine ⟨h.tally.withScheduler _, h.wound, h.awake, fun htimed => ?_⟩
  rcases h.paced htimed with ⟨last, hpaced⟩
  exact ⟨last, hpaced.withHistory history⟩

theorem During.withHistory {working : List (QueuedPayment ω)}
    (h : During timed time left working self) (history : List Execution) :
    During timed time left working { self with scheduler := self.scheduler.withHistory history } :=
  { h with
    tally := h.tally.withScheduler _
    paced := fun htimed => ⟨(h.paced htimed).1, (h.paced htimed).2.withHistory history⟩ }

variable {event : Event (QueueCallback ω ξ)} {rest : List (Event (QueueCallback ω ξ))}
  {clock : VirtualClock}

/-- A tick that leaves the scheduler was the only one. -/
theorem Between.only_tick (h : Between timed self) (hqueue : self.scheduler.queue = event :: rest)
    (htick : event.callback.isTick = true) :
    rest.countP (fun event => event.callback.isTick) = 0 ∧ self.waiting.isEmpty = false := by
  have hcount := h.tick
  unfold pendingTicks at hcount
  rw [hqueue, List.countP_cons_of_pos (by simpa using htick)] at hcount
  cases hempty : self.waiting.isEmpty with
  | true =>
      rw [hempty, if_pos rfl] at hcount
      omega
  | false =>
      rw [hempty] at hcount
      exact ⟨Nat.succ.inj hcount, rfl⟩

/-- Another event leaves the scheduler, and the clock may move. -/
theorem Between.popped (h : Between timed self) (hqueue : self.scheduler.queue = event :: rest)
    (hother : event.callback.isTick = false) {scheduler : EventScheduler (QueueCallback ω ξ)}
    (hrest : scheduler.queue = rest)
    (htimes : timed → self.scheduler.clock.time ≤ scheduler.clock.time ∧ scheduler.Orderly) :
    Between timed { self with scheduler } := by
  refine ⟨h.tally.withScheduler _, ?_, h.awake, fun htimed => ?_⟩
  · have hwound := h.wound
    unfold Wound pendingTicks at hwound ⊢
    rw [hqueue, List.countP_cons_of_neg (by simpa using hother)] at hwound
    rw [hrest]
    exact hwound
  · rcases h.paced htimed with ⟨last, hpaced⟩
    rcases htimes htimed with ⟨hdue, horderly⟩
    refine ⟨last, horderly, hpaced.last_le.trans hdue, hpaced.started, fun later hmem => ?_,
      hpaced.within, hpaced.spare⟩
    rw [hrest] at hmem
    refine hpaced.later later ?_
    rw [hqueue]
    exact List.mem_cons_of_mem event hmem

/-- The tick leaves the scheduler, and with it the time moves past all earlier
    work. -/
theorem Between.ticking (h : Between timed self) (hqueue : self.scheduler.queue = event :: rest)
    (htick : event.callback.isTick = true) (hclock : clock.time = event.time) :
    During timed event.time (min self.worker.capacity self.waiting.length) []
      (self.ticking (self.scheduler.ready clock rest)) := by
  have hnone := (h.only_tick hqueue htick).1
  refine ⟨(h.tally.withScheduler _).withWorker _, hnone, min_le_right _ _,
    fun hawake => (nomatch hawake), fun htimed => ⟨hclock, ?_⟩⟩
  rcases h.paced htimed with ⟨last, hpaced⟩
  have hlater := hpaced.later event (by rw [hqueue]; exact List.mem_cons_self) htick
  have hfresh : startedAt event.time self.completed = 0 := by
    unfold startedAt
    rw [List.countP_eq_zero]
    intro item hmem hstarted
    have := hpaced.started item hmem event.time (by simpa using hstarted)
    omega
  refine ⟨hpaced.orderly.ready hqueue hclock, hclock.ge, ?_, ?_, hpaced.within, ?_⟩
  · intro item hmem time htime
    exact (hpaced.started item hmem time htime).trans hlater.le
  · intro later hmem hkind
    exact absurd hkind (by simpa using List.countP_eq_zero.mp hnone later hmem)
  · change startedAt event.time self.completed + _ ≤ self.worker.capacity
    rw [hfresh, List.length_nil]
    omega

/-- A tick that the clock has passed is dropped, and something waits without one. -/
theorem Between.late_not_safe (h : Between timed self)
    (hqueue : self.scheduler.queue = event :: rest) (htick : event.callback.isTick = true) :
    ¬ Safe { self with scheduler := { self.scheduler with queue := rest } } := by
  rcases h.only_tick hqueue htick with ⟨hnone, hwaits⟩
  intro hsafe
  rcases hsafe.tick (by simpa using hwaits) with ⟨later, hmem, hkind⟩
  exact absurd hkind (by simpa using List.countP_eq_zero.mp hnone later hmem)

end Laws

section Runs

variable {queue : Component σ (PaymentQueue ω (QueueCallback ω ξ))} {perform : ω → Action σ Unit}
  {other : ξ → Action σ Unit} {timed : Prop}
  (hperform : ∀ work, OnlyMakes queue Use.exec (Use.Allowed timed) (perform work))
  (hother : ∀ callback, OnlyMakes queue Use.exec (Use.Allowed timed) (other callback))

/-- The condition on a step that comes to a tick is about that tick. -/
theorem serves_tick_iff {s : σ} {event : Event (QueueCallback ω ξ)}
    {rest : List (Event (QueueCallback ω ξ))} {clock : VirtualClock}
    (hqueue : (queue.get s).scheduler.queue = event :: rest)
    (hdue : (queue.get s).scheduler.clock.time ≤ event.time) (hclock : clock.time = event.time)
    (htick : event.callback.isTick = true) :
    Step.Serves queue perform s .runNext ↔
      WorksReturn queue perform (min (queue.get s).worker.capacity (queue.get s).waiting.length)
        (queue.set ((queue.get s).ticking ((queue.get s).scheduler.ready clock rest)) s) := by
  constructor
  · exact fun hall => (hall event rest hqueue htick).2 clock hclock
  · intro hreturns event' rest' hqueue' _
    cases hqueue.symm.trans hqueue'
    refine ⟨hdue, fun clock' hclock' => ?_⟩
    have hsame : clock' = clock := by
      cases clock'
      cases clock
      simp_all
    rw [hsame]
    exact hreturns

/-- A step that comes to anything else serves. -/
theorem serves_of_not_tick {s : σ}
    (h : ∀ event rest, (queue.get s).scheduler.queue = event :: rest →
      event.callback.isTick = false) : Step.Serves queue perform s .runNext := by
  intro event rest hqueue htick
  rw [h event rest hqueue] at htick
  cases htick

/-- A callback other than the tick only makes uses. -/
theorem onlyMakes_call {allowed : Use ω ξ → Prop}
    (hother : ∀ callback, OnlyMakes queue Use.exec allowed (other callback))
    (henqueue : ∀ paymentId paymentType work, allowed (.enqueue paymentId paymentType work true))
    {callback : QueueCallback ω ξ} (hkind : callback.isTick = false) :
    OnlyMakes queue Use.exec allowed (QueueCallback.call queue perform other callback) := by
  cases callback with
  | tick => cases hkind
  | enqueue paymentId paymentType work =>
      intro s
      refine ⟨[.enqueue paymentId paymentType work true], fun how hmem => ?_, ?_⟩
      · rw [List.mem_singleton.mp hmem]
        exact henqueue paymentId paymentType work
      · rw [QueueCallback.call, after_discard, Component.after_zoom, queue.get_set]
        exact (after_discard _ _).symm
  | other callback => exact hother callback

/-- The worker forgets its tick once that has left the scheduler. -/
theorem ticking_set (scheduler : EventScheduler (QueueCallback ω ξ)) (s : σ) :
    (queue.get s).ticking scheduler
      = (queue.get ((queue.comp schedulerOf).set scheduler s)).ticking
        (queue.get ((queue.comp schedulerOf).set scheduler s)).scheduler := by
  rw [queue.get_comp_set]
  rfl

include hperform in
/-- A tick that is on time keeps the invariant if the works it comes to return. If
    one of them raises, its payment is lost. -/
theorem between_tick {s : σ} (h : Between timed (queue.get s))
    {event : Event (QueueCallback ω ξ)} {rest : List (Event (QueueCallback ω ξ))}
    {clock : VirtualClock} (hqueue : (queue.get s).scheduler.queue = event :: rest)
    (hdue : (queue.get s).scheduler.clock.time ≤ event.time) (hclock : clock.time = event.time)
    (htick : event.callback.isTick = true) {ready : σ}
    (hready : ready = (queue.comp schedulerOf).set ((queue.get s).scheduler.ready clock rest) s) :
    (Step.Serves queue perform s .runNext ∧ Between timed
        (queue.get (after (QueueCallback.call queue perform other event.callback) ready))) ∨
      (¬ Step.Serves queue perform s .runNext ∧ ∃ left item, During timed event.time left [item]
        (queue.get (after (QueueCallback.call queue perform other event.callback) ready))) := by
  subst hready
  have hrun := processTick_during hperform
    (ticking_set ((queue.get s).scheduler.ready clock rest) s) (h.ticking hqueue htick hclock)
  change (WorksReturn queue perform _ (queue.set _ (queue.set _ s)) ∧ _) ∨
    (¬ WorksReturn queue perform _ (queue.set _ (queue.set _ s)) ∧ _) at hrun
  rw [queue.set_set] at hrun
  rw [serves_tick_iff hqueue hdue hclock htick, QueueCallback.eq_tick htick]
  exact hrun

include hperform hother in
/-- Between two events, a step that serves keeps the invariant. After any other
    step a payment is lost, or something waits without a tick to come. -/
theorem between_step {s : σ} (h : Between timed (queue.get s)) {step : Step ω ξ}
    (hstep : step.Uses (Use.Allowed timed)) :
    (Step.Serves queue perform s step →
        Between timed (queue.get (after (step.exec queue perform other) s))) ∧
      (¬ Step.Serves queue perform s step →
        ¬ Safe (queue.get (after (step.exec queue perform other) s))) := by
  cases step with
  | use how =>
      refine ⟨fun _ => ?_, fun hfails => absurd trivial hfails⟩
      rw [Step.exec, Component.after_zoom, queue.get_set]
      exact h.use hstep
  | runNext =>
      rw [Step.exec, after_discard]
      rcases EventScheduler.after_runNext (queue.comp schedulerOf)
        (QueueCallback.call queue perform other) s with
        ⟨hnil, hafter⟩ | ⟨event, rest, hqueue, hlate, hafter⟩ |
          ⟨event, rest, clock, history, hqueue, hdue, hclock, hafter⟩
      · -- There was nothing to run.
        change (queue.get s).scheduler.queue = [] at hnil
        rw [hafter]
        refine ⟨fun _ => h, fun hfails => absurd (serves_of_not_tick fun event rest hqueue => ?_)
          hfails⟩
        rw [hnil] at hqueue
        cases hqueue
      · change (queue.get s).scheduler.queue = event :: rest at hqueue
        change event.time < (queue.get s).scheduler.clock.time at hlate
        rw [hafter, queue.get_comp_set]
        cases hkind : event.callback.isTick with
        | true =>
            -- The tick was late, and it is dropped.
            refine ⟨fun hserves => ?_, fun _ => h.late_not_safe hqueue hkind⟩
            exact absurd (hserves event rest hqueue hkind).1 (not_le.mpr hlate)
        | false =>
            refine ⟨fun _ => h.popped hqueue hkind rfl fun htimed => ?_,
              fun hfails => absurd (serves_of_not_tick fun event' rest' hqueue' => ?_) hfails⟩
            · -- With time in the scheduler's hands no event is late.
              rcases h.paced htimed with ⟨last, hpaced⟩
              have hdue := hpaced.orderly.le_queued event (by rw [hqueue]; exact List.mem_cons_self)
              exact absurd hlate (not_lt.mpr hdue)
            · cases hqueue.symm.trans hqueue'
              exact hkind
      · change (queue.get s).scheduler.queue = event :: rest at hqueue
        change (queue.get s).scheduler.clock.time ≤ event.time at hdue
        rw [hafter, queue.get_comp_set]
        cases hkind : event.callback.isTick with
        | true =>
            rcases between_tick hperform h hqueue hdue hclock hkind rfl with
              ⟨hserves, hbetween⟩ | ⟨hfails, left, item, hlost⟩
            · exact ⟨fun _ => hbetween.withHistory history, fun hnot => absurd hserves hnot⟩
            · exact ⟨fun hserves => absurd hserves hfails,
                fun _ => (hlost.withHistory history).not_safe⟩
        | false =>
            -- Any other event leaves the tick alone.
            have hready : Between timed (queue.get ((queue.comp schedulerOf).set
                (((queue.comp schedulerOf).get s).ready clock rest) s)) := by
              rw [queue.get_comp_set]
              refine h.popped hqueue hkind rfl fun htimed => ⟨hdue.trans hclock.ge, ?_⟩
              rcases h.paced htimed with ⟨last, hpaced⟩
              exact hpaced.orderly.ready hqueue hclock
            have hcall : OnlyMakes queue Use.exec (Use.Allowed timed)
                (QueueCallback.call queue perform other event.callback) :=
              onlyMakes_call hother (fun _ _ _ => ⟨trivial, fun _ => trivial⟩) hkind
            refine ⟨fun _ => Between.withHistory ?_ history,
              fun hfails => absurd (serves_of_not_tick fun event' rest' hqueue' => ?_) hfails⟩
            · exact hcall.keeps (I := Between timed) (fun self how hself hhow => hself.use hhow)
                hready
            · cases hqueue.symm.trans hqueue'
              exact hkind

end Runs

/-- The law of a payment queue whose works never raise, while nobody but the
    scheduler moves the clock, between any two events of any run. -/
theorem payment_queue_fifo (queue : Component σ (PaymentQueue ω (QueueCallback ω ξ)))
    (perform : ω → Action σ Unit) (other : ξ → Action σ Unit)
    (hperform : ∀ work, OnlyMakes queue Use.exec (fun how => how.Fair ∧ how.KeepsTime)
      (perform work))
    (hother : ∀ callback, OnlyMakes queue Use.exec (fun how => how.Fair ∧ how.KeepsTime)
      (other callback))
    (hreturns : ∀ work s, ¬ Raises (perform work) s) (clock : VirtualClock) (capacity : Int)
    (self : PaymentQueue ω (QueueCallback ω ξ))
    (hnew : PaymentQueue.new (EventScheduler.new clock) capacity = .ok self) (s : σ)
    (steps : List (Step ω ξ))
    (hsteps : ∀ step ∈ steps, step.Uses fun how => how.Fair ∧ how.KeepsTime) :
    AllStates (Step.exec queue perform other) (fun t => Fifo (queue.get t)) (queue.set self s)
      steps := by
  have hallowed : ∀ how : Use ω ξ, how.Fair ∧ how.KeepsTime → how.Allowed True :=
    fun how hhow => ⟨hhow.1, fun _ => hhow.2⟩
  have hworks : ∀ rounds t, WorksReturn queue perform rounds t := by
    intro rounds
    induction rounds with
    | zero => exact fun t => trivial
    | succ rounds ih => exact fun t item begun _ => ⟨hreturns item.work _, ih _⟩
  have hstart : Between True (queue.get (queue.set self s)) := by
    rw [queue.get_set]
    exact between_new True clock hnew
  refine allStates_mono (fun t ht => Between.fifo ht) ?_
  refine allStates_of_allSteps (I := fun t => Between True (queue.get t))
    (C := fun _ step => step.Uses fun how => how.Fair ∧ how.KeepsTime) (fun t step ht hstep => ?_)
    hstart (allSteps_of_forall fun _ => hsteps)
  have huses : step.Uses (Use.Allowed True) := by
    cases step with
    | use how => exact hallowed how hstep
    | runNext => trivial
  refine (between_step (fun work => (hperform work).mono hallowed)
    (fun callback => (hother callback).mono hallowed) ht huses).1 ?_
  cases step with
  | use how => trivial
  | runNext =>
      intro event rest hqueue _
      rcases ht.paced trivial with ⟨last, hpaced⟩
      refine ⟨hpaced.orderly.le_queued event ?_, fun _ _ => hworks _ _⟩
      rw [hqueue]
      exact List.mem_cons_self

/-- A fresh queue that serves one payment a minute. -/
def oneAMinute (ω ξ : Type) : PaymentQueue ω (QueueCallback ω ξ) :=
  ⟨EventScheduler.new, [], [], [], 0, 0, ⟨1, false, count_pos passes⟩⟩

/-- Work that enqueues another payment, so many times over. -/
def relayWork : Nat → Action (PaymentQueue Nat (QueueCallback Nat Empty)) Unit
  | 0 => return
  | more + 1 => do
      let _ ← enqueue .tick "PAY-NEXT" .achTransfer more

theorem relayWork_run (work : Nat) (self : PaymentQueue Nat (QueueCallback Nat Empty)) :
    (∃ uses : List (Use Nat Empty), (∀ how ∈ uses, how.Fair ∧ how.KeepsTime) ∧
      after (relayWork work) self = finalState Use.exec self uses) ∧
      ¬ Raises (relayWork work) self := by
  cases work with
  | zero => exact ⟨⟨[], fun how hmem => absurd hmem List.not_mem_nil, rfl⟩, not_raises_pure () self⟩
  | succ more =>
      have hid : isBlank "PAY-NEXT" = false := by decide
      have hrun := enqueue_of_nonblank QueueCallback.tick hid .achTransfer more self
      refine ⟨⟨[.enqueue "PAY-NEXT" .achTransfer more true], ?_, rfl⟩, ?_⟩
      · intro how hmem
        rw [List.mem_singleton.mp hmem]
        exact ⟨trivial, trivial⟩
      · rintro ⟨e, t, herror⟩
        rw [relayWork, run_bind_of_ok hrun] at herror
        cases herror

theorem payment_queue_fifo_relay :
    AllStates (Step.exec Component.whole relayWork Empty.elim) (fun t => Fifo t)
      (oneAMinute Nat Empty)
      [.use (.enqueue "PAY-1" .achTransfer 2 true), .use (.enqueue "PAY-2" .achReturn 0 true),
        .runNext, .use (.enqueue " " .achReturn 0 true), .runNext, .runNext, .runNext] :=
  payment_queue_fifo Component.whole relayWork Empty.elim
    (fun work self => (relayWork_run work self).1) (fun callback => callback.elim)
    (fun work self => (relayWork_run work self).2) ⟨0, by decide⟩ 1 (oneAMinute Nat Empty) rfl
    (oneAMinute Nat Empty) _ (by simp [Step.Uses, Use.Fair, Use.KeepsTime])

/-- In a run in which works may raise, with the exceptions caught and the
    scheduler run again, no payment is lost and what waits has a tick to come,
    exactly when every tick that a step comes to is on time and its works
    return. -/
theorem queue_safe_iff (queue : Component σ (PaymentQueue ω (QueueCallback ω ξ)))
    (perform : ω → Action σ Unit) (other : ξ → Action σ Unit)
    (hperform : ∀ work, OnlyMakes queue Use.exec Use.Fair (perform work))
    (hother : ∀ callback, OnlyMakes queue Use.exec Use.Fair (other callback))
    (clock : VirtualClock) (capacity : Int) (self : PaymentQueue ω (QueueCallback ω ξ))
    (hnew : PaymentQueue.new (EventScheduler.new clock) capacity = .ok self) (s : σ)
    (steps : List (Step ω ξ)) (hsteps : ∀ step ∈ steps, step.Uses Use.Fair) :
    AllStates (Step.exec queue perform other) (fun t => Safe (queue.get t)) (queue.set self s)
        steps ↔
      AllSteps (Step.exec queue perform other) (fun t step => step.Serves queue perform t)
        (queue.set self s) steps := by
  have hallowed : ∀ how : Use ω ξ, how.Fair → how.Allowed False :=
    fun how hhow => ⟨hhow, fun htimed => htimed.elim⟩
  have hcases : ∀ t step, Between False (queue.get t) → Step.Uses Use.Fair step →
      (Step.Serves queue perform t step →
          Between False (queue.get (after (step.exec queue perform other) t))) ∧
        (¬ Step.Serves queue perform t step →
          ¬ Safe (queue.get (after (step.exec queue perform other) t))) := by
    intro t step ht hstep
    refine between_step (fun work => (hperform work).mono hallowed)
      (fun callback => (hother callback).mono hallowed) ht ?_
    cases step with
    | use how => exact hallowed how hstep
    | runNext => trivial
  have hstart : Between False (queue.get (queue.set self s)) := by
    rw [queue.get_set]
    exact between_new False clock hnew
  rw [allStates_iff_after]
  refine (and_iff_right hstart.safe).trans ?_
  refine allSteps_congr_of (I := fun t => Between False (queue.get t)) (D := Step.Uses Use.Fair)
    (fun t step ht hstep => (hcases t step ht hstep).1) ?_ hstart hsteps
  -- Until a step fails to serve the invariant holds, and then the failure shows.
  intro t step ht hstep
  constructor
  · exact fun hsafe => by_contra fun hfails => (hcases t step ht hstep).2 hfails hsafe
  · exact fun hserves => ((hcases t step ht hstep).1 hserves).safe

/-- Work that raises, or does nothing. -/
def faultyWork : Bool → Action (PaymentQueue Bool (QueueCallback Bool Empty)) Unit
  | true => throw ⟨.runtimeError, "processor unavailable"⟩
  | false => return

/-- One payment whose work raises, and one that waits behind it. -/
def faultyRun : List (Step Bool Empty) :=
  [.use (.enqueue "PAY-1" .achTransfer true true), .use (.enqueue "PAY-2" .achTransfer false true),
    .runNext]

theorem queue_safe_iff_faulty :
    AllStates (Step.exec Component.whole faultyWork Empty.elim) (fun t => Safe t)
        (oneAMinute Bool Empty) faultyRun ↔
      AllSteps (Step.exec Component.whole faultyWork Empty.elim)
        (fun t step => step.Serves Component.whole faultyWork t) (oneAMinute Bool Empty)
        faultyRun :=
  queue_safe_iff Component.whole faultyWork Empty.elim
    (fun work _ => ⟨[], fun how hmem => absurd hmem List.not_mem_nil, by cases work <;> rfl⟩)
    (fun callback => callback.elim) ⟨0, by decide⟩ 1 (oneAMinute Bool Empty) rfl
    (oneAMinute Bool Empty) faultyRun (by simp [faultyRun, Step.Uses, Use.Fair])

/-- The first payment is gone, and the second waits with no tick to come. -/
theorem faultyWork_loses_payment :
    ¬ AllStates (Step.exec Component.whole faultyWork Empty.elim) (fun t => Safe t)
      (oneAMinute Bool Empty) faultyRun := by
  intro hall
  have hkept := (allStates_finalState hall).kept 0
  revert hkept
  decide

end PaymentQueue

end BankSim
