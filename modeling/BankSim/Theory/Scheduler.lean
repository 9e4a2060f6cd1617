import BankSim.Core.Scheduler

/-!
# What One Scheduler Step Does

Scheduling either puts one event on the queue or, for a time that is past,
refuses and changes nothing.

`runNext` prepares the world for a callback and then hands over: the event
leaves the queue and the clock moves to the event's time. `ready` is the
scheduler in that state, and `runNext_nil`, `runNext_late` and `runNext_due`
split a step into its outcomes. An empty queue returns false, an event the
clock has already passed is dropped with an error, and otherwise the callback
runs on the ready world and either raises or is recorded.

Most of a world does not depend on its scheduler. `runNext_related` is the
rule for what does not: if a relation ignores the scheduler and the callback
at hand moves along it, then so does the whole step.

## Main definitions

* `EventScheduler.ready`: The scheduler a callback finds.
* `EventScheduler.scheduled`: The scheduler with one more event.
* `EventScheduler.offered`: The scheduler after a time that may be past.

## Theorems

* `scheduleAt_of_le`, `scheduleAt_of_lt`: The outcomes of scheduling.
* `runNext_nil`, `runNext_late`, `runNext_due`: The outcomes of a step.
* `after_runNext`: What a step leaves behind, however it ends.
* `runNext_related`: A step moves along what its callback moves along.
-/

namespace BankSim

open Exec

namespace EventScheduler

variable {κ σ : Type}

/-- The scheduler a callback finds: its event has left the queue and the
    clock shows its time. -/
def ready (self : EventScheduler κ) (clock : VirtualClock) (queue : List (Event κ)) :
    EventScheduler κ :=
  { self with clock, queue }

/-- The scheduler after a callback returned. -/
def executed (self : EventScheduler κ) (event : Event κ) : EventScheduler κ :=
  { self with history := self.history ++ [⟨event.time, event.order⟩] }

def withHistory (self : EventScheduler κ) (history : List Execution) : EventScheduler κ :=
  { self with history }

theorem advanceTo_of_lt {clock : VirtualClock} {newTime : Int} (h : newTime < clock.time) :
    ∃ e : Raised, e.kind = .valueError ∧
      (VirtualClock.advanceTo newTime).run clock = .error e clock := by
  unfold VirtualClock.advanceTo
  rw [run_bind_get]
  by_cases hneg : newTime < 0
  · rw [dif_pos hneg]
    exact ⟨_, rfl, rfl⟩
  · rw [dif_neg hneg, if_pos h]
    exact ⟨_, rfl, rfl⟩

theorem advanceTo_of_le {clock : VirtualClock} {newTime : Int} (h : clock.time ≤ newTime) :
    ∃ clock' : VirtualClock, clock'.time = newTime ∧
      (VirtualClock.advanceTo newTime).run clock = .ok newTime clock' := by
  have hnonneg := clock.time_nonneg
  unfold VirtualClock.advanceTo
  rw [run_bind_get, dif_neg (by omega), if_neg (by omega)]
  exact ⟨⟨newTime, by omega⟩, rfl, rfl⟩

/-- Moving the clock, refused or not, never takes it back. -/
theorem le_advanceTo (newTime : Int) (clock : VirtualClock) :
    clock.time ≤ (after (VirtualClock.advanceTo newTime) clock).time := by
  by_cases h : clock.time ≤ newTime
  · rcases advanceTo_of_le h with ⟨clock', htime, hrun⟩
    rw [after_of_ok hrun, htime]
    exact h
  · rcases advanceTo_of_lt (not_le.mp h) with ⟨e, -, he⟩
    rw [after_of_error he]

theorem le_advanceBy (amount : Int) (clock : VirtualClock) :
    clock.time ≤ (after (VirtualClock.advanceBy amount) clock).time := by
  unfold VirtualClock.advanceBy
  by_cases h : amount < 0
  · rw [if_pos h]
    exact le_refl clock.time
  · rw [if_neg h]
    exact le_advanceTo (clock.time + amount) clock

/-- The scheduler with one more event on its queue. -/
def scheduled (self : EventScheduler κ) (time : Int) (callback : κ) : EventScheduler κ :=
  { self with
    queue := self.queue.orderedInsert Event.le ⟨time, self.nextOrder, callback⟩
    nextOrder := self.nextOrder + 1 }

theorem scheduleAt_of_le {self : EventScheduler κ} {time : Int} (callback : κ)
    (h : self.clock.time ≤ time) :
    (scheduleAt time callback).run self = .ok () (self.scheduled time callback) := by
  have hnonneg := self.clock.time_nonneg
  unfold scheduleAt
  rw [run_bind_get, if_neg (by omega), if_neg (by omega)]
  rfl

/-- The past is refused, and the queue stays as it was. -/
theorem scheduleAt_of_lt {self : EventScheduler κ} {time : Int} (callback : κ)
    (h : time < self.clock.time) :
    ∃ e : Raised, e.kind = .valueError ∧ (scheduleAt time callback).run self = .error e self := by
  unfold scheduleAt
  rw [run_bind_get]
  by_cases hneg : time < 0
  · rw [if_pos hneg]
    exact ⟨_, rfl, rfl⟩
  · rw [if_neg hneg, if_pos h]
    exact ⟨_, rfl, rfl⟩

/-- The scheduler after an event was offered to it: it takes the event unless
    its time is past. -/
def offered (self : EventScheduler κ) (time : Int) (callback : κ) : EventScheduler κ :=
  if self.clock.time ≤ time then self.scheduled time callback else self

theorem after_scheduleAt (time : Int) (callback : κ) (self : EventScheduler κ) :
    after (scheduleAt time callback) self = self.offered time callback := by
  by_cases h : self.clock.time ≤ time
  · rw [after_of_ok (scheduleAt_of_le callback h), offered, if_pos h]
  · rcases scheduleAt_of_lt callback (not_le.mp h) with ⟨e, -, he⟩
    rw [after_of_error he, offered, if_neg h]

@[simp] theorem offered_clock (self : EventScheduler κ) (time : Int) (callback : κ) :
    (self.offered time callback).clock = self.clock := by
  unfold offered
  split_ifs <;> rfl

theorem mem_scheduled_iff (self : EventScheduler κ) (time : Int) (callback : κ)
    (event : Event κ) : event ∈ (self.scheduled time callback).queue ↔
      event = ⟨time, self.nextOrder, callback⟩ ∨ event ∈ self.queue :=
  List.mem_orderedInsert Event.le

/-- What is queued afterwards is the offered event or was queued before. -/
theorem mem_offered {self : EventScheduler κ} {time : Int} {callback : κ} {event : Event κ}
    (h : event ∈ (self.offered time callback).queue) :
    event = ⟨time, self.nextOrder, callback⟩ ∨ event ∈ self.queue := by
  unfold offered at h
  split_ifs at h
  · exact (mem_scheduled_iff self time callback event).mp h
  · exact Or.inr h

/-- A delay is a time that is not past, unless it is refused as negative. -/
theorem scheduleAfter_of_nonneg {self : EventScheduler κ} {delay : Int} (callback : κ)
    (h : 0 ≤ delay) :
    (scheduleAfter delay callback).run self
      = .ok () (self.scheduled (self.clock.time + delay) callback) := by
  unfold scheduleAfter
  rw [if_neg (by omega)]
  exact scheduleAt_of_le callback (by omega)

theorem scheduleAfter_of_neg {self : EventScheduler κ} {delay : Int} (callback : κ)
    (h : delay < 0) :
    ∃ e, (scheduleAfter delay callback).run self = .error e self := by
  unfold scheduleAfter
  rw [if_pos h]
  exact ⟨_, rfl⟩

variable (scheduler : Component σ (EventScheduler κ)) (call : κ → Action σ Unit)

theorem runNext_nil {s : σ} (hqueue : (scheduler.get s).queue = []) :
    (runNext scheduler call).run s = .ok false s := by
  have hpop : (scheduler.zoom heappop).run s = .ok none s := by
    rw [Component.zoom_run, heappop, run_bind_get, hqueue]
    exact congrArg _ (scheduler.set_get s)
  rw [runNext, run_bind_of_ok hpop]
  rfl

theorem heappop_cons {s : σ} {event : Event κ} {queue : List (Event κ)}
    (hqueue : (scheduler.get s).queue = event :: queue) :
    (scheduler.zoom heappop).run s
      = .ok (some event) (scheduler.set { scheduler.get s with queue } s) := by
  rw [Component.zoom_run, heappop, run_bind_get, hqueue]
  rfl

/-- An event that the clock has passed is dropped. -/
theorem runNext_late {s : σ} {event : Event κ} {queue : List (Event κ)}
    (hqueue : (scheduler.get s).queue = event :: queue)
    (hlate : event.time < (scheduler.get s).clock.time) :
    ∃ e : Raised, e.kind = .valueError ∧ (runNext scheduler call).run s
      = .error e (scheduler.set { scheduler.get s with queue } s) := by
  rcases advanceTo_of_lt hlate with ⟨e, hkind, he⟩
  refine ⟨e, hkind, ?_⟩
  rw [runNext, run_bind_of_ok (heappop_cons scheduler hqueue)]
  refine run_bind_of_error ?_
  rw [Component.zoom_run]
  simp only [Component.comp, clockOf, scheduler.get_set, he, scheduler.set_set]

/-- What a step does with an event that is due: the callback runs on the
    ready world, and a callback that returns is recorded. -/
theorem runNext_due {s : σ} {event : Event κ} {queue : List (Event κ)}
    (hqueue : (scheduler.get s).queue = event :: queue)
    (hdue : (scheduler.get s).clock.time ≤ event.time) :
    ∃ clock : VirtualClock, clock.time = event.time ∧
      (runNext scheduler call).run s =
        match (call event.callback).run
            (scheduler.set ((scheduler.get s).ready clock queue) s) with
        | .ok _ t => .ok true (scheduler.set ((scheduler.get t).executed event) t)
        | .error e t => .error e t := by
  rcases advanceTo_of_le hdue with ⟨clock, hclock, hadvance⟩
  refine ⟨clock, hclock, ?_⟩
  -- Popping the event and moving the clock leave the ready world.
  have hmove : ((scheduler.comp clockOf).zoom (VirtualClock.advanceTo event.time)).run
      (scheduler.set { scheduler.get s with queue } s)
        = .ok event.time (scheduler.set ((scheduler.get s).ready clock queue) s) := by
    rw [Component.zoom_run]
    simp only [Component.comp, clockOf, scheduler.get_set, hadvance, scheduler.set_set, ready]
  rw [runNext, run_bind_of_ok (heappop_cons scheduler hqueue)]
  simp only [run_bind_of_ok hmove]
  rw [EStateM.run_bind]
  cases (call event.callback).run (scheduler.set ((scheduler.get s).ready clock queue) s) with
  | ok _ t => rfl
  | error e t => rfl

/-- Apart from the clock's own complaint, a step raises what the callback
    raises in the world that is ready for it. -/
theorem outcome_runNext_error_iff {s : σ} {e : Raised} (he : e.kind ≠ .valueError) :
    outcome (runNext scheduler call) s = .error e ↔
      ∃ (event : Event κ) (queue : List (Event κ)) (clock : VirtualClock),
        (scheduler.get s).queue = event :: queue ∧
        (scheduler.get s).clock.time ≤ event.time ∧ clock.time = event.time ∧
        outcome (call event.callback) (scheduler.set ((scheduler.get s).ready clock queue) s)
          = .error e := by
  cases hqueue : (scheduler.get s).queue with
  | nil =>
      rw [outcome_of_ok (runNext_nil scheduler call hqueue)]
      refine iff_of_false (fun h => nomatch h) ?_
      rintro ⟨event, queue, clock, hcons, -⟩
      cases hcons
  | cons event queue =>
      by_cases hdue : (scheduler.get s).clock.time ≤ event.time
      · rcases runNext_due scheduler call hqueue hdue with ⟨clock, hclock, hrun⟩
        have hsame : outcome (runNext scheduler call) s = .error e ↔
            outcome (call event.callback) (scheduler.set ((scheduler.get s).ready clock queue) s)
              = .error e := by
          unfold outcome
          rw [hrun]
          cases (call event.callback).run
              (scheduler.set ((scheduler.get s).ready clock queue) s) <;> simp
        rw [hsame]
        constructor
        · exact fun hout => ⟨event, queue, clock, rfl, hdue, hclock, hout⟩
        · -- A clock is its time, so it is the same world.
          rintro ⟨event', queue', clock', hcons, -, hclock', hout⟩
          cases hcons
          have heq : clock' = clock := by
            cases clock
            cases clock'
            cases hclock
            cases hclock'
            rfl
          rwa [← heq]
      · rcases runNext_late scheduler call hqueue (not_le.mp hdue) with ⟨e', hkind, hrun⟩
        rw [outcome_of_error hrun]
        refine iff_of_false (fun h => ?_) ?_
        · cases h
          exact he hkind
        · rintro ⟨event', queue', clock, hcons, hdue', -⟩
          cases hcons
          exact hdue hdue'

/-- What a step leaves behind: nothing new when the queue is empty, the world
    without the event when it is late, and otherwise what the callback left,
    with the event recorded if it returned. -/
theorem after_runNext (s : σ) :
    ((scheduler.get s).queue = [] ∧ after (runNext scheduler call) s = s) ∨
      (∃ event queue, (scheduler.get s).queue = event :: queue ∧
        event.time < (scheduler.get s).clock.time ∧
        after (runNext scheduler call) s = scheduler.set { scheduler.get s with queue } s) ∨
      ∃ (event : Event κ) (queue : List (Event κ)) (clock : VirtualClock)
          (history : List Execution),
        (scheduler.get s).queue = event :: queue ∧
        (scheduler.get s).clock.time ≤ event.time ∧ clock.time = event.time ∧
        after (runNext scheduler call) s =
          scheduler.set
            ((scheduler.get (after (call event.callback)
              (scheduler.set ((scheduler.get s).ready clock queue) s))).withHistory history)
            (after (call event.callback)
              (scheduler.set ((scheduler.get s).ready clock queue) s)) := by
  cases hqueue : (scheduler.get s).queue with
  | nil => exact Or.inl ⟨rfl, after_of_ok (runNext_nil scheduler call hqueue)⟩
  | cons event queue =>
      by_cases hdue : (scheduler.get s).clock.time ≤ event.time
      · rcases runNext_due scheduler call hqueue hdue with ⟨clock, hclock, hrun⟩
        refine Or.inr (Or.inr ?_)
        cases hcb : (call event.callback).run
            (scheduler.set ((scheduler.get s).ready clock queue) s) with
        | ok _ t =>
            simp only [hcb] at hrun
            refine ⟨event, queue, clock, ((scheduler.get t).executed event).history, rfl, hdue,
              hclock, ?_⟩
            rw [after_of_ok hcb]
            exact after_of_ok hrun
        | error e t =>
            -- The event is not recorded, so the history is what it was.
            simp only [hcb] at hrun
            refine ⟨event, queue, clock, (scheduler.get t).history, rfl, hdue, hclock, ?_⟩
            rw [after_of_error hcb]
            exact (after_of_error hrun).trans (scheduler.set_get t).symm
      · rcases runNext_late scheduler call hqueue (not_le.mp hdue) with ⟨e, -, hrun⟩
        exact Or.inr (Or.inl ⟨event, queue, rfl, not_le.mp hdue, after_of_error hrun⟩)

/-- A step moves along a relation that ignores the scheduler, if the callback
    it runs does. -/
theorem runNext_related {R : σ → σ → Prop} [Std.Refl R] [IsTrans σ R]
    (hset : ∀ q s, R s (scheduler.set q s)) {s : σ}
    (hcall : ∀ event queue clock, (scheduler.get s).queue = event :: queue →
      (scheduler.get s).clock.time ≤ event.time → clock.time = event.time →
        R (scheduler.set ((scheduler.get s).ready clock queue) s)
          (after (call event.callback)
            (scheduler.set ((scheduler.get s).ready clock queue) s))) :
    R s (after (runNext scheduler call) s) := by
  rcases after_runNext scheduler call s with
    ⟨-, hafter⟩ | ⟨event, queue, -, -, hafter⟩ |
      ⟨event, queue, clock, history, hqueue, hdue, hclock, hafter⟩ <;> rw [hafter]
  · exact Std.Refl.refl s
  · exact hset _ s
  · -- Popping the event and recording it touch only the scheduler.
    exact IsTrans.trans _ _ _ (hset _ s)
      (IsTrans.trans _ _ _ (hcall event queue clock hqueue hdue hclock) (hset _ _))

end EventScheduler

end BankSim
