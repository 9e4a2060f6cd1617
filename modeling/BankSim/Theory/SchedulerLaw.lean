import BankSim.Theory.Scheduler
import BankSim.Library.Timeline

/-!
# What Becomes of a Scheduled Event

Events are created while others run, so no single queue shows all of them. A
run of the scheduler is therefore watched from outside: `Observed` is a world
together with the events that were scheduled on its scheduler so far and the
events whose callbacks were invoked. Which events a step schedules is read off
the queue it leaves, and which callback it invokes is found by handing
`runNext` callbacks that only write down what event they belong to.

A callback is any program on the world. What is assumed of it is what it does
to the scheduler: `OnlyUses` says that it schedules events or moves the clock,
in any number and order, and leaves the scheduler alone otherwise.

Two things can be said. While nobody but the scheduler moves the clock, what
was invoked and what is queued form one timeline, each event strictly before
the next, with the clock between the two parts. Once the clock is moved by
others this fails, because `runNext` takes the event out of the queue before it
asks the clock to advance: an event the clock has passed is gone without having
run. That is the only way to lose one.

## Main definitions

* `EventScheduler.Use`: What can be done with a scheduler between its steps.
* `EventScheduler.OnlyUses`: A program that uses the scheduler and no more.
* `EventScheduler.Observed`: A world and what its scheduler has done so far.
* `EventScheduler.Accounted`: No event is lost and none is invoked twice.
* `EventScheduler.OnTime`: The clock has not passed the next event.
* `EventScheduler.Lawful`: The ordering law.
* `EventScheduler.Timely`: Past and queued events form one timeline.

## Theorems

* `grows_of_onlyUses`: What a program that uses the scheduler does to it.
* `accounted_iff_onTime`: Exactly the late steps lose an event.
* `scheduler_law`: The order of execution.
-/

namespace BankSim

open Exec
open scoped List

namespace EventScheduler

variable {κ σ : Type}

/-- What can be done with a scheduler besides running its events. -/
inductive Use (κ : Type)
  | scheduleAt (time : Int) (callback : κ)
  | scheduleAfter (delay : Int) (callback : κ)
  | advanceTo (newTime : Int)
  | advanceBy (amount : Int)

def Use.exec : Use κ → Action (EventScheduler κ) Unit
  | .scheduleAt time callback => EventScheduler.scheduleAt time callback
  | .scheduleAfter delay callback => EventScheduler.scheduleAfter delay callback
  | .advanceTo newTime => do
      let _ ← clockOf.zoom (VirtualClock.advanceTo newTime)
  | .advanceBy amount => do
      let _ ← clockOf.zoom (VirtualClock.advanceBy amount)

/-- The use leaves the clock alone. -/
def Use.Schedules : Use κ → Prop
  | .scheduleAt _ _ | .scheduleAfter _ _ => True
  | .advanceTo _ | .advanceBy _ => False

/-- Whatever the world, all that the program does to the scheduler is to use
    it in allowed ways, refused uses included. -/
def OnlyUses (scheduler : Component σ (EventScheduler κ)) (allowed : Use κ → Prop)
    (m : Action σ Unit) : Prop :=
  ∀ s, ∃ uses : List (Use κ), (∀ how ∈ uses, allowed how) ∧
    scheduler.get (after m s) = finalState Use.exec (scheduler.get s) uses

/-- One step of a run. -/
inductive Step (κ : Type)
  | use (how : Use κ)
  | runNext

def Step.exec (scheduler : Component σ (EventScheduler κ)) (call : κ → Action σ Unit) :
    Step κ → Action σ Unit
  | .use how => scheduler.zoom how.exec
  | .runNext => do
      let _ ← EventScheduler.runNext scheduler call

/-- One call on a scheduler whose clock nobody else moves. -/
inductive Call (κ : Type)
  | scheduleAt (time : Int) (callback : κ)
  | scheduleAfter (delay : Int) (callback : κ)
  | runNext
  | run (rounds : Nat)

def Call.exec (scheduler : Component σ (EventScheduler κ)) (call : κ → Action σ Unit) :
    Call κ → Action σ Unit
  | .scheduleAt time callback => scheduler.zoom (EventScheduler.scheduleAt time callback)
  | .scheduleAfter delay callback => scheduler.zoom (EventScheduler.scheduleAfter delay callback)
  | .runNext => do
      let _ ← EventScheduler.runNext scheduler call
  | .run rounds => do
      let _ ← EventScheduler.run scheduler call rounds

/-- The steps a `run` consists of: one more for as long as the last one ran an
    event. -/
def runSteps (scheduler : Component σ (EventScheduler κ)) (call : κ → Action σ Unit) :
    Nat → σ → List (Step κ)
  | 0, _ => []
  | rounds + 1, s =>
      .runNext :: match (EventScheduler.runNext scheduler call).run s with
        | .ok true t => runSteps scheduler call rounds t
        | _ => []

/-- The steps a call consists of. -/
def Call.steps (scheduler : Component σ (EventScheduler κ)) (call : κ → Action σ Unit) :
    Call κ → σ → List (Step κ)
  | .scheduleAt time callback, _ => [.use (.scheduleAt time callback)]
  | .scheduleAfter delay callback, _ => [.use (.scheduleAfter delay callback)]
  | .runNext, _ => [.runNext]
  | .run rounds, s => runSteps scheduler call rounds s

/-- The steps a run of calls consists of. -/
def stepsOf (scheduler : Component σ (EventScheduler κ)) (call : κ → Action σ Unit) :
    σ → List (Call κ) → List (Step κ)
  | _, [] => []
  | s, c :: cs => c.steps scheduler call s ++ stepsOf scheduler call
      (after (c.exec scheduler call) s) cs

/-- The scheduler with every callback replaced by the event it belongs to. -/
def tagged (self : EventScheduler κ) : EventScheduler (Event κ) :=
  { self with queue := self.queue.map fun event => { event with callback := event } }

/-- The events whose callbacks `run_next` invokes, found by letting it invoke
    callbacks that write down their event. -/
def invocations (self : EventScheduler κ) : List (Event κ) :=
  (after (runNext Component.first fun event => modify fun s => (s.1, s.2 ++ [event]))
    (self.tagged, [])).2

def Step.invocations : Step κ → EventScheduler κ → List (Event κ)
  | .use _, _ => []
  | .runNext, self => self.invocations

/-- The events that came onto the queue in between. Each was given an insertion
    order that was still free before. -/
def added (before after : EventScheduler κ) : List (Event κ) :=
  after.queue.filter fun event => before.nextOrder ≤ event.order

/-- A world, the events that were scheduled so far and the events whose
    callbacks were invoked, each with whether it returned. -/
structure Observed (σ κ : Type) where
  world : σ
  scheduled : List (Event κ)
  invoked : List (Event κ × Bool)

section Observe

variable (scheduler : Component σ (EventScheduler κ)) (call : κ → Action σ Unit)

/-- A world whose scheduler is fresh. -/
def watched (clock : VirtualClock) (s : σ) : Observed σ κ :=
  ⟨scheduler.set (EventScheduler.new clock) s, [], []⟩

def Observed.next (o : Observed σ κ) (step : Step κ) : Observed σ κ where
  world := after (step.exec scheduler call) o.world
  scheduled := o.scheduled ++
    added (scheduler.get o.world) (scheduler.get (after (step.exec scheduler call) o.world))
  invoked := o.invoked ++ (step.invocations (scheduler.get o.world)).map fun event =>
    (event, (outcome (step.exec scheduler call) o.world).isOk)

/-- Make a step, exceptions caught, and note what it did. -/
def observe (step : Step κ) : Action (Observed σ κ) Unit :=
  modify fun o => o.next scheduler call step

/-- Every event that was scheduled is either still queued or has been invoked,
    and exactly once. -/
def Accounted (o : Observed σ κ) : Prop :=
  (o.invoked.map Prod.fst ++ (scheduler.get o.world).queue).Perm o.scheduled ∧
    (o.scheduled.map Event.order).Nodup

/-- If the step runs the next event, the clock has not passed that event. -/
def OnTime (o : Observed σ κ) : Step κ → Prop
  | .use _ => True
  | .runNext => ∀ event ∈ (scheduler.get o.world).queue.head?,
      (scheduler.get o.world).clock.time ≤ event.time

/-- The ordering law of a scheduler, in one state of a run. -/
structure Lawful (o : Observed σ κ) : Prop where
  /-- Events run by time, and by insertion order when their times are equal. -/
  ordered : (o.invoked.map Prod.fst).Pairwise fun a b =>
    a.time < b.time ∨ (a.time = b.time ∧ a.order < b.order)
  /-- Each scheduled event is either queued or was invoked, and only once. -/
  accounted : Accounted scheduler o
  /-- The history has the events whose callbacks returned, in the same order. -/
  history : (scheduler.get o.world).history = (o.invoked.filter fun row => row.2).map fun row =>
    ⟨row.1.time, row.1.order⟩
  /-- No queued event is past. -/
  notPast : ∀ event ∈ (scheduler.get o.world).queue,
    (scheduler.get o.world).clock.time ≤ event.time
  /-- If `run_next` raises, then what raised is the callback of its event. -/
  raised : ∀ e t, (runNext scheduler call).run o.world = .error e t →
    ∃ event queue clock, (scheduler.get o.world).queue = event :: queue ∧
      clock.time = event.time ∧
      (call event.callback).run
        (scheduler.set ((scheduler.get o.world).ready clock queue) o.world) = .error e t

end Observe

/-! ### Using a scheduler -/

/-- What a use does: nothing, when it is refused, or one more event that is
    not past, or a clock that has moved forward. -/
theorem use_cases (how : Use κ) (self : EventScheduler κ) :
    after how.exec self = self ∨
      (∃ time callback, self.clock.time ≤ time ∧
        after how.exec self = self.scheduled time callback) ∨
      (¬ how.Schedules ∧ ∃ clock : VirtualClock, self.clock.time ≤ clock.time ∧
        after how.exec self = { self with clock }) := by
  cases how with
  | scheduleAt time callback =>
      by_cases h : self.clock.time ≤ time
      · exact .inr (.inl ⟨time, callback, h, after_of_ok (scheduleAt_of_le callback h)⟩)
      · rcases scheduleAt_of_lt callback (not_le.mp h) with ⟨e, -, he⟩
        exact .inl (after_of_error he)
  | scheduleAfter delay callback =>
      by_cases h : 0 ≤ delay
      · exact .inr (.inl ⟨_, callback, by omega, after_of_ok (scheduleAfter_of_nonneg callback h)⟩)
      · rcases scheduleAfter_of_neg callback (not_le.mp h) with ⟨e, he⟩
        exact .inl (after_of_error he)
  | advanceTo newTime =>
      have hrun : after (Use.advanceTo newTime).exec self
          = { self with clock := after (VirtualClock.advanceTo newTime) self.clock } := by
        rw [Use.exec, after_discard, Component.after_zoom]
        rfl
      exact .inr (.inr ⟨id, _, le_advanceTo newTime self.clock, hrun⟩)
  | advanceBy amount =>
      have hrun : after (Use.advanceBy amount).exec self
          = { self with clock := after (VirtualClock.advanceBy amount) self.clock } := by
        rw [Use.exec, after_discard, Component.after_zoom]
        rfl
      exact .inr (.inr ⟨id, _, le_advanceBy amount self.clock, hrun⟩)

/-- From one scheduler to a later one: fresh events with their own insertion
    orders came onto the queue, and nothing left it. -/
def Grows (before after : EventScheduler κ) : Prop :=
  before.nextOrder ≤ after.nextOrder ∧
    ∃ fresh : List (Event κ), after.queue.Perm (fresh ++ before.queue) ∧
      (fresh.map Event.order).Nodup ∧
      ∀ event ∈ fresh, before.nextOrder ≤ event.order ∧ event.order < after.nextOrder

theorem grows_of_same {before after : EventScheduler κ} (hqueue : after.queue = before.queue)
    (horder : after.nextOrder = before.nextOrder) : Grows before after := by
  refine ⟨horder.ge, [], ?_, List.nodup_nil, fun event h => absurd h List.not_mem_nil⟩
  rw [hqueue, List.nil_append]

instance : Std.Refl (Grows (κ := κ)) :=
  ⟨fun _ => grows_of_same rfl rfl⟩

instance : IsTrans (EventScheduler κ) Grows where
  trans a b c hab hbc := by
    rcases hab with ⟨hab, fresh, hqueue, hnodup, hfresh⟩
    rcases hbc with ⟨hbc, fresh', hqueue', hnodup', hfresh'⟩
    refine ⟨hab.trans hbc, fresh' ++ fresh, ?_, ?_, fun event h => ?_⟩
    · rw [List.append_assoc]
      exact hqueue'.trans (hqueue.append_left fresh')
    · -- The later orders start where the earlier ones ended.
      rw [List.map_append]
      refine hnodup'.append hnodup fun order hlate hearly => ?_
      rcases List.mem_map.mp hlate with ⟨event', hmem', rfl⟩
      rcases List.mem_map.mp hearly with ⟨event, hmem, hsame⟩
      have := (hfresh event hmem).2
      have := (hfresh' event' hmem').1
      omega
    · rcases List.mem_append.mp h with h | h
      · have := hfresh' event h
        omega
      · have := hfresh event h
        omega

theorem grows_use (how : Use κ) : Within Grows how.exec := by
  intro self
  rcases use_cases how self with hsame | ⟨time, callback, -, hsched⟩ | ⟨-, clock, -, hclock⟩
  · rw [hsame]
    exact Std.Refl.refl self
  · rw [hsched]
    refine ⟨Nat.le_succ _, [⟨time, self.nextOrder, callback⟩], ?_, List.nodup_singleton _, ?_⟩
    · exact List.perm_orderedInsert Event.le _ self.queue
    · intro event h
      rw [List.mem_singleton.mp h]
      exact ⟨le_rfl, Nat.lt_succ_self _⟩
  · rw [hclock]
    exact grows_of_same rfl rfl

/-- A program that only uses the scheduler lets it grow. -/
theorem grows_of_onlyUses {scheduler : Component σ (EventScheduler κ)} {allowed : Use κ → Prop}
    {m : Action σ Unit} (h : OnlyUses scheduler allowed m) (s : σ) :
    Grows (scheduler.get s) (scheduler.get (after m s)) := by
  rcases h s with ⟨uses, -, hrun⟩
  rw [hrun]
  exact invariant_finalState (I := Grows (scheduler.get s))
    (fun q how hq => IsTrans.trans _ _ _ hq (grows_use how q)) (Std.Refl.refl _) uses

/-- When every queued event has an order that was given out before, what was
    added is what grew. -/
theorem added_of_grows {before after : EventScheduler κ} (h : Grows before after)
    (hold : ∀ event ∈ before.queue, event.order < before.nextOrder) :
    after.queue.Perm (added before after ++ before.queue) ∧
      ((added before after).map Event.order).Nodup ∧
      ∀ event ∈ added before after,
        before.nextOrder ≤ event.order ∧ event.order < after.nextOrder := by
  rcases h with ⟨-, fresh, hqueue, hnodup, hfresh⟩
  have hadded : (added before after).Perm fresh := by
    refine (hqueue.filter _).trans (List.Perm.of_eq ?_)
    rw [List.filter_append, List.filter_eq_self.mpr, List.filter_eq_nil_iff.mpr, List.append_nil]
    · intro event hmem
      have := hold event hmem
      simpa using this
    · intro event hmem
      simpa using (hfresh event hmem).1
  refine ⟨hqueue.trans (hadded.symm.append_right _), ?_, fun event hmem => ?_⟩
  · exact (hadded.map Event.order).nodup_iff.mpr hnodup
  · exact hfresh event (hadded.mem_iff.mp hmem)

/-! ### What a step invokes -/

theorem invocations_nil {self : EventScheduler κ} (hqueue : self.queue = []) :
    self.invocations = [] := by
  unfold invocations
  rw [after_of_ok (runNext_nil Component.first _ (s := (self.tagged, [])) ?_)]
  exact congrArg (List.map _) hqueue

theorem tagged_cons {self : EventScheduler κ} {event : Event κ} {queue : List (Event κ)}
    (hqueue : self.queue = event :: queue) :
    self.tagged.queue = { event with callback := event } ::
      queue.map fun event => { event with callback := event } :=
  congrArg (List.map _) hqueue

theorem invocations_late {self : EventScheduler κ} {event : Event κ} {queue : List (Event κ)}
    (hqueue : self.queue = event :: queue) (hlate : event.time < self.clock.time) :
    self.invocations = [] := by
  unfold invocations
  rcases runNext_late Component.first (fun event => modify fun s => (s.1, s.2 ++ [event]))
    (s := (self.tagged, [])) (tagged_cons hqueue) hlate with ⟨e, -, he⟩
  rw [after_of_error he]
  rfl

theorem invocations_due {self : EventScheduler κ} {event : Event κ} {queue : List (Event κ)}
    (hqueue : self.queue = event :: queue) (hdue : self.clock.time ≤ event.time) :
    self.invocations = [event] := by
  unfold invocations
  rcases runNext_due Component.first (fun event => modify fun s => (s.1, s.2 ++ [event]))
    (s := (self.tagged, [])) (tagged_cons hqueue) hdue with ⟨clock, -, hrun⟩
  rw [after_of_ok hrun]
  rfl

section Law

variable (scheduler : Component σ (EventScheduler κ)) (call : κ → Action σ Unit)

/-- A step that runs an event ends as the callback of the event does. -/
theorem runNext_exec {s : σ} {event : Event κ} {queue : List (Event κ)}
    (hqueue : (scheduler.get s).queue = event :: queue)
    (hdue : (scheduler.get s).clock.time ≤ event.time) :
    ∃ clock : VirtualClock, clock.time = event.time ∧
      ((∃ t, (call event.callback).run (scheduler.set ((scheduler.get s).ready clock queue) s)
          = .ok () t ∧
        (Step.runNext.exec scheduler call).run s
          = .ok () (scheduler.set ((scheduler.get t).executed event) t)) ∨
      ∃ e t, (call event.callback).run (scheduler.set ((scheduler.get s).ready clock queue) s)
          = .error e t ∧
        (Step.runNext.exec scheduler call).run s = .error e t) := by
  rcases runNext_due scheduler call hqueue hdue with ⟨clock, hclock, hrun⟩
  refine ⟨clock, hclock, ?_⟩
  cases hcb : (call event.callback).run
      (scheduler.set ((scheduler.get s).ready clock queue) s) with
  | ok _ t =>
      simp only [hcb] at hrun
      exact .inl ⟨t, rfl, run_bind_of_ok hrun⟩
  | error e t =>
      simp only [hcb] at hrun
      exact .inr ⟨e, t, rfl, run_bind_of_error hrun⟩

/-- Nothing is lost so far, and every event has an order that was given out. -/
def Counted (o : Observed σ κ) : Prop :=
  Accounted scheduler o ∧
    ∀ event ∈ o.scheduled, event.order < (scheduler.get o.world).nextOrder

variable {scheduler call}

/-- A step keeps the account when the events that leave the queue are those it
    invokes, and the queue otherwise only grows. -/
theorem counted_next {o o' : Observed σ κ} (gone base : List (Event κ))
    (middle : EventScheduler κ) (h : Counted scheduler o)
    (hqueue : (scheduler.get o.world).queue = gone ++ base) (hbase : middle.queue = base)
    (horder : middle.nextOrder = (scheduler.get o.world).nextOrder)
    (hgrows : Grows middle (scheduler.get o'.world))
    (hinvoked : o'.invoked.map Prod.fst = o.invoked.map Prod.fst ++ gone)
    (hscheduled : o'.scheduled
      = o.scheduled ++ added (scheduler.get o.world) (scheduler.get o'.world)) :
    Counted scheduler o' := by
  rcases h with ⟨⟨hperm, hnodup⟩, hgiven⟩
  rw [hqueue] at hperm
  have hold : ∀ event ∈ base, event.order < middle.nextOrder := by
    intro event hmem
    rw [horder]
    refine hgiven event (hperm.mem_iff.mp ?_)
    exact List.mem_append_right _ (List.mem_append_right _ hmem)
  have hadded := added_of_grows hgrows (hbase ▸ hold)
  have hsame : added middle (scheduler.get o'.world)
      = added (scheduler.get o.world) (scheduler.get o'.world) := by
    unfold added
    rw [horder]
  rw [hbase, hsame] at hadded
  rcases hadded with ⟨hgrown, hfresh, hnew⟩
  refine ⟨⟨?_, ?_⟩, fun event hmem => ?_⟩
  · rw [hinvoked, hscheduled]
    -- What is new on the queue is new among the scheduled, and the rest moved over.
    calc o.invoked.map Prod.fst ++ gone ++ (scheduler.get o'.world).queue
        ~ o.invoked.map Prod.fst ++ gone ++
          (added (scheduler.get o.world) (scheduler.get o'.world) ++ base) :=
          hgrown.append_left _
      _ ~ o.invoked.map Prod.fst ++ gone ++
          (base ++ added (scheduler.get o.world) (scheduler.get o'.world)) :=
          List.perm_append_comm.append_left _
      _ ~ o.scheduled ++ added (scheduler.get o.world) (scheduler.get o'.world) := by
          rw [← List.append_assoc, List.append_assoc _ gone base]
          exact hperm.append_right _
  · rw [hscheduled, List.map_append]
    refine hnodup.append hfresh fun order hearly hlate => ?_
    rcases List.mem_map.mp hearly with ⟨event, hmem, rfl⟩
    rcases List.mem_map.mp hlate with ⟨event', hmem', hsame⟩
    have := hgiven event hmem
    have := (hnew event' hmem').1
    omega
  · rw [hscheduled] at hmem
    rcases List.mem_append.mp hmem with hmem | hmem
    · have := hgiven event hmem
      have := hgrows.1
      omega
    · exact (hnew event hmem).2

variable {allowed : Use κ → Prop} (hcall : ∀ callback, OnlyUses scheduler allowed (call callback))

include hcall

/-- A step that is on time loses nothing. -/
theorem counted_step (o : Observed σ κ) (step : Step κ) (h : Counted scheduler o)
    (htime : OnTime scheduler o step) : Counted scheduler (o.next scheduler call step) := by
  cases step with
  | use how =>
      refine counted_next [] (scheduler.get o.world).queue (scheduler.get o.world) h rfl rfl rfl ?_
        (by simp [Observed.next, Step.invocations]) rfl
      change Grows _ (scheduler.get (after (scheduler.zoom how.exec) o.world))
      rw [Component.after_zoom, scheduler.get_set]
      exact grows_use how _
  | runNext =>
      cases hqueue : (scheduler.get o.world).queue with
      | nil =>
          have hafter : after (Step.runNext.exec scheduler call) o.world = o.world := by
            rw [Step.exec, after_discard, after_of_ok (runNext_nil scheduler call hqueue)]
          refine counted_next [] [] (scheduler.get o.world) h hqueue hqueue rfl ?_ ?_ rfl
          · change Grows _ (scheduler.get (after (Step.runNext.exec scheduler call) o.world))
            rw [hafter]
            exact Std.Refl.refl _
          · simp [Observed.next, Step.invocations, invocations_nil hqueue]
      | cons event queue =>
          have hdue : (scheduler.get o.world).clock.time ≤ event.time :=
            htime event (by rw [hqueue]; rfl)
          rcases runNext_exec scheduler call hqueue hdue with ⟨clock, -, hrun⟩
          -- The callback starts on the ready scheduler and lets it grow.
          have hgrows := grows_of_onlyUses (hcall event.callback)
            (scheduler.set ((scheduler.get o.world).ready clock queue) o.world)
          rw [scheduler.get_set] at hgrows
          refine counted_next [event] queue ((scheduler.get o.world).ready clock queue) h hqueue
            rfl rfl ?_ ?_ rfl
          · change Grows _ (scheduler.get (after (Step.runNext.exec scheduler call) o.world))
            rcases hrun with ⟨t, hcb, hexec⟩ | ⟨e, t, hcb, hexec⟩
            · rw [after_of_ok hcb] at hgrows
              rw [after_of_ok hexec, scheduler.get_set]
              exact IsTrans.trans _ _ _ hgrows (grows_of_same rfl rfl)
            · rw [after_of_error hcb] at hgrows
              rw [after_of_error hexec]
              exact hgrows
          · simp [Observed.next, Step.invocations, invocations_due hqueue hdue]

omit hcall

/-- A step that is late drops an event that is still owed. -/
theorem not_accounted_late (o : Observed σ κ) (step : Step κ) (h : Counted scheduler o)
    (hlate : ¬ OnTime scheduler o step) :
    ¬ Accounted scheduler (o.next scheduler call step) := by
  cases step with
  | use how => exact absurd trivial hlate
  | runNext =>
      simp only [OnTime, not_forall, not_le] at hlate
      rcases hlate with ⟨event, hhead, hpast⟩
      rcases List.head?_eq_some_iff.mp hhead with ⟨queue, hqueue⟩
      rcases runNext_late scheduler call hqueue hpast with ⟨e, -, hrun⟩
      have hworld : scheduler.get (after (Step.runNext.exec scheduler call) o.world)
          = { scheduler.get o.world with queue } := by
        rw [Step.exec, after_discard, after_of_error hrun, scheduler.get_set]
      -- Nothing is invoked, and still the queue is shorter.
      intro haccounted
      have hafter := haccounted.1.length_eq
      have hbefore := h.1.1.length_eq
      simp only [Observed.next, Step.invocations, invocations_late hqueue hpast, hworld,
        List.map_nil, List.append_nil, List.length_append] at hafter
      simp only [hqueue, List.length_append, List.length_cons] at hbefore
      omega

variable (scheduler)

theorem counted_watched (clock : VirtualClock) (s : σ) :
    Counted scheduler (watched scheduler clock s) := by
  refine ⟨⟨?_, List.nodup_nil⟩, fun event h => absurd h List.not_mem_nil⟩
  simp only [watched, scheduler.get_set, EventScheduler.new, List.map_nil, List.append_nil,
    List.Perm.refl]

end Law

/-- No event is ever lost, in a run on a scheduler whose clock others may move
    as well, exactly when no step is asked to run an event that the clock has
    already passed. -/
theorem accounted_iff_onTime (scheduler : Component σ (EventScheduler κ))
    (call : κ → Action σ Unit)
    (hcall : ∀ callback, OnlyUses scheduler (fun _ => True) (call callback))
    (clock : VirtualClock) (s : σ) (steps : List (Step κ)) :
    AllStates (observe scheduler call) (Accounted scheduler) (watched scheduler clock s) steps ↔
      AllSteps (observe scheduler call) (OnTime scheduler) (watched scheduler clock s) steps := by
  have hstart := counted_watched scheduler clock s
  rw [allStates_iff_after]
  have hstep : ∀ o step, Counted scheduler o → OnTime scheduler o step →
      Counted scheduler (after (observe scheduler call step) o) :=
    fun o step h htime => counted_step hcall o step h htime
  have hiff : ∀ o step, Counted scheduler o →
      (Accounted scheduler (after (observe scheduler call step) o) ↔ OnTime scheduler o step) := by
    intro o step h
    constructor
    · intro haccounted
      by_contra hlate
      exact not_accounted_late o step h hlate haccounted
    · exact fun htime => (hstep o step h htime).1
  rw [allSteps_congr hstep hiff hstart steps]
  exact ⟨fun h => h.2, fun h => ⟨hstart.1, h⟩⟩

/-- A callback that schedules the next leg of a relay after the given delay,
    and raises if there is no next leg. -/
def relay : List Int → Action (EventScheduler (List Int)) Unit
  | [] => throw (valueError "no next leg")
  | delay :: legs => EventScheduler.scheduleAfter delay legs

theorem onlyUses_relay (callback : List Int) :
    OnlyUses Component.whole Use.Schedules (relay callback) := by
  intro s
  cases callback with
  | nil => exact ⟨[], fun how h => absurd h List.not_mem_nil, rfl⟩
  | cons delay legs =>
      refine ⟨[.scheduleAfter delay legs], fun how h => ?_, rfl⟩
      rw [List.mem_singleton.mp h]
      trivial

theorem accounted_iff_onTime_relay :
    let start := watched Component.whole ⟨0, by decide⟩ (EventScheduler.new ⟨0, by decide⟩)
    let steps : List (Step (List Int)) :=
      [.use (.scheduleAt 2 [3]), .use (.advanceTo 2), .runNext, .use (.advanceBy 3), .runNext]
    AllStates (observe Component.whole relay) (Accounted Component.whole) start steps ↔
      AllSteps (observe Component.whole relay) (OnTime Component.whole) start steps :=
  accounted_iff_onTime Component.whole relay
    (fun callback s => (onlyUses_relay callback s).imp fun _ h => ⟨fun _ _ => trivial, h.2⟩) _ _ _

/-- An event is scheduled for time 1, the clock is moved to 5, and `run_next`
    takes the event out of the queue without invoking it. -/
theorem not_accounted_of_advance :
    ¬ AllStates (observe Component.whole relay) (Accounted Component.whole)
      (watched Component.whole ⟨0, by decide⟩ (EventScheduler.new ⟨0, by decide⟩))
      [.use (.scheduleAt 1 [2]), .use (.advanceTo 5), .runNext] := by
  intro h
  have hlength := (allStates_finalState h).1.length_eq
  exact absurd hlength (by decide)

/-! ### The ordering law -/

/-- Past and queued events form one timeline with the clock between them. -/
structure Timely (past : List (Event κ)) (now : EventScheduler κ) : Prop where
  strict : Timeline.Strict Event.le (past ++ now.queue)
  given : ∀ event ∈ past ++ now.queue, event.order < now.nextOrder
  past_le : ∀ event ∈ past, event.time ≤ now.clock.time
  le_queued : ∀ event ∈ now.queue, now.clock.time ≤ event.time

instance : IsTrans (Event κ) Event.le where
  trans a b c hab hbc := by
    unfold Event.le at *
    omega

instance : Std.Total (Event.le (κ := κ)) where
  total a b := by
    unfold Event.le
    omega

theorem not_le_iff (a b : Event κ) :
    ¬ b.le a ↔ a.time < b.time ∨ (a.time = b.time ∧ a.order < b.order) := by
  unfold Event.le
  omega

theorem timely_scheduled {past : List (Event κ)} {self : EventScheduler κ} {time : Int}
    (callback : κ) (h : Timely past self) (htime : self.clock.time ≤ time) :
    Timely past (self.scheduled time callback) where
  strict := by
    refine Timeline.strict_append_insert h.strict (fun event hmem => ?_) fun event hmem hle => ?_
    · -- What is past was not later than now, and was inserted earlier.
      have := h.past_le event hmem
      have := h.given event (List.mem_append_left _ hmem)
      simp only [Event.le]
      omega
    · -- An earlier insertion order decides when the times are equal.
      have := h.given event (List.mem_append_right _ hmem)
      simp only [Event.le] at hle ⊢
      omega
  given event hmem := by
    rcases List.mem_append.mp hmem with hmem | hmem
    · exact Nat.lt_succ_of_lt (h.given event (List.mem_append_left _ hmem))
    · rcases (List.mem_orderedInsert Event.le).mp hmem with hsame | hmem
      · rw [hsame]
        exact Nat.lt_succ_self _
      · exact Nat.lt_succ_of_lt (h.given event (List.mem_append_right _ hmem))
  past_le := h.past_le
  le_queued event hmem := by
    rcases (List.mem_orderedInsert Event.le).mp hmem with hsame | hmem
    · rw [hsame]
      exact htime
    · exact h.le_queued event hmem

theorem timely_use {past : List (Event κ)} {self : EventScheduler κ} {how : Use κ}
    (h : Timely past self) (hhow : how.Schedules) : Timely past (after how.exec self) := by
  rcases use_cases how self with hsame | ⟨time, callback, htime, hsched⟩ | ⟨hmoves, -⟩
  · rwa [hsame]
  · rw [hsched]
    exact timely_scheduled callback h htime
  · exact absurd hhow hmoves

/-- The next event moves into the past, and the clock moves with it. -/
theorem timely_ready {past queue : List (Event κ)} {event : Event κ} {self : EventScheduler κ}
    {clock : VirtualClock} (h : Timely past self) (hqueue : self.queue = event :: queue)
    (hclock : clock.time = event.time) : Timely (past ++ [event]) (self.ready clock queue) := by
  -- The timeline is the same, only now is one event further along it.
  have hmove : past ++ self.queue = past ++ [event] ++ queue := by
    rw [hqueue, List.append_assoc, List.singleton_append]
  have hstrict := h.strict
  rw [hmove] at hstrict
  refine ⟨hstrict, ?_, fun earlier hmem => ?_, fun later hmem => ?_⟩
  · have hgiven := h.given
    rw [hmove] at hgiven
    exact hgiven
  · have hdue := h.le_queued event (by rw [hqueue]; exact List.mem_cons_self)
    rcases List.mem_append.mp hmem with hmem | hmem
    · exact (h.past_le earlier hmem).trans (hdue.trans hclock.ge)
    · rw [List.mem_singleton.mp hmem]
      exact hclock.ge
  · have hbefore := (List.pairwise_append.mp hstrict).2.2 event
      (List.mem_append_right past (List.mem_singleton_self event)) later hmem
    have := (not_le_iff event later).mp hbefore
    change clock.time ≤ later.time
    omega

theorem history_use (how : Use κ) (self : EventScheduler κ) :
    (after how.exec self).history = self.history := by
  rcases use_cases how self with hsame | ⟨time, callback, -, hsched⟩ | ⟨-, clock, -, hclock⟩
  · rw [hsame]
  · rw [hsched]
    rfl
  · rw [hclock]

/-- A program that only schedules keeps the timeline and the history. -/
theorem timely_onlyUses {scheduler : Component σ (EventScheduler κ)} {m : Action σ Unit}
    (hm : OnlyUses scheduler Use.Schedules m) (past : List (Event κ)) (s : σ)
    (h : Timely past (scheduler.get s)) :
    Timely past (scheduler.get (after m s)) ∧
      (scheduler.get (after m s)).history = (scheduler.get s).history := by
  rcases hm s with ⟨uses, hallowed, hrun⟩
  rw [hrun]
  exact allStates_finalState (allStates_of_allSteps
    (I := fun q => Timely past q ∧ q.history = (scheduler.get s).history)
    (C := fun _ how => how.Schedules)
    (fun q how hq hhow => ⟨timely_use hq.1 hhow, (history_use how q).trans hq.2⟩) ⟨h, rfl⟩
    (allSteps_of_forall fun _ how hmem => hallowed how hmem))

section Law

variable (scheduler : Component σ (EventScheduler κ)) (call : κ → Action σ Unit)

/-- The timeline of an observed world, with nothing lost and with the history
    that its invocations call for. -/
structure OnSchedule (o : Observed σ κ) : Prop where
  timely : Timely (o.invoked.map Prod.fst) (scheduler.get o.world)
  counted : Counted scheduler o
  history : (scheduler.get o.world).history = (o.invoked.filter fun row => row.2).map fun row =>
    ⟨row.1.time, row.1.order⟩

theorem lawful_of_onSchedule {o : Observed σ κ} (h : OnSchedule scheduler o) :
    Lawful scheduler call o where
  ordered := (List.pairwise_append.mp h.timely.strict).1.imp fun {a b} hab =>
    (not_le_iff a b).mp hab
  accounted := h.counted.1
  history := h.history
  notPast := h.timely.le_queued
  raised e t hrun := by
    cases hqueue : (scheduler.get o.world).queue with
    | nil =>
        rw [runNext_nil scheduler call hqueue] at hrun
        cases hrun
    | cons event queue =>
        -- The clock lets the event through, so what is raised is the callback's.
        have hdue := h.timely.le_queued event (by rw [hqueue]; exact List.mem_cons_self)
        rcases runNext_due scheduler call hqueue hdue with ⟨clock, hclock, hnext⟩
        refine ⟨event, queue, clock, rfl, hclock, ?_⟩
        rw [hnext] at hrun
        cases hcb : (call event.callback).run
            (scheduler.set ((scheduler.get o.world).ready clock queue) o.world) with
        | ok _ u =>
            rw [hcb] at hrun
            cases hrun
        | error e' u =>
            rw [hcb] at hrun
            cases hrun
            rfl

/-- The steps of a run whose clock only the scheduler moves. -/
def Step.Schedules : Step κ → Prop
  | .use how => how.Schedules
  | .runNext => True

variable {scheduler call}
variable (hcall : ∀ callback, OnlyUses scheduler Use.Schedules (call callback))

include hcall

theorem onSchedule_step (o : Observed σ κ) (step : Step κ) (h : OnSchedule scheduler o)
    (hstep : step.Schedules) : OnSchedule scheduler (o.next scheduler call step) := by
  -- No queued event is past, so no step can lose one.
  have htime : OnTime scheduler o step := by
    cases step with
    | use how => trivial
    | runNext => exact fun event hmem => h.timely.le_queued event (List.mem_of_mem_head? hmem)
  have hcounted := counted_step hcall o step h.counted htime
  cases step with
  | use how =>
      have hworld : scheduler.get (after ((Step.use how).exec scheduler call) o.world)
          = after how.exec (scheduler.get o.world) := by
        rw [Step.exec, Component.after_zoom, scheduler.get_set]
      refine ⟨?_, hcounted, ?_⟩
      · simp only [Observed.next, Step.invocations, List.map_nil, List.append_nil, hworld]
        exact timely_use h.timely hstep
      · simp only [Observed.next, Step.invocations, List.map_nil, List.append_nil, hworld]
        rw [history_use]
        exact h.history
  | runNext =>
      cases hqueue : (scheduler.get o.world).queue with
      | nil =>
          have hafter : after (Step.runNext.exec scheduler call) o.world = o.world := by
            rw [Step.exec, after_discard, after_of_ok (runNext_nil scheduler call hqueue)]
          refine ⟨?_, hcounted, ?_⟩
          · simp only [Observed.next, Step.invocations, invocations_nil hqueue, List.map_nil,
              List.append_nil, hafter]
            exact h.timely
          · simp only [Observed.next, Step.invocations, invocations_nil hqueue, List.map_nil,
              List.append_nil, hafter]
            exact h.history
      | cons event queue =>
          have hdue := htime event (by rw [hqueue]; rfl)
          rcases runNext_exec scheduler call hqueue hdue with ⟨clock, hclock, hrun⟩
          have hready := timely_ready h.timely hqueue hclock
          -- The callback starts on the timeline of its own event and keeps it.
          have hkept := timely_onlyUses (hcall event.callback) (o.invoked.map Prod.fst ++ [event])
            (scheduler.set ((scheduler.get o.world).ready clock queue) o.world)
            (by rw [scheduler.get_set]; exact hready)
          rw [scheduler.get_set] at hkept
          rcases hkept with ⟨htimely, hhistory⟩
          rcases hrun with ⟨t, hcb, hexec⟩ | ⟨e, t, hcb, hexec⟩
          · -- The callback returned, and the event goes into the history.
            rw [after_of_ok hcb] at htimely hhistory
            refine ⟨?_, hcounted, ?_⟩
            · simp only [Observed.next, Step.invocations, invocations_due hqueue hdue,
                after_of_ok hexec, scheduler.get_set, List.map_append, List.map_cons, List.map_nil]
              exact ⟨htimely.strict, htimely.given, htimely.past_le, htimely.le_queued⟩
            · simp only [Observed.next, Step.invocations, invocations_due hqueue hdue,
                after_of_ok hexec, outcome_of_ok hexec, scheduler.get_set, executed, hhistory]
              rw [List.map_singleton, List.filter_append, List.map_append, ← h.history]
              rfl
          · -- It raised, and was invoked without going into the history.
            rw [after_of_error hcb] at htimely hhistory
            refine ⟨?_, hcounted, ?_⟩
            · simp only [Observed.next, Step.invocations, invocations_due hqueue hdue,
                after_of_error hexec, List.map_append, List.map_cons, List.map_nil]
              exact htimely
            · simp only [Observed.next, Step.invocations, invocations_due hqueue hdue,
                after_of_error hexec, outcome_of_error hexec, hhistory]
              rw [List.map_singleton, List.filter_append, List.map_append, ← h.history]
              exact (List.append_nil _).symm

omit hcall

variable (scheduler call)

/-- Watching a run does not change it. -/
theorem world_observe (o : Observed σ κ) (steps : List (Step κ)) :
    (finalState (observe scheduler call) o steps).world
      = finalState (Step.exec scheduler call) o.world steps := by
  induction steps generalizing o with
  | nil => rfl
  | cons step steps ih => exact ih (o.next scheduler call step)

/-- A `run` is its steps. -/
theorem after_run (rounds : Nat) (s : σ) :
    after (run scheduler call rounds) s
      = finalState (Step.exec scheduler call) s (runSteps scheduler call rounds s) := by
  induction rounds generalizing s with
  | zero => rfl
  | succ rounds ih =>
      cases hrun : (EventScheduler.runNext scheduler call).run s with
      | ok ran t =>
          have hstep : after (Step.runNext.exec scheduler call) s = t := by
            rw [Step.exec, after_discard, after_of_ok hrun]
          cases ran with
          | true =>
              simp only [runSteps, hrun, finalState_cons, hstep, ← ih t]
              rw [run, after_bind_ok hrun]
              rfl
          | false =>
              -- The queue was empty, and the loop is left.
              simp only [runSteps, hrun, finalState_cons, hstep, finalState_nil]
              rw [run, after_bind_ok hrun]
              rfl
      | error e t =>
          have hstep : after (Step.runNext.exec scheduler call) s = t := by
            rw [Step.exec, after_discard, after_of_error hrun]
          simp only [runSteps, hrun, finalState_cons, hstep, finalState_nil]
          rw [run, after_bind_error hrun]

theorem after_call (c : Call κ) (s : σ) :
    after (c.exec scheduler call) s
      = finalState (Step.exec scheduler call) s (c.steps scheduler call s) := by
  cases c with
  | run rounds =>
      rw [Call.exec, after_discard]
      exact after_run scheduler call rounds s
  | scheduleAt time callback => rfl
  | scheduleAfter delay callback => rfl
  | runNext => rfl

theorem finalState_stepsOf (s : σ) (calls : List (Call κ)) :
    finalState (Step.exec scheduler call) s (stepsOf scheduler call s calls)
      = finalState (Call.exec scheduler call) s calls := by
  induction calls generalizing s with
  | nil => rfl
  | cons c calls ih => rw [stepsOf, finalState_append, ← after_call, ih, finalState_cons]

theorem schedules_runSteps (rounds : Nat) (s : σ) :
    ∀ step ∈ runSteps scheduler call rounds s, step.Schedules := by
  induction rounds generalizing s with
  | zero => exact fun step h => absurd h List.not_mem_nil
  | succ rounds ih =>
      intro step hmem
      unfold runSteps at hmem
      rcases List.mem_cons.mp hmem with rfl | hmem
      · trivial
      · split at hmem
        · exact ih _ step hmem
        · exact absurd hmem List.not_mem_nil

theorem schedules_stepsOf (s : σ) (calls : List (Call κ)) :
    ∀ step ∈ stepsOf scheduler call s calls, step.Schedules := by
  induction calls generalizing s with
  | nil => exact fun step h => absurd h List.not_mem_nil
  | cons c calls ih =>
      intro step hmem
      rcases List.mem_append.mp hmem with hmem | hmem
      · cases c with
        | run rounds => exact schedules_runSteps scheduler call rounds s step hmem
        | scheduleAt time callback => exact List.mem_singleton.mp hmem ▸ trivial
        | scheduleAfter delay callback => exact List.mem_singleton.mp hmem ▸ trivial
        | runNext => exact List.mem_singleton.mp hmem ▸ trivial
      · exact ih _ step hmem

end Law

/-- While callbacks and callers only schedule events, and so only the scheduler
    moves the clock, every state that a run of calls passes through is lawful,
    the states inside a `run` included. -/
theorem scheduler_law (scheduler : Component σ (EventScheduler κ)) (call : κ → Action σ Unit)
    (hcall : ∀ callback, OnlyUses scheduler Use.Schedules (call callback))
    (clock : VirtualClock) (s : σ) (calls : List (Call κ)) :
    let start := watched scheduler clock s
    let steps := stepsOf scheduler call start.world calls
    AllStates (observe scheduler call) (Lawful scheduler call) start steps ∧
      (finalState (observe scheduler call) start steps).world
        = finalState (Call.exec scheduler call) start.world calls := by
  intro start steps
  have hstart : OnSchedule scheduler start := by
    have hget : scheduler.get start.world = EventScheduler.new clock :=
      scheduler.get_set _ _
    refine ⟨⟨?_, ?_, ?_, ?_⟩, counted_watched scheduler clock s, ?_⟩
    · rw [hget]
      exact List.Pairwise.nil
    · rw [hget]
      exact fun event h => absurd h List.not_mem_nil
    · exact fun event h => absurd h List.not_mem_nil
    · rw [hget]
      exact fun event h => absurd h List.not_mem_nil
    · rw [hget]
      rfl
  have hstep : ∀ o (step : Step κ), OnSchedule scheduler o → step.Schedules →
      OnSchedule scheduler (after (observe scheduler call step) o) :=
    fun o step h hstep => onSchedule_step hcall o step h hstep
  constructor
  · refine allStates_mono (fun o h => lawful_of_onSchedule scheduler call h) ?_
    exact allStates_of_allSteps (C := fun _ step => step.Schedules) hstep hstart
      (allSteps_of_forall fun _ => schedules_stepsOf scheduler call start.world calls)
  · -- Watching and spelling out the loops both leave the world alone.
    rw [world_observe, finalState_stepsOf]

theorem scheduler_law_relay :
    let calls : List (Call (List Int)) :=
      [.scheduleAt 2 [3], .scheduleAt 2 [], .runNext, .run 2, .scheduleAfter (-1) [], .run 5]
    let start := watched Component.whole ⟨0, by decide⟩ (EventScheduler.new ⟨0, by decide⟩)
    let steps := stepsOf Component.whole relay start.world calls
    AllStates (observe Component.whole relay) (Lawful Component.whole relay) start steps ∧
      (finalState (observe Component.whole relay) start steps).world
        = finalState (Call.exec Component.whole relay) start.world calls :=
  scheduler_law Component.whole relay onlyUses_relay _ _ _

end EventScheduler

end BankSim
