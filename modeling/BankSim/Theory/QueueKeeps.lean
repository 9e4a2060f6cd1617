import BankSim.Theory.QueueLaw

/-!
# What a Payment Queue Keeps

A queue whose works return, and whose clock only the scheduler moves, changes
in few ways. Its scheduler moves on, a payment arrives, a tick begins, a round
of its loop takes a payment out and completes it, and the worker is woken again
or rests. What is kept by each of these is kept by every step of a run. This is
where the step is taken apart, for all properties that rest on the law of the
queue.

As in the law there is one property for the time between two events and one for
the middle of a tick, with the rounds that are still to come and the payment
that was taken out. Each change may use the part of the law that holds then.

## Main definitions

* `PaymentQueue.Kept`: A property that every change of a queue keeps.
* `PaymentQueue.Timely`: A use that is fair and leaves the clock alone.

## Theorems

* `Kept.use`, `Kept.useDuring`: What a use keeps.
* `Kept.processItem`, `Kept.processItems`, `Kept.processTick`: One round of the
  loop, so many rounds, and the tick.
* `Kept.runNext`, `Kept.step`, `Kept.run`: The next event, a step, and a run.
-/

namespace BankSim

open Exec

namespace PaymentQueue

variable {ω ξ σ : Type}

/-- A fair use that leaves the clock to the scheduler. -/
def Use.Timely (how : Use ω ξ) : Prop :=
  how.Fair ∧ how.KeepsTime

theorem Use.Timely.allowed {how : Use ω ξ} (h : how.Timely) : how.Allowed True :=
  ⟨h.1, fun _ => h.2⟩

/-- A property `J` of the times between two events that every change of a queue
    keeps, where `K` holds in the middle of a tick. -/
structure Kept (J : PaymentQueue ω (QueueCallback ω ξ) → Prop)
    (K : Int → Nat → List (QueuedPayment ω) → PaymentQueue ω (QueueCallback ω ξ) → Prop) :
    Prop where
  /-- The scheduler has moved on, and it has no new tick. -/
  moved : ∀ (self : PaymentQueue ω (QueueCallback ω ξ))
    (scheduler : EventScheduler (QueueCallback ω ξ)), J self →
      Between True { self with scheduler } →
        (∀ event ∈ scheduler.queue, event.callback.isTick = true →
          event ∈ self.scheduler.queue) →
          self.scheduler.clock.time ≤ scheduler.clock.time → J { self with scheduler }
  arrived : ∀ (self : PaymentQueue ω (QueueCallback ω ξ)) (paymentId : String)
    (paymentType : PaymentType) (work : ω), Between True self → J self →
      J ((self.arrived paymentId paymentType work).awoken .tick)
  /-- The tick begins, and its rounds are settled. -/
  begun : ∀ (self : PaymentQueue ω (QueueCallback ω ξ)) (event : Event (QueueCallback ω ξ))
    (scheduler : EventScheduler (QueueCallback ω ξ)), Between True self → J self →
      self.scheduler.queue = event :: scheduler.queue → event.callback.isTick = true →
        scheduler.clock.time = event.time →
          K event.time (min self.worker.capacity self.waiting.length) []
            (self.ticking scheduler)
  movedDuring : ∀ (time : Int) (rounds : Nat) (working : List (QueuedPayment ω))
    (self : PaymentQueue ω (QueueCallback ω ξ)) (scheduler : EventScheduler (QueueCallback ω ξ)),
      K time rounds working self →
        (∀ event ∈ scheduler.queue, event.callback.isTick = true →
          event ∈ self.scheduler.queue) → K time rounds working { self with scheduler }
  arrivedDuring : ∀ (time : Int) (rounds : Nat) (working : List (QueuedPayment ω))
    (self : PaymentQueue ω (QueueCallback ω ξ)) (paymentId : String) (paymentType : PaymentType)
    (work : ω), During True time rounds working self → K time rounds working self →
      K time rounds working ((self.arrived paymentId paymentType work).awoken .tick)
  taken : ∀ (time : Int) (rounds : Nat) (self begun : PaymentQueue ω (QueueCallback ω ξ))
    (item : QueuedPayment ω), During True time (rounds + 1) [] self → K time (rounds + 1) [] self →
      self.taken = some (item, begun) → K time rounds [item] begun
  finished : ∀ (time : Int) (rounds : Nat) (self : PaymentQueue ω (QueueCallback ω ξ))
    (item : QueuedPayment ω), During True time rounds [item] self → K time rounds [item] self →
      K time rounds [] (self.finished item time)
  /-- The rounds are over, and something waits. -/
  woken : ∀ (time : Int) (self : PaymentQueue ω (QueueCallback ω ξ)), During True time 0 [] self →
    K time 0 [] self → self.waiting.isEmpty = false → J (self.awoken .tick)
  rested : ∀ (time : Int) (self : PaymentQueue ω (QueueCallback ω ξ)), During True time 0 [] self →
    K time 0 [] self → self.waiting.isEmpty = true → J self

namespace Kept

variable {J : PaymentQueue ω (QueueCallback ω ξ) → Prop}
  {K : Int → Nat → List (QueuedPayment ω) → PaymentQueue ω (QueueCallback ω ξ) → Prop}
  {self : PaymentQueue ω (QueueCallback ω ξ)} {how : Use ω ξ} {time : Int} {rounds : Nat}
  {working : List (QueuedPayment ω)}

/-- A tick on a scheduler that was given another callback was there before. -/
theorem mem_of_scheduled {scheduler : EventScheduler (QueueCallback ω ξ)}
    {callback : QueueCallback ω ξ} (hkind : callback.isTick = false) {time : Int}
    {event : Event (QueueCallback ω ξ)}
    (hmem : event ∈ (scheduler.scheduled time callback).queue)
    (htick : event.callback.isTick = true) : event ∈ scheduler.queue := by
  rcases (EventScheduler.mem_scheduled_iff _ _ _ _).mp hmem with rfl | hold
  · exact absurd (hkind.symm.trans htick) (by decide)
  · exact hold

/-- What a use keeps between two events. -/
theorem use (h : Kept J K) (htimely : how.Timely) (hself : Between True self ∧ J self) :
    Between True (after how.exec self) ∧ J (after how.exec self) := by
  have hbetween := hself.1.use htimely.allowed
  refine ⟨hbetween, ?_⟩
  rcases use_cases htimely.1 self with
    hsame | ⟨time, callback, hkind, -, hafter⟩ | ⟨paymentId, paymentType, work, hafter⟩ |
      ⟨hmoves, -⟩
  · rw [hsame]
    exact hself.2
  · rw [hafter] at hbetween ⊢
    exact h.moved self _ hself.2 hbetween (fun event hmem => mem_of_scheduled hkind hmem) le_rfl
  · rw [hafter]
    exact h.arrived self paymentId paymentType work hself.1 hself.2
  · exact absurd htimely.2 hmoves

/-- What it keeps in the middle of a tick. -/
theorem useDuring (h : Kept J K) (htimely : how.Timely)
    (hself : During True time rounds working self ∧ K time rounds working self) :
    During True time rounds working (after how.exec self) ∧
      K time rounds working (after how.exec self) := by
  refine ⟨hself.1.use htimely.allowed, ?_⟩
  rcases use_cases htimely.1 self with
    hsame | ⟨later, callback, hkind, -, hafter⟩ | ⟨paymentId, paymentType, work, hafter⟩ |
      ⟨hmoves, -⟩
  · rw [hsame]
    exact hself.2
  · rw [hafter]
    exact h.movedDuring time rounds working self _ hself.2
      fun event hmem => mem_of_scheduled hkind hmem
  · rw [hafter]
    exact h.arrivedDuring time rounds working self paymentId paymentType work hself.1 hself.2
  · exact absurd htimely.2 hmoves

section Run

variable {queue : Component σ (PaymentQueue ω (QueueCallback ω ξ))} {perform : ω → Action σ Unit}
  {other : ξ → Action σ Unit} {s : σ}
  (h : Kept J K) (hperform : ∀ work, OnlyMakes queue Use.exec Use.Timely (perform work))
  (hreturns : ∀ work s, ¬ Raises (perform work) s)

include h hperform hreturns

/-- One round of the loop. -/
theorem processItem (hs : During True time (rounds + 1) [] (queue.get s) ∧
    K time (rounds + 1) [] (queue.get s)) :
    ∃ t, (QueueWorker.processItem queue perform).run s = .ok () t ∧
      During True time rounds [] (queue.get t) ∧ K time rounds [] (queue.get t) := by
  rcases hs.1.take with ⟨item, begun, htaken, hbegun⟩
  have hrun : (QueueWorker.processItem queue perform).run s = _ := processItem_taken htaken
  have htaking := h.taken time rounds (queue.get s) begun item hs.1 hs.2 htaken
  have hworked := (hperform item.work).keeps
    (I := fun self => During True time rounds [item] self ∧ K time rounds [item] self)
    (fun self how hself htimely => h.useDuring htimely hself) (s := queue.set begun s)
    (by rw [queue.get_set]; exact ⟨hbegun, htaking⟩)
  cases hwork : (perform item.work).run (queue.set begun s) with
  | error e t => exact absurd ⟨e, t, hwork⟩ (hreturns item.work (queue.set begun s))
  | ok value t =>
      rw [hwork] at hrun
      rw [after_of_ok hwork] at hworked
      -- The clock still shows the time of the tick.
      have hnow : (queue.get s).scheduler.clock.time = time := (hs.1.paced trivial).1
      refine ⟨_, hrun, ?_⟩
      rw [queue.get_set, hnow]
      exact ⟨hworked.1.finish fun _ => rfl,
        h.finished time rounds (queue.get t) item hworked.1 hworked.2⟩

/-- So many rounds. -/
theorem processItems (rounds : Nat) :
    ∀ {s : σ}, During True time rounds [] (queue.get s) ∧ K time rounds [] (queue.get s) →
      ∃ t, (QueueWorker.processItems queue perform rounds).run s = .ok () t ∧
        During True time 0 [] (queue.get t) ∧ K time 0 [] (queue.get t) := by
  induction rounds with
  | zero => exact fun {s} hs => ⟨s, rfl, hs⟩
  | succ rounds ih =>
      intro s hs
      rcases h.processItem hperform hreturns hs with ⟨t, hfirst, ht⟩
      rcases ih ht with ⟨u, hrest, hu⟩
      exact ⟨u, (run_bind_of_ok hfirst).trans hrest, hu⟩

/-- The tick, on the world in which its event is gone. -/
theorem processTick {begun : PaymentQueue ω (QueueCallback ω ξ)}
    (hbegun : begun = (queue.get s).ticking (queue.get s).scheduler)
    (hs : During True time (min begun.worker.capacity begun.waiting.length) [] begun ∧
      K time (min begun.worker.capacity begun.waiting.length) [] begun) :
    Between True (queue.get (after (QueueWorker.processTick queue perform .tick) s)) ∧
      J (queue.get (after (QueueWorker.processTick queue perform .tick) s)) := by
  have hstart : (QueueWorker.processTick queue perform .tick).run s = _ :=
    processTick_start hbegun
  rcases h.processItems hperform hreturns _ (s := queue.set begun s)
    (by rw [queue.get_set]; exact hs) with ⟨t, hloop, ht⟩
  rw [run_bind_of_ok hloop, run_bind_get] at hstart
  cases hempty : (queue.get t).waiting.isEmpty with
  | true =>
      rw [if_neg (by simp [hempty])] at hstart
      rw [after_of_ok hstart]
      exact ⟨ht.1.rest hempty, h.rested time (queue.get t) ht.1 ht.2 hempty⟩
  | false =>
      rw [if_pos (by simp [hempty])] at hstart
      rw [after_of_ok (hstart.trans (Component.zoom_run_ok (wake_run _ _))), queue.get_set]
      exact ⟨ht.1.wake hempty, h.woken time (queue.get t) ht.1 ht.2 hempty⟩

variable (hother : ∀ callback, OnlyMakes queue Use.exec Use.Timely (other callback))

include hother

/-- The next event. -/
theorem runNext (hs : Between True (queue.get s) ∧ J (queue.get s)) :
    Between True (queue.get (after (EventScheduler.runNext (queue.comp schedulerOf)
        (QueueCallback.call queue perform other)) s)) ∧
      J (queue.get (after (EventScheduler.runNext (queue.comp schedulerOf)
        (QueueCallback.call queue perform other)) s)) := by
  rcases hs.1.paced trivial with ⟨last, hpaced⟩
  rcases EventScheduler.after_runNext (queue.comp schedulerOf)
    (QueueCallback.call queue perform other) s with
    ⟨-, hafter⟩ | ⟨event, rest, hqueue, hlate, -⟩ |
      ⟨event, rest, clock, history, hqueue, hdue, hclock, hafter⟩
  · rw [hafter]
    exact hs
  · -- With time in the scheduler's hands no event is late.
    change (queue.get s).scheduler.queue = event :: rest at hqueue
    change event.time < (queue.get s).scheduler.clock.time at hlate
    have hdue := hpaced.orderly.le_queued event (by rw [hqueue]; exact List.mem_cons_self)
    exact absurd hlate (not_lt.mpr hdue)
  · change (queue.get s).scheduler.queue = event :: rest at hqueue
    change (queue.get s).scheduler.clock.time ≤ event.time at hdue
    have hrecorded : ∀ t, Between True (queue.get t) ∧ J (queue.get t) →
        Between True { queue.get t with
            scheduler := (queue.get t).scheduler.withHistory history } ∧
          J { queue.get t with scheduler := (queue.get t).scheduler.withHistory history } :=
      fun t ht => ⟨ht.1.withHistory history,
        h.moved _ _ ht.2 (ht.1.withHistory history) (fun _ hmem _ => hmem) le_rfl⟩
    let ready := (queue.comp schedulerOf).set (((queue.comp schedulerOf).get s).ready clock rest) s
    have hget : queue.get ready = { queue.get s with
        scheduler := (queue.get s).scheduler.ready clock rest } := queue.get_comp_set _ _ _
    rw [hafter, queue.get_comp_set]
    refine hrecorded (after (QueueCallback.call queue perform other event.callback) ready) ?_
    cases hkind : event.callback.isTick with
    | true =>
        rw [QueueCallback.eq_tick hkind, QueueCallback.call]
        exact h.processTick hperform hreturns (ticking_set _ s)
          ⟨hs.1.ticking hqueue hkind hclock,
            h.begun (queue.get s) event _ hs.1 hs.2 hqueue hkind hclock⟩
    | false =>
        -- Any other event leaves the tick alone.
        have hready : Between True (queue.get ready) ∧ J (queue.get ready) := by
          have hpopped : Between True (queue.get ready) := by
            rw [hget]
            exact hs.1.popped hqueue hkind rfl fun _ => ⟨hdue.trans hclock.ge,
              hpaced.orderly.ready hqueue hclock⟩
          refine ⟨hpopped, ?_⟩
          rw [hget] at hpopped ⊢
          refine h.moved (queue.get s) _ hs.2 hpopped (fun later hmem _ => ?_)
            (hdue.trans hclock.ge)
          rw [hqueue]
          exact List.mem_cons_of_mem event hmem
        have hcall : OnlyMakes queue Use.exec Use.Timely
            (QueueCallback.call queue perform other event.callback) :=
          onlyMakes_call hother (fun _ _ _ => ⟨trivial, trivial⟩) hkind
        exact hcall.keeps (I := fun self => Between True self ∧ J self)
          (fun self how hself htimely => h.use htimely hself) hready

/-- A step of a run. -/
theorem step (hs : Between True (queue.get s) ∧ J (queue.get s)) {step : Step ω ξ}
    (hstep : step.Uses Use.Timely) :
    Between True (queue.get (after (step.exec queue perform other) s)) ∧
      J (queue.get (after (step.exec queue perform other) s)) := by
  cases step with
  | use how =>
      rw [Step.exec, Component.after_zoom, queue.get_set]
      exact h.use hstep hs
  | runNext =>
      rw [Step.exec, after_discard]
      exact h.runNext hperform hreturns hother hs

/-- A run. -/
theorem run (hs : Between True (queue.get s) ∧ J (queue.get s)) {steps : List (Step ω ξ)}
    (hsteps : ∀ step ∈ steps, step.Uses Use.Timely) :
    AllStates (Step.exec queue perform other)
      (fun t => Between True (queue.get t) ∧ J (queue.get t)) s steps := by
  refine allStates_of_allSteps (I := fun t => Between True (queue.get t) ∧ J (queue.get t))
    (C := fun _ step => Step.Uses Use.Timely step) (fun t step ht hstep => ?_) hs
    (allSteps_of_forall fun _ => hsteps)
  exact h.step hperform hreturns hother ht hstep

end Run

end Kept

end PaymentQueue

end BankSim
