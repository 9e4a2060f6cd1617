import BankSim.Theory.PoolLaw

/-!
# What a Worker Pool Keeps

A pool changes in four ways: its scheduler moves on, a payment arrives, a
worker takes one, and a worker is freed. What is kept by each of these is kept
by every step of a run, and this is where the step is taken apart, once for all
such properties.

A property may have to be suspended while a completion runs, because the work
of the payment can do to the pool what it likes before the payment counts as
completed. So there is one property for the time between two events and one
for the time in which a worker is away, as in the law of the pool. The worker
that is away keeps its payment, since a dispatch passes over it.

A payment may be welcome only in some states. `may` says in which, between two
events. Inside a completion every arrival is.

## Main definitions

* `WorkerPool.Kept`: A property that every use of a pool keeps.
* `WorkerPool.Lawful`: A property of the times between two events.
* `WorkerPool.Lets`, `WorkerPool.Step.Lets`: Arrivals are welcome.

## Theorems

* `Kept.use`: What a use keeps.
* `Lawful.complete`: What a completion restores.
* `Lawful.step`, `Lawful.run`: What a step keeps, and a run of such steps.
* `Lawful.always`: Every run, when payments are always welcome.
-/

namespace BankSim

open Exec

namespace WorkerPool

variable {ω ξ σ : Type}

/-- The use is the arrival of a payment. -/
def Use.Arrives : Use ω ξ → Prop
  | .enqueue paymentId _ _ => isBlank paymentId = false
  | .scheduleAt _ _ | .scheduleAfter _ _ | .advanceTo _ | .advanceBy _ => False

/-- A property `J` that every use of a pool keeps, if payments arrive only where
    they may. Until the dispatch that follows an arrival is over, it is `K` that
    holds. -/
structure Kept (may J K : WorkerPool ω (PoolCallback ω ξ) → Prop) : Prop where
  clock : ∀ (self : WorkerPool ω (PoolCallback ω ξ)) (scheduler : EventScheduler (PoolCallback ω ξ)),
    J self → scheduler.queue = self.scheduler.queue →
      self.scheduler.clock.time ≤ scheduler.clock.time → J { self with scheduler }
  scheduled : ∀ (self : WorkerPool ω (PoolCallback ω ξ)) (time : Int)
    (callback : PoolCallback ω ξ), J self → callback.frees = none →
      J { self with scheduler := self.scheduler.scheduled time callback }
  arrived : ∀ (self : WorkerPool ω (PoolCallback ω ξ)) (paymentId : String)
    (paymentType : PaymentType) (work : ω), J self → may self →
      K (self.arrived paymentId paymentType work)
  assigned : ∀ (self : WorkerPool ω (PoolCallback ω ξ)) (number : Nat) (item : QueuedPayment ω)
    (waiting : List (QueuedPayment ω)), K self → number < self.workers.length →
      self.isBusy number = false → self.waiting = item :: waiting →
        K (self.assigned .complete number item waiting)
  dispatched : ∀ self : WorkerPool ω (PoolCallback ω ξ), K self → J self

namespace Kept

variable {may J K : WorkerPool ω (PoolCallback ω ξ) → Prop}
  {self : WorkerPool ω (PoolCallback ω ξ)}

/-- The loop of a dispatch makes assignments to idle workers, and no more. -/
theorem dispatchOver (h : Kept may J K) (numbers : List Nat) :
    ∀ {self : WorkerPool ω (PoolCallback ω ξ)}, K self →
      (∀ number ∈ numbers, number < self.workers.length) →
      ∃ later, (WorkerPool.dispatchOver .complete numbers).run self = .ok () later ∧ K later := by
  induction numbers with
  | nil => exact fun hself _ => ⟨_, rfl, hself⟩
  | cons number numbers ih =>
      intro self hself hnumbers
      have hnumber := hnumbers number List.mem_cons_self
      have hrest : ∀ other ∈ numbers, other < self.workers.length :=
        fun other hmem => hnumbers other (List.mem_cons_of_mem number hmem)
      unfold WorkerPool.dispatchOver
      rw [run_bind_get]
      cases hwaiting : self.waiting with
      | nil => exact ⟨self, rfl, hself⟩
      | cons item waiting =>
          cases hbusy : self.isBusy number with
          | true =>
              simp only [if_true]
              exact ih hself hrest
          | false =>
              have hassigned := h.assigned self number item waiting hself hnumber hbusy hwaiting
              rcases ih hassigned (by rw [assigned_workers_length]; exact hrest) with
                ⟨later, hrun, hlater⟩
              refine ⟨later, ?_, hlater⟩
              simp only [Bool.false_eq_true, if_false]
              rw [run_bind_of_ok (assign_run _ number item waiting self)]
              exact hrun

theorem dispatch (h : Kept may J K) (hself : K self) :
    ∃ later, (WorkerPool.dispatch .complete).run self = .ok () later ∧ J later := by
  unfold WorkerPool.dispatch
  rw [run_bind_get]
  rcases h.dispatchOver (List.range self.workers.length) hself
    (fun number hmem => List.mem_range.mp hmem) with ⟨later, hrun, hlater⟩
  exact ⟨later, hrun, h.dispatched later hlater⟩

/-- What a use keeps. -/
theorem use (h : Kept may J K) {how : Use ω ξ} (hfair : how.Fair) (hmay : how.Arrives → may self)
    (hself : J self) : J (after how.exec self) := by
  rcases use_cases hfair self with
    hsame | ⟨time, callback, hfrees, hafter⟩ | ⟨paymentId, paymentType, work, hid, rfl, hafter⟩ |
      ⟨clock, htime, hafter⟩
  · rw [hsame]
    exact hself
  · rw [hafter]
    exact h.scheduled self time callback hself hfrees
  · have harrived := h.arrived self paymentId paymentType work hself (hmay hid)
    rcases h.dispatch harrived with ⟨later, hrun, hlater⟩
    rw [hafter later hrun]
    exact hlater
  · rw [hafter]
    exact h.clock self _ hself rfl htime

/-- What a program keeps whose uses are fair, and whose arrivals are where they
    may be. -/
theorem uses (h : Kept may J K) {uses : List (Use ω ξ)} (hfair : ∀ how ∈ uses, how.Fair)
    (hmay : AllSteps Use.exec (fun self how => how.Arrives → may self) self uses)
    (hself : J self) : J (finalState Use.exec self uses) := by
  induction uses generalizing self with
  | nil => exact hself
  | cons how uses ih =>
      rw [finalState_cons]
      exact ih (fun other hmem => hfair other (List.mem_cons_of_mem how hmem)) hmay.2
        (h.use (hfair how List.mem_cons_self) hmay.1 hself)

/-- A busy worker keeps its payment. -/
theorem occupied (h : Kept may J K) (number : Nat) (item : QueuedPayment ω) :
    Kept may (fun self => J self ∧ self.currentPayment number = some item)
      (fun self => K self ∧ self.currentPayment number = some item) where
  clock self scheduler hself hqueue htime := ⟨h.clock self scheduler hself.1 hqueue htime, hself.2⟩
  scheduled self time callback hself hfrees :=
    ⟨h.scheduled self time callback hself.1 hfrees, hself.2⟩
  arrived self paymentId paymentType work hself hmay :=
    ⟨h.arrived self paymentId paymentType work hself.1 hmay, hself.2⟩
  assigned self other next waiting hself hother hidle hwaiting := by
    refine ⟨h.assigned self other next waiting hself.1 hother hidle hwaiting, ?_⟩
    rw [currentPayment_assigned self _ next waiting hother number]
    -- The worker that takes the next payment is idle, so it is another one.
    have hne : other ≠ number := by
      rintro rfl
      rw [isBusy, hself.2] at hidle
      cases hidle
    rw [if_neg hne]
    exact hself.2
  dispatched self hself := ⟨h.dispatched self hself.1, hself.2⟩

end Kept

/-- A property of the times between two events, and what is left of it while a
    worker is away. -/
structure Lawful (may : WorkerPool ω (PoolCallback ω ξ) → Prop)
    (J K : Option Nat → WorkerPool ω (PoolCallback ω ξ) → Prop) : Prop where
  between : Kept may (J none) (K none)
  during : ∀ number, Kept (fun _ => True) (J (some number)) (K (some number))
  /-- An event leaves the queue. -/
  popped : ∀ (self : WorkerPool ω (PoolCallback ω ξ)) (event : Event (PoolCallback ω ξ))
    (scheduler : EventScheduler (PoolCallback ω ξ)), J none self →
      self.scheduler.queue = event :: scheduler.queue →
        self.scheduler.clock.time ≤ scheduler.clock.time → J none { self with scheduler }
  /-- It was the completion of a busy worker, and on time. -/
  begun : ∀ (self : WorkerPool ω (PoolCallback ω ξ)) (event : Event (PoolCallback ω ξ))
    (scheduler : EventScheduler (PoolCallback ω ξ)) (number : Nat) (item : QueuedPayment ω),
    J none self → self.scheduler.queue = event :: scheduler.queue →
      self.scheduler.clock.time ≤ scheduler.clock.time → scheduler.clock.time = event.time →
        event.callback = .complete number → self.currentPayment number = some item →
          J (some number) { self with scheduler }
  /-- The work is done. -/
  freed : ∀ (self : WorkerPool ω (PoolCallback ω ξ)) (number : Nat) (item : QueuedPayment ω),
    J (some number) self → self.currentPayment number = some item →
      K none (self.freed number item)

/-- The uses that a program makes of the pool are fair, and its payments arrive
    where they may. -/
def Lets (may : WorkerPool ω (PoolCallback ω ξ) → Prop)
    (pool : Component σ (WorkerPool ω (PoolCallback ω ξ))) (m : Action σ Unit) (s : σ) : Prop :=
  ∃ uses : List (Use ω ξ), (∀ how ∈ uses, how.Fair) ∧
    AllSteps Use.exec (fun self how => how.Arrives → may self) (pool.get s) uses ∧
    pool.get (after m s) = finalState Use.exec (pool.get s) uses

/-- The same for the callback of an event. What arrives in the middle of a
    completion is always welcome. -/
def CallbackLets (may : WorkerPool ω (PoolCallback ω ξ) → Prop)
    (pool : Component σ (WorkerPool ω (PoolCallback ω ξ))) (other : ξ → Action σ Unit) (s : σ) :
    PoolCallback ω ξ → Prop
  | .enqueue paymentId _ _ => isBlank paymentId = false → may (pool.get s)
  | .complete _ => True
  | .other callback => Lets may pool (other callback) s

/-- The same for a step of a run. -/
def Step.Lets (may : WorkerPool ω (PoolCallback ω ξ) → Prop)
    (pool : Component σ (WorkerPool ω (PoolCallback ω ξ))) (other : ξ → Action σ Unit) (s : σ) :
    Step ω ξ → Prop
  | .use how => how.Arrives → may (pool.get s)
  | .runNext => ∀ event rest, (pool.get s).scheduler.queue = event :: rest →
      (pool.get s).scheduler.clock.time ≤ event.time →
        ∀ clock : VirtualClock, clock.time = event.time →
          CallbackLets may pool other
            ((pool.comp schedulerOf).set ((pool.get s).scheduler.ready clock rest) s)
            event.callback

namespace Lawful

variable {may : WorkerPool ω (PoolCallback ω ξ) → Prop}
  {J K : Option Nat → WorkerPool ω (PoolCallback ω ξ) → Prop}
  {pool : Component σ (WorkerPool ω (PoolCallback ω ξ))} {perform : ω → Action σ Unit}
  {other : ξ → Action σ Unit}

section Run

variable (h : Lawful may J K)
  (hperform : ∀ work, OnlyMakes pool Use.exec Use.Fair (perform work))
  (hraised : ∀ work s number, Raises (perform work) s → ∀ self, J (some number) self →
    J none self)

include h hperform hraised

/-- A completion makes good what it suspends: the work returns and the worker is
    freed, or the work raises. -/
theorem complete {s : σ} {number : Nat} {item : QueuedPayment ω}
    (hself : J (some number) (pool.get s))
    (hitem : (pool.get s).currentPayment number = some item) :
    J none (pool.get (after (WorkerPool.complete .complete pool perform number) s)) := by
  have hworked := (hperform item.work).keeps
    (I := fun self => J (some number) self ∧ self.currentPayment number = some item)
    (fun self how hself hfair =>
      ((h.during number).occupied number item).use hfair (fun _ => trivial) hself)
    (s := s) ⟨hself, hitem⟩
  have hrun : (WorkerPool.complete .complete pool perform number).run s = _ :=
    complete_busy hitem
  cases hwork : (perform item.work).run s with
  | ok value t =>
      rw [after_of_ok hwork] at hworked
      rw [run_bind_of_ok hwork] at hrun
      have hfreed := h.freed (pool.get t) number item hworked.1 hworked.2
      rcases h.between.dispatch hfreed with ⟨later, hdispatch, hlater⟩
      rw [← finished_run] at hdispatch
      rw [after_of_ok (hrun.trans (Component.zoom_run_ok hdispatch)), pool.get_set]
      exact hlater
  | error e t =>
      rw [after_of_error hwork] at hworked
      rw [run_bind_of_error hwork] at hrun
      rw [after_of_error hrun]
      exact hraised item.work s number ⟨e, t, hwork⟩ _ hworked.1

/-- The callback of an event that has left the scheduler of a pool with the
    property makes it good again. -/
theorem call {s ready : σ} (hs : J none (pool.get s)) {event : Event (PoolCallback ω ξ)}
    {rest : List (Event (PoolCallback ω ξ))} {clock : VirtualClock}
    (hqueue : (pool.get s).scheduler.queue = event :: rest)
    (hdue : (pool.get s).scheduler.clock.time ≤ event.time) (hclock : clock.time = event.time)
    (hget : pool.get ready = { pool.get s with
      scheduler := (pool.get s).scheduler.ready clock rest })
    (hlets : CallbackLets may pool other ready event.callback) :
    J none (pool.get (after (PoolCallback.call pool perform other event.callback) ready)) := by
  have htime : (pool.get s).scheduler.clock.time
      ≤ ((pool.get s).scheduler.ready clock rest).clock.time :=
    hdue.trans (le_of_eq hclock.symm)
  have hready : J none (pool.get ready) := by
    rw [hget]
    exact h.popped _ event _ hs hqueue htime
  cases hevent : event.callback with
  | enqueue paymentId paymentType work =>
      rw [hevent] at hlets
      rw [PoolCallback.call, after_discard, Component.after_zoom, pool.get_set]
      have hfair : (Use.enqueue paymentId paymentType work : Use ω ξ).Fair := trivial
      have huse := h.between.use hfair hlets hready
      rwa [Use.exec, after_discard] at huse
  | complete number =>
      rw [PoolCallback.call]
      cases hitem : (pool.get ready).currentPayment number with
      | none =>
          rw [after_of_error (complete_idle hitem)]
          exact hready
      | some item =>
          refine h.complete hperform hraised ?_ hitem
          rw [hget] at hitem ⊢
          exact h.begun _ event _ number item hs hqueue htime hclock hevent hitem
  | other callback =>
      rw [hevent] at hlets
      have hwelcome : WorkerPool.Lets may pool (other callback) ready := hlets
      rcases hwelcome with ⟨uses, hfair, hmay, hfinal⟩
      rw [PoolCallback.call, hfinal]
      exact h.between.uses hfair hmay hready

/-- Between two events, a step whose arrivals are welcome keeps the property. -/
theorem step {s : σ} (hs : J none (pool.get s)) {step : Step ω ξ} (hfair : step.Fair)
    (hlets : Step.Lets may pool other s step) :
    J none (pool.get (after (step.exec pool perform other) s)) := by
  cases step with
  | use how =>
      rw [Step.exec, Component.after_zoom, pool.get_set]
      exact h.between.use hfair hlets hs
  | runNext =>
      rw [Step.exec, after_discard]
      rcases EventScheduler.after_runNext (pool.comp schedulerOf)
        (PoolCallback.call pool perform other) s with
        ⟨-, hafter⟩ | ⟨event, rest, hqueue, -, hafter⟩ |
          ⟨event, rest, clock, history, hqueue, hdue, hclock, hafter⟩
      · rw [hafter]
        exact hs
      · -- The event is late, and it is dropped.
        rw [hafter, pool.get_comp_set]
        exact h.popped _ event _ hs hqueue le_rfl
      · change (pool.get s).scheduler.queue = event :: rest at hqueue
        change (pool.get s).scheduler.clock.time ≤ event.time at hdue
        rw [hafter, pool.get_comp_set]
        have hlater := h.call hperform hraised hs hqueue hdue hclock (pool.get_comp_set _ _ _)
          (hlets event rest hqueue hdue clock hclock)
        exact h.between.clock _ _ hlater rfl le_rfl

/-- So does a run of such steps. -/
theorem run {s : σ} (hs : J none (pool.get s)) {steps : List (Step ω ξ)}
    (hsteps : ∀ step ∈ steps, step.Fair)
    (hlets : AllSteps (Step.exec pool perform other)
      (fun t step => step.Lets may pool other t) s steps) :
    AllStates (Step.exec pool perform other) (fun t => J none (pool.get t)) s steps := by
  induction steps generalizing s with
  | nil => exact hs
  | cons step steps ih =>
      have hfair := hsteps step List.mem_cons_self
      exact ⟨hs, ih (h.step hperform hraised hs hfair hlets.1)
        (fun later hmem => hsteps later (List.mem_cons_of_mem step hmem)) hlets.2⟩

end Run

/-- Where payments are always welcome, every run keeps the property. -/
theorem always (h : Lawful (fun _ => True) J K)
    (hperform : ∀ work, OnlyMakes pool Use.exec Use.Fair (perform work))
    (hother : ∀ callback, OnlyMakes pool Use.exec Use.Fair (other callback))
    (hraised : ∀ number self, J (some number) self → J none self) {s : σ}
    (hs : J none (pool.get s)) {steps : List (Step ω ξ)} (hsteps : ∀ step ∈ steps, step.Fair) :
    AllStates (Step.exec pool perform other) (fun t => J none (pool.get t)) s steps := by
  refine h.run hperform (fun _ _ number _ self => hraised number self) hs hsteps ?_
  refine allSteps_of_forall fun t step _ => ?_
  cases step with
  | use how => exact fun _ => trivial
  | runNext =>
      intro event rest _ _ clock _
      cases event.callback with
      | enqueue paymentId paymentType work => exact fun _ => trivial
      | complete number => trivial
      | other callback =>
          rcases hother callback
            ((pool.comp schedulerOf).set ((pool.get t).scheduler.ready clock rest) t) with
            ⟨uses, hfair, hfinal⟩
          exact ⟨uses, hfair, allSteps_of_forall fun _ _ _ _ => trivial, hfinal⟩

end Lawful

end WorkerPool

end BankSim
