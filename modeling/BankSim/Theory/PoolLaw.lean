import BankSim.Theory.WorkerCapacity

/-!
# The Law of a Worker Pool

A busy worker is one that a completion is going to free. Between two events
that is an equation between the pool and its scheduler: as many completions are
pending for a worker as it has payments, which is one or none. And nothing waits
unless everyone is busy, because every event that could change that ends with a
dispatch.

While a completion runs, its worker is `away`: still busy, and with no event
left to free it. The work of the payment may enqueue and schedule what it likes,
and a dispatch in the middle of it passes over the worker. If the work returns,
the worker is freed. If it raises, the worker stays away for good.

## Main definitions

* `WorkerPool.Use`, `WorkerPool.Step`: What can be done with a pool.
* `WorkerPool.Sound`: The law, in one state of a run.
* `WorkerPool.Staffed`: The invariant, with one worker possibly away.
* `WorkerPool.Step.Frees`: A completion is on time and its work returns.

## Theorems

* `dispatch_staffed`: A dispatch settles the pool.
* `use_cases`: What a use does to the pool.
* `staffed_use`: What a use keeps.
* `complete_staffed`: A completion frees its worker, or leaves it away.
* `sound_step`: A step keeps the invariant if it frees, and is seen to fail if
  it does not.
* `pool_sound_iff`: A run is sound exactly when all its steps free.
-/

namespace BankSim

open Exec

/-- The closure that frees a worker. -/
def PoolCallback.frees {ω ξ : Type} : PoolCallback ω ξ → Option Nat
  | .complete number => some number
  | .enqueue _ _ _ | .other _ => none

theorem PoolCallback.eq_complete {ω ξ : Type} {callback : PoolCallback ω ξ} {number : Nat}
    (h : callback.frees = some number) : callback = .complete number := by
  cases callback with
  | complete other =>
      cases h
      rfl
  | enqueue paymentId paymentType work => cases h
  | other callback => cases h

namespace WorkerPool

variable {ω ξ κ σ : Type}

/-- What can be done with a pool and its scheduler between two events, or from
    inside a callback. -/
inductive Use (ω ξ : Type)
  | enqueue (paymentId : String) (paymentType : PaymentType) (work : ω)
  | scheduleAt (time : Int) (callback : PoolCallback ω ξ)
  | scheduleAfter (delay : Int) (callback : PoolCallback ω ξ)
  | advanceTo (newTime : Int)
  | advanceBy (amount : Int)

def Use.exec : Use ω ξ → Action (WorkerPool ω (PoolCallback ω ξ)) Unit
  | .enqueue paymentId paymentType work => do
      let _ ← WorkerPool.enqueue .complete paymentId paymentType work
  | .scheduleAt time callback => schedulerOf.zoom (EventScheduler.scheduleAt time callback)
  | .scheduleAfter delay callback => schedulerOf.zoom (EventScheduler.scheduleAfter delay callback)
  | .advanceTo newTime => do
      let _ ← (schedulerOf.comp EventScheduler.clockOf).zoom (VirtualClock.advanceTo newTime)
  | .advanceBy amount => do
      let _ ← (schedulerOf.comp EventScheduler.clockOf).zoom (VirtualClock.advanceBy amount)

/-- The completions are the pool's own to schedule. -/
def Use.Fair : Use ω ξ → Prop
  | .scheduleAt _ callback | .scheduleAfter _ callback => callback.frees = none
  | .enqueue _ _ _ | .advanceTo _ | .advanceBy _ => True

/-- One step of a run. -/
inductive Step (ω ξ : Type)
  | use (how : Use ω ξ)
  | runNext

def Step.Fair : Step ω ξ → Prop
  | .use how => how.Fair
  | .runNext => True

def Step.exec (pool : Component σ (WorkerPool ω (PoolCallback ω ξ)))
    (perform : ω → Action σ Unit) (other : ξ → Action σ Unit) : Step ω ξ → Action σ Unit
  | .use how => pool.zoom how.exec
  | .runNext => do
      let _ ← EventScheduler.runNext (pool.comp schedulerOf) (PoolCallback.call pool perform other)

/-- How many completions are pending for the worker in a place. -/
def pendingFor (self : WorkerPool ω (PoolCallback ω ξ)) (number : Nat) : Nat :=
  self.scheduler.queue.countP fun event => event.callback.frees = some number

/-- The law of a worker pool, in one state of a run. -/
structure Sound (pool : WorkerPool ω (PoolCallback ω ξ)) : Prop where
  /-- A busy worker has one completion to come. -/
  busy : ∀ number, pool.isBusy number = true → pool.pendingFor number = 1
  /-- An idle worker has none. -/
  idle : ∀ number, pool.isBusy number = false → pool.pendingFor number = 0
  /-- Nothing waits unless all workers are busy. -/
  full : pool.waiting ≠ [] → ∀ number < pool.workers.length, pool.isBusy number = true

/-- Every worker has a completion to come for its payment, but for the one that
    is away, whose completion is running. -/
structure Staffed (away : Option Nat) (pool : WorkerPool ω (PoolCallback ω ξ)) : Prop where
  pending : ∀ number, pool.pendingFor number
    = if pool.isBusy number = true ∧ away ≠ some number then 1 else 0
  away : ∀ number ∈ away, pool.isBusy number = true

variable {away : Option Nat} {self : WorkerPool ω (PoolCallback ω ξ)}

/-- Only the workers and the queue of the scheduler matter. -/
theorem Staffed.of_eq (h : Staffed away self) {later : WorkerPool ω (PoolCallback ω ξ)}
    (hworkers : later.workers = self.workers)
    (hqueue : later.scheduler.queue = self.scheduler.queue) : Staffed away later := by
  have hbusy : ∀ number, later.isBusy number = self.isBusy number := by
    intro number
    unfold isBusy currentPayment
    rw [hworkers]
  constructor
  · intro number
    rw [hbusy]
    unfold pendingFor
    rw [hqueue]
    exact h.pending number
  · intro number hmem
    rw [hbusy]
    exact h.away number hmem

/-- Nobody looks at the history. -/
theorem Staffed.withHistory (h : Staffed away self) (history : List Execution) :
    Staffed away { self with scheduler := self.scheduler.withHistory history } :=
  h.of_eq rfl rfl

theorem pendingFor_scheduled (self : WorkerPool ω (PoolCallback ω ξ)) (time : Int)
    (callback : PoolCallback ω ξ) (number : Nat) :
    pendingFor { self with scheduler := self.scheduler.scheduled time callback } number
      = self.pendingFor number + if callback.frees = some number then 1 else 0 := by
  have hcount := EventScheduler.countP_scheduled self.scheduler time callback
    fun callback => decide (callback.frees = some number)
  simp only [decide_eq_true_eq] at hcount
  exact hcount

theorem Staffed.scheduled (h : Staffed away self) {callback : PoolCallback ω ξ}
    (hother : callback.frees = none) (time : Int) :
    Staffed away { self with scheduler := self.scheduler.scheduled time callback } where
  pending number := by
    rw [pendingFor_scheduled, hother, if_neg (by simp)]
    exact h.pending number
  away := h.away

/-- An idle worker takes a payment, and its completion is scheduled. -/
theorem Staffed.assigned (h : Staffed away self) {number : Nat}
    (hnumber : number < self.workers.length) (hidle : self.isBusy number = false)
    (item : QueuedPayment ω) (waiting : List (QueuedPayment ω)) :
    Staffed away (self.assigned .complete number item waiting) := by
  have hbusy : ∀ other, (self.assigned .complete number item waiting).isBusy other
      = if number = other then true else self.isBusy other := by
    intro other
    unfold isBusy
    rw [currentPayment_assigned self _ item waiting hnumber other]
    split_ifs <;> rfl
  have hpending : ∀ other, (self.assigned .complete number item waiting).pendingFor other
      = self.pendingFor other + if number = other then 1 else 0 := by
    intro other
    have hcount := pendingFor_scheduled self
      (self.scheduler.clock.time + self.configuration.processingTime) (.complete number) other
    simp only [PoolCallback.frees, Option.some.injEq] at hcount
    exact hcount
  -- The worker that is away is busy, so it is another one.
  have hothers : away ≠ some number := by
    intro haway
    have hbusy := h.away number haway
    rw [hidle] at hbusy
    cases hbusy
  constructor
  · intro other
    rw [hpending, hbusy, h.pending other]
    by_cases hother : number = other
    · subst hother
      simp [hidle, hothers]
    · simp [hother]
  · intro other hmem
    rw [hbusy]
    split_ifs
    · rfl
    · exact h.away other hmem

theorem assigned_isBusy_of (number : Nat) (hnumber : number < self.workers.length)
    (item : QueuedPayment ω) (waiting : List (QueuedPayment ω)) {other : Nat}
    (hbusy : number = other ∨ self.isBusy other = true) :
    (self.assigned .complete number item waiting).isBusy other = true := by
  unfold isBusy at hbusy ⊢
  rw [currentPayment_assigned self _ item waiting hnumber other]
  rcases hbusy with hsame | hbusy
  · rw [if_pos hsame]
    rfl
  · split_ifs
    · rfl
    · exact hbusy

/-- The loop of a dispatch, over any of the workers: it does not raise, and when
    it ends, nothing waits or all of them are busy. -/
theorem dispatchOver_staffed (numbers : List Nat) :
    ∀ {self : WorkerPool ω (PoolCallback ω ξ)}, Staffed away self →
      (∀ number ∈ numbers, number < self.workers.length) →
      ∃ later, (dispatchOver .complete numbers).run self = .ok () later ∧ Staffed away later ∧
        later.workers.length = self.workers.length ∧
        (∀ number, self.isBusy number = true → later.isBusy number = true) ∧
        (later.waiting = [] ∨ ∀ number ∈ numbers, later.isBusy number = true) := by
  induction numbers with
  | nil =>
      intro self h _
      exact ⟨self, rfl, h, rfl, fun _ hbusy => hbusy, Or.inr fun _ hmem => nomatch hmem⟩
  | cons number numbers ih =>
      intro self h hnumbers
      have hnumber := hnumbers number List.mem_cons_self
      have hrest : ∀ other ∈ numbers, other < self.workers.length :=
        fun other hmem => hnumbers other (List.mem_cons_of_mem number hmem)
      unfold dispatchOver
      rw [run_bind_get]
      cases hwaiting : self.waiting with
      | nil => exact ⟨self, rfl, h, rfl, fun _ hbusy => hbusy, Or.inl hwaiting⟩
      | cons item waiting =>
          cases hbusy : self.isBusy number with
          | true =>
              -- The worker is passed over.
              rcases ih h hrest with ⟨later, hrun, hlater, hlength, hkeeps, hdone⟩
              refine ⟨later, ?_, hlater, hlength, hkeeps, hdone.imp_right fun hall => ?_⟩
              · simp only [if_true]
                exact hrun
              · exact List.forall_mem_cons.mpr ⟨hkeeps number hbusy, hall⟩
          | false =>
              have hassigned := h.assigned hnumber hbusy item waiting
              rcases ih hassigned (by rw [assigned_workers_length]; exact hrest) with
                ⟨later, hrun, hlater, hlength, hkeeps, hdone⟩
              refine ⟨later, ?_, hlater, ?_, fun other hother => ?_, hdone.imp_right fun hall => ?_⟩
              · simp only [Bool.false_eq_true, if_false]
                rw [run_bind_of_ok (assign_run _ number item waiting self)]
                exact hrun
              · rw [hlength, assigned_workers_length]
              · exact hkeeps other (assigned_isBusy_of number hnumber item waiting (Or.inr hother))
              · refine List.forall_mem_cons.mpr ⟨hkeeps number ?_, hall⟩
                exact assigned_isBusy_of number hnumber item waiting (Or.inl rfl)

/-- A dispatch settles the pool. -/
theorem dispatch_staffed (h : Staffed away self) :
    ∃ later, (dispatch .complete).run self = .ok () later ∧ Staffed away later ∧
      later.Settled := by
  rcases dispatchOver_staffed (List.range self.workers.length) h
    (fun number hmem => List.mem_range.mp hmem) with ⟨later, hrun, hlater, hlength, -, hdone⟩
  refine ⟨later, ?_, hlater, hdone.imp_right fun hall number hnumber => ?_⟩
  · unfold dispatch
    rw [run_bind_get]
    exact hrun
  · rw [hlength] at hnumber
    exact hall number (List.mem_range.mpr hnumber)

/-- A use is refused and does nothing, or it queues an event, or a payment
    arrives and is dispatched, or the clock moves forward. -/
theorem use_cases {how : Use ω ξ} (hfair : how.Fair) (self : WorkerPool ω (PoolCallback ω ξ)) :
    after how.exec self = self ∨
      (∃ time callback, callback.frees = none ∧
        after how.exec self
          = { self with scheduler := self.scheduler.scheduled time callback }) ∨
      (∃ paymentId paymentType work, isBlank paymentId = false ∧
        how = .enqueue paymentId paymentType work ∧
        ∀ later, (dispatch .complete).run (self.arrived paymentId paymentType work) = .ok () later →
          after how.exec self = later) ∨
      (∃ clock : VirtualClock, self.scheduler.clock.time ≤ clock.time ∧
        after how.exec self = { self with scheduler := { self.scheduler with clock } }) := by
  cases how with
  | enqueue paymentId paymentType work =>
      rw [Use.exec, after_discard]
      by_cases hid : isBlank paymentId = true
      · refine Or.inl (after_of_error (e := valueError "payment identifier cannot be blank") ?_)
        unfold WorkerPool.enqueue
        rw [if_pos hid]
        rfl
      · have hid : isBlank paymentId = false := Bool.not_eq_true _ ▸ hid
        refine Or.inr (Or.inr (Or.inl
          ⟨paymentId, paymentType, work, hid, rfl, fun later hrun => ?_⟩))
        have henqueue := enqueue_run .complete hid paymentType work self
        rw [run_bind_of_ok hrun] at henqueue
        exact after_of_ok henqueue
  | scheduleAt time callback =>
      rw [Use.exec, Component.after_zoom, EventScheduler.after_scheduleAt]
      unfold EventScheduler.offered
      split_ifs
      · exact Or.inr (Or.inl ⟨time, callback, hfair, rfl⟩)
      · exact Or.inl rfl
  | scheduleAfter delay callback =>
      rw [Use.exec, Component.after_zoom]
      by_cases hdelay : 0 ≤ delay
      · rw [after_of_ok (EventScheduler.scheduleAfter_of_nonneg callback hdelay)]
        exact Or.inr (Or.inl ⟨_, callback, hfair, rfl⟩)
      · rcases @EventScheduler.scheduleAfter_of_neg _ (schedulerOf.get self) delay callback
          (not_le.mp hdelay) with ⟨e, he⟩
        rw [after_of_error he]
        exact Or.inl rfl
  | advanceTo newTime =>
      rw [Use.exec, after_discard, Component.after_zoom]
      exact Or.inr (Or.inr (Or.inr ⟨_, EventScheduler.le_advanceTo newTime _, rfl⟩))
  | advanceBy amount =>
      rw [Use.exec, after_discard, Component.after_zoom]
      exact Or.inr (Or.inr (Or.inr ⟨_, EventScheduler.le_advanceBy amount _, rfl⟩))

/-- What a use keeps, also in the middle of a completion. -/
theorem staffed_use {how : Use ω ξ} (hfair : how.Fair) (h : Staffed away self)
    (hsettled : self.Settled) :
    Staffed away (after how.exec self) ∧ (after how.exec self).Settled := by
  rcases use_cases hfair self with
    hsame | ⟨time, callback, hfrees, hafter⟩ | ⟨paymentId, paymentType, work, -, -, hafter⟩ |
      ⟨clock, -, hafter⟩
  · rw [hsame]
    exact ⟨h, hsettled⟩
  · rw [hafter]
    exact ⟨h.scheduled hfrees time, hsettled⟩
  · -- The arrival changes neither workers nor events, and is then dispatched.
    have harrived : Staffed away (self.arrived paymentId paymentType work) := h.of_eq rfl rfl
    rcases dispatch_staffed harrived with ⟨later, hrun, hlater⟩
    rw [hafter later hrun]
    exact hlater
  · rw [hafter]
    exact ⟨h.of_eq rfl rfl, hsettled⟩

/-! ### A completion -/

section Completion

variable {pool : Component σ (WorkerPool ω (PoolCallback ω ξ))} {perform : ω → Action σ Unit}

/-- The worker whose payment is done is idle, and has no completion to come. -/
theorem Staffed.freed {number : Nat} (h : Staffed (some number) self) (item : QueuedPayment ω) :
    Staffed none (self.freed number item) where
  pending other := by
    have hpending := h.pending other
    have hbusy : (self.freed number item).isBusy other
        = if number = other then false else self.isBusy other := by
      unfold isBusy
      rw [currentPayment_freed]
      split_ifs <;> rfl
    rw [hbusy]
    change self.pendingFor other = _
    rw [hpending]
    by_cases hother : number = other
    · simp [hother]
    · simp [hother]
  away other hmem := nomatch hmem

variable (hperform : ∀ work, OnlyMakes pool Use.exec Use.Fair (perform work))

include hperform

/-- A completion whose event is gone: its work returns and the worker is freed, or
    its work raises and the worker stays away. -/
theorem complete_staffed {s : σ} {number : Nat} (h : Staffed (some number) (pool.get s))
    (hsettled : (pool.get s).Settled) :
    ∃ item, (pool.get s).currentPayment number = some item ∧
      ((¬ Raises (perform item.work) s ∧
          Staffed none (pool.get (after (complete .complete pool perform number) s)) ∧
          (pool.get (after (complete .complete pool perform number) s)).Settled) ∨
        (Raises (perform item.work) s ∧
          Staffed (some number) (pool.get (after (complete .complete pool perform number) s)))) := by
  have hbusy := h.away number rfl
  unfold isBusy at hbusy
  rcases Option.isSome_iff_exists.mp hbusy with ⟨item, hitem⟩
  refine ⟨item, hitem, ?_⟩
  have hworked := (hperform item.work).keeps
    (I := fun self => Staffed (some number) self ∧ self.Settled)
    (fun self how hself hfair => staffed_use hfair hself.1 hself.2) (s := s) ⟨h, hsettled⟩
  have hrun : (complete .complete pool perform number).run s = _ := complete_busy hitem
  cases hwork : (perform item.work).run s with
  | ok value t =>
      rw [after_of_ok hwork] at hworked
      rw [run_bind_of_ok hwork] at hrun
      -- The worker is idle for a moment, and then the pool is dispatched.
      rcases dispatch_staffed (hworked.1.freed item) with ⟨later, hdispatch, hlater, hdone⟩
      rw [← finished_run] at hdispatch
      refine Or.inl ⟨?_, ?_⟩
      · rintro ⟨e, u, herror⟩
        rw [hwork] at herror
        cases herror
      · rw [after_of_ok (hrun.trans (Component.zoom_run_ok hdispatch)), pool.get_set]
        exact ⟨hlater, hdone⟩
  | error e t =>
      rw [after_of_error hwork] at hworked
      rw [run_bind_of_error hwork] at hrun
      refine Or.inr ⟨⟨e, t, hwork⟩, ?_⟩
      rw [after_of_error hrun]
      exact hworked.1

end Completion

/-! ### Runs -/

section Runs

variable (pool : Component σ (WorkerPool ω (PoolCallback ω ξ))) (perform : ω → Action σ Unit)

/-- If the step comes to a completion, then the clock has not passed it, and the
    work of its payment returns. -/
def Step.Frees (s : σ) : Step ω ξ → Prop
  | .use _ => True
  | .runNext => ∀ event rest, (pool.get s).scheduler.queue = event :: rest →
      ∀ number ∈ event.callback.frees, (pool.get s).scheduler.clock.time ≤ event.time ∧
        ∀ clock : VirtualClock, clock.time = event.time →
          ∀ item ∈ (pool.get s).currentPayment number,
            ¬ Raises (perform item.work)
              ((pool.comp schedulerOf).set ((pool.get s).scheduler.ready clock rest) s)

variable {pool perform} {other : ξ → Action σ Unit}

/-- What holds between two events. -/
def Between (self : WorkerPool ω (PoolCallback ω ξ)) : Prop :=
  Staffed none self ∧ self.Settled

theorem Between.sound (h : Between self) : Sound self where
  busy number hbusy := by
    rw [h.1.pending number, hbusy]
    simp
  idle number hidle := by
    rw [h.1.pending number, hidle]
    simp
  full hwaits := h.2.resolve_left hwaits

/-- A worker that is away is busy with no completion to come. -/
theorem Staffed.not_sound {number : Nat} (h : Staffed (some number) self) : ¬ Sound self := by
  intro hsound
  have hone := hsound.busy number (h.away number rfl)
  have hnone := h.pending number
  rw [if_neg (fun hand => hand.2 rfl)] at hnone
  omega

theorem between_new (configuration : CapacityConfiguration) (clock : VirtualClock) :
    Between (WorkerPool.new (EventScheduler.new clock) configuration
      : WorkerPool ω (PoolCallback ω ξ)) := by
  refine ⟨⟨fun number => ?_, fun number hmem => nomatch hmem⟩, Or.inl rfl⟩
  have hidle : (WorkerPool.new (EventScheduler.new clock) configuration
      : WorkerPool ω (PoolCallback ω ξ)).isBusy number = false := by
    unfold isBusy currentPayment WorkerPool.new
    rw [List.getElem?_map]
    cases (List.range configuration.workerCount)[number]? <;> rfl
  rw [hidle]
  rfl

/-- The event of a completion leaves the scheduler, and its worker is away. -/
theorem Between.completing (h : Between self) {event : Event (PoolCallback ω ξ)}
    {rest : List (Event (PoolCallback ω ξ))} (hqueue : self.scheduler.queue = event :: rest)
    {number : Nat} (hfrees : event.callback.frees = some number)
    {scheduler : EventScheduler (PoolCallback ω ξ)} (hrest : scheduler.queue = rest) :
    Staffed (some number) { self with scheduler } := by
  have hpending : ∀ other, self.pendingFor other
      = pendingFor { self with scheduler } other + if number = other then 1 else 0 := by
    intro other
    unfold pendingFor
    rw [hqueue, hrest, List.countP_cons, hfrees]
    simp
  constructor
  · intro other
    have hbefore := h.1.pending other
    rw [hpending other] at hbefore
    change pendingFor { self with scheduler } other
      = if self.isBusy other = true ∧ some number ≠ some other then 1 else 0
    by_cases hother : number = other
    · subst hother
      simp at hbefore ⊢
      split_ifs at hbefore
      omega
    · simpa [hother] using hbefore
  · intro other hmem
    cases hmem
    change self.isBusy number = true
    -- A completion was pending for the worker, so it is busy.
    have hbefore := h.1.pending number
    rw [hpending number, if_pos rfl] at hbefore
    by_contra hidle
    rw [if_neg (fun hand => hidle hand.1)] at hbefore
    omega

/-- Any other event leaves the scheduler. -/
theorem Between.popped (h : Between self) {event : Event (PoolCallback ω ξ)}
    {rest : List (Event (PoolCallback ω ξ))} (hqueue : self.scheduler.queue = event :: rest)
    (hfrees : event.callback.frees = none)
    {scheduler : EventScheduler (PoolCallback ω ξ)} (hrest : scheduler.queue = rest) :
    Between { self with scheduler } := by
  refine ⟨⟨fun number => ?_, h.1.away⟩, h.2⟩
  have hbefore := h.1.pending number
  unfold pendingFor at hbefore ⊢
  rw [hqueue, List.countP_cons, hfrees] at hbefore
  rw [hrest]
  exact hbefore

/-- A step that comes to anything else frees. -/
theorem frees_of_other {s : σ}
    (h : ∀ event rest, (pool.get s).scheduler.queue = event :: rest →
      event.callback.frees = none) : Step.Frees pool perform s .runNext := by
  intro event rest hqueue number hmem
  rw [h event rest hqueue] at hmem
  cases hmem

/-- The condition on a step that comes to a completion is about that completion. -/
theorem frees_complete_iff {s : σ} {event : Event (PoolCallback ω ξ)}
    {rest : List (Event (PoolCallback ω ξ))} {clock : VirtualClock} {number : Nat}
    {item : QueuedPayment ω} (hqueue : (pool.get s).scheduler.queue = event :: rest)
    (hdue : (pool.get s).scheduler.clock.time ≤ event.time) (hclock : clock.time = event.time)
    (hfrees : event.callback.frees = some number)
    (hitem : (pool.get s).currentPayment number = some item) :
    Step.Frees pool perform s .runNext ↔ ¬ Raises (perform item.work)
      ((pool.comp schedulerOf).set ((pool.get s).scheduler.ready clock rest) s) := by
  constructor
  · exact fun hall => (hall event rest hqueue number hfrees).2 clock hclock item hitem
  · intro hreturns event' rest' hqueue' number' hmem
    cases hqueue.symm.trans hqueue'
    cases hfrees.symm.trans hmem
    refine ⟨hdue, fun clock' hclock' item' hmem' => ?_⟩
    cases hitem.symm.trans hmem'
    have hsame : clock' = clock := by
      cases clock'
      cases clock
      simp_all
    rw [hsame]
    exact hreturns

/-- A callback other than a completion only makes uses. -/
theorem onlyMakes_call {allowed : Use ω ξ → Prop}
    (hother : ∀ callback, OnlyMakes pool Use.exec allowed (other callback))
    (henqueue : ∀ paymentId paymentType work, allowed (.enqueue paymentId paymentType work))
    {callback : PoolCallback ω ξ} (hfrees : callback.frees = none) :
    OnlyMakes pool Use.exec allowed (PoolCallback.call pool perform other callback) := by
  cases callback with
  | complete number => cases hfrees
  | enqueue paymentId paymentType work =>
      intro s
      refine ⟨[.enqueue paymentId paymentType work], fun how hmem => ?_, ?_⟩
      · rw [List.mem_singleton.mp hmem]
        exact henqueue paymentId paymentType work
      · rw [PoolCallback.call, after_discard, Component.after_zoom, pool.get_set]
        exact (after_discard _ _).symm
  | other callback => exact hother callback

variable (hperform : ∀ work, OnlyMakes pool Use.exec Use.Fair (perform work))
  (hother : ∀ callback, OnlyMakes pool Use.exec Use.Fair (other callback))

include hperform

/-- A completion that is on time keeps the invariant if its work returns. If that
    raises, its worker stays busy. -/
theorem sound_complete {s : σ} (h : Between (pool.get s)) {event : Event (PoolCallback ω ξ)}
    {rest : List (Event (PoolCallback ω ξ))} {clock : VirtualClock} {number : Nat}
    (hqueue : (pool.get s).scheduler.queue = event :: rest)
    (hdue : (pool.get s).scheduler.clock.time ≤ event.time) (hclock : clock.time = event.time)
    (hfrees : event.callback.frees = some number) {ready : σ}
    (hready : ready = (pool.comp schedulerOf).set ((pool.get s).scheduler.ready clock rest) s) :
    (Step.Frees pool perform s .runNext ∧ Between
        (pool.get (after (PoolCallback.call pool perform other event.callback) ready))) ∨
      (¬ Step.Frees pool perform s .runNext ∧ Staffed (some number)
        (pool.get (after (PoolCallback.call pool perform other event.callback) ready))) := by
  have hget : pool.get ready = { pool.get s with
      scheduler := (pool.get s).scheduler.ready clock rest } := by
    rw [hready]
    exact pool.get_comp_set _ _ _
  have haway : Staffed (some number) (pool.get ready) := by
    rw [hget]
    exact h.completing hqueue hfrees rfl
  have hsettled : (pool.get ready).Settled := by
    rw [hget]
    exact h.2
  rcases complete_staffed hperform haway hsettled with ⟨item, hitem, hcases⟩
  rw [hget] at hitem
  rw [frees_complete_iff hqueue hdue hclock hfrees hitem, PoolCallback.eq_complete hfrees,
    ← hready]
  rcases hcases with ⟨hreturns, hstaffed, hdone⟩ | hstuck
  · exact Or.inl ⟨hreturns, hstaffed, hdone⟩
  · exact Or.inr ⟨fun hnot => hnot hstuck.1, hstuck.2⟩

include hother

/-- Between two events, a step that frees keeps the invariant. After any other
    step a worker is busy without a completion to come. -/
theorem sound_step {s : σ} (h : Between (pool.get s)) {step : Step ω ξ} (hfair : step.Fair) :
    (Step.Frees pool perform s step →
        Between (pool.get (after (step.exec pool perform other) s))) ∧
      (¬ Step.Frees pool perform s step →
        ¬ Sound (pool.get (after (step.exec pool perform other) s))) := by
  cases step with
  | use how =>
      refine ⟨fun _ => ?_, fun hfails => absurd trivial hfails⟩
      rw [Step.exec, Component.after_zoom, pool.get_set]
      exact staffed_use hfair h.1 h.2
  | runNext =>
      rw [Step.exec, after_discard]
      rcases EventScheduler.after_runNext (pool.comp schedulerOf)
        (PoolCallback.call pool perform other) s with
        ⟨hnil, hafter⟩ | ⟨event, rest, hqueue, hlate, hafter⟩ |
          ⟨event, rest, clock, history, hqueue, hdue, hclock, hafter⟩
      · -- There was nothing to run.
        change (pool.get s).scheduler.queue = [] at hnil
        rw [hafter]
        refine ⟨fun _ => h, fun hfails => absurd (frees_of_other fun event rest hqueue => ?_)
          hfails⟩
        rw [hnil] at hqueue
        cases hqueue
      · change (pool.get s).scheduler.queue = event :: rest at hqueue
        change event.time < (pool.get s).scheduler.clock.time at hlate
        rw [hafter, pool.get_comp_set]
        cases hfrees : event.callback.frees with
        | some number =>
            -- The completion was late, and it is dropped.
            refine ⟨fun hall => ?_, fun _ => (h.completing hqueue hfrees rfl).not_sound⟩
            exact absurd (hall event rest hqueue number hfrees).1 (not_le.mpr hlate)
        | none =>
            refine ⟨fun _ => h.popped hqueue hfrees rfl,
              fun hfails => absurd (frees_of_other fun event' rest' hqueue' => ?_) hfails⟩
            cases hqueue.symm.trans hqueue'
            exact hfrees
      · change (pool.get s).scheduler.queue = event :: rest at hqueue
        change (pool.get s).scheduler.clock.time ≤ event.time at hdue
        rw [hafter, pool.get_comp_set]
        let ready := (pool.comp schedulerOf).set
          (((pool.comp schedulerOf).get s).ready clock rest) s
        have hget : pool.get ready = { pool.get s with
            scheduler := (pool.get s).scheduler.ready clock rest } := pool.get_comp_set _ _ _
        cases hfrees : event.callback.frees with
        | some number =>
            rcases sound_complete hperform h hqueue hdue hclock hfrees rfl with
              ⟨hall, hbetween⟩ | ⟨hfails, hstuck⟩
            · exact ⟨fun _ => ⟨hbetween.1.withHistory history, hbetween.2⟩,
                fun hnot => absurd hall hnot⟩
            · exact ⟨fun hall => absurd hall hfails,
                fun _ => (hstuck.withHistory history).not_sound⟩
        | none =>
            have hready : Between (pool.get ready) := by
              rw [hget]
              exact h.popped hqueue hfrees rfl
            have hcall : OnlyMakes pool Use.exec Use.Fair
                (PoolCallback.call pool perform other event.callback) :=
              onlyMakes_call hother (fun _ _ _ => trivial) hfrees
            have hlater := hcall.keeps (I := Between)
              (fun self how hself hhow => staffed_use hhow hself.1 hself.2) hready
            refine ⟨fun _ => ⟨hlater.1.withHistory history, hlater.2⟩,
              fun hfails => absurd (frees_of_other fun event' rest' hqueue' => ?_) hfails⟩
            cases hqueue.symm.trans hqueue'
            exact hfrees

end Runs

/-- In a run in which works may raise, with the exceptions caught and the
    scheduler run again, every busy worker has one completion to come, no idle
    one has any and nothing waits while one is idle, exactly when every
    completion that a step comes to is on time and its work returns. -/
theorem pool_sound_iff (pool : Component σ (WorkerPool ω (PoolCallback ω ξ)))
    (perform : ω → Action σ Unit) (other : ξ → Action σ Unit)
    (hperform : ∀ work, OnlyMakes pool Use.exec Use.Fair (perform work))
    (hother : ∀ callback, OnlyMakes pool Use.exec Use.Fair (other callback))
    (clock : VirtualClock) (configuration : CapacityConfiguration) (s : σ)
    (steps : List (Step ω ξ)) (hsteps : ∀ step ∈ steps, step.Fair) :
    let start := pool.set (WorkerPool.new (EventScheduler.new clock) configuration) s
    AllStates (Step.exec pool perform other) (fun t => Sound (pool.get t)) start steps ↔
      AllSteps (Step.exec pool perform other) (fun t step => step.Frees pool perform t) start
        steps := by
  intro start
  have hstart : Between (pool.get start) := by
    rw [pool.get_set]
    exact between_new configuration clock
  rw [allStates_iff_after]
  refine (and_iff_right hstart.sound).trans ?_
  refine allSteps_congr_of (I := fun t => Between (pool.get t)) (D := Step.Fair)
    (fun t step ht hstep => (sound_step hperform hother ht hstep).1) ?_ hstart hsteps
  -- Until a step fails to free the invariant holds, and then the failure shows.
  intro t step ht hstep
  have hcases := sound_step hperform hother ht hstep
  constructor
  · exact fun hsound => by_contra fun hfails => hcases.2 hfails hsound
  · exact fun hfrees => (hcases.1 hfrees).sound

/-- Work that raises, or does nothing. -/
def faultyWork : Bool → Action (WorkerPool Bool (PoolCallback Bool Empty)) Unit
  | true => throw ⟨.runtimeError, "processor unavailable"⟩
  | false => return

/-- One worker, who takes a minute for a payment. -/
def oneWorker : CapacityConfiguration :=
  { workerCount := 1, processingTime := 1 }

/-- One payment whose work raises, and one that waits behind it. -/
def faultyRun : List (Step Bool Empty) :=
  [.use (.enqueue "PAY-1" .achTransfer true), .use (.enqueue "PAY-2" .achTransfer false), .runNext]

theorem pool_sound_iff_faulty :
    let start : WorkerPool Bool (PoolCallback Bool Empty) :=
      WorkerPool.new EventScheduler.new oneWorker
    AllStates (Step.exec Component.whole faultyWork Empty.elim) Sound start faultyRun ↔
      AllSteps (Step.exec Component.whole faultyWork Empty.elim)
        (fun t step => step.Frees Component.whole faultyWork t) start faultyRun :=
  pool_sound_iff Component.whole faultyWork Empty.elim
    (fun work _ => ⟨[], fun how hmem => absurd hmem List.not_mem_nil, by cases work <;> rfl⟩)
    (fun callback => callback.elim) ⟨0, by decide⟩ oneWorker
    (WorkerPool.new EventScheduler.new oneWorker) faultyRun
    (by simp [faultyRun, Step.Fair, Use.Fair])

/-- The worker stays busy with the first payment, and nothing will free it. -/
theorem faultyWork_wedges_worker :
    ¬ AllStates (Step.exec Component.whole faultyWork Empty.elim) Sound
      (WorkerPool.new EventScheduler.new oneWorker : WorkerPool Bool (PoolCallback Bool Empty))
      faultyRun := by
  intro hall
  have hbusy := (allStates_finalState hall).busy 0
  revert hbusy
  decide

end WorkerPool

end BankSim
