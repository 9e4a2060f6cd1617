import BankSim.Core.WorkerCapacity
import BankSim.Library.Servers
import BankSim.Theory.Dispatch

/-!
# What the Methods of a Pool Do

Each method of the worker pool is a change of the pool, followed by a dispatch.
Between two events the pool is `Settled`, nothing waits or everyone is busy,
and then dispatching does nothing. An event can unsettle it by one payment or
by one worker only, so the dispatch that follows makes one assignment, which
settles it again.

`Books` is the pool as it looks when so many payments arrived, so many of them
started and so many are completed: the completed ones come first, then those
that run, then those that wait, all in the order of arrival, and the times
are those of the recurrence. An arrival, an assignment and a completion move
one of the three numbers along.

## Main definitions

* `WorkerPool.assigned`, `WorkerPool.arrived`, `WorkerPool.freed`: The changes.
* `WorkerPool.Settled`: There is nothing to dispatch.
* `WorkerPool.startTime`, `WorkerPool.Served`: The times of a payment.
* `WorkerPool.Books`: The pool after so many events of each kind.

## Theorems

* `dispatch_settled`, `dispatch_assigned`: The outcomes of a dispatch.
* `Books.exists_idle`, `Books.all_busy`: How many payments run.
* `Books.arrive`, `Books.assign`, `Books.free`: The three events.
-/

namespace BankSim

open Exec

theorem CapacityConfiguration.new_of_pos {workerCount processingTime : Int}
    (hworkers : 0 < workerCount) (hprocessing : 0 < processingTime) :
    ∃ configuration, CapacityConfiguration.new workerCount processingTime = .ok configuration := by
  unfold CapacityConfiguration.new
  rw [dif_neg (by omega), dif_neg (by omega)]
  exact ⟨_, rfl⟩

namespace WorkerPool

variable {ω κ : Type}

/-! ### What the methods of a pool do -/

def recorded (self : WorkerPool ω κ) : WorkerPool ω κ :=
  { self with
    depthArea := self.depthArea +
      self.waiting.length * (self.scheduler.clock.time - self.depthLastChanged)
    depthLastChanged := self.scheduler.clock.time }

def logged (self : WorkerPool ω κ) (action : CapacityAction) (paymentId : String)
    (workerId : Option String) : WorkerPool ω κ :=
  { self with
    events := self.events ++
      [⟨self.scheduler.clock.time, action, paymentId, workerId, self.waiting.length⟩] }

/-- The pool with the work of a place changed. -/
def onWorker (self : WorkerPool ω κ) (number : Nat)
    (change : PaymentWorker ω → PaymentWorker ω) : WorkerPool ω κ :=
  { self with workers := self.workers.modify number change }

/-- A payment that starts now. -/
def started (self : WorkerPool ω κ) (item : QueuedPayment ω) : QueuedPayment ω :=
  { item with processingStartedAt := some self.scheduler.clock.time }

/-- The pool after the worker in a place was given a payment. -/
def assigned (self : WorkerPool ω κ) (finish : Nat → κ) (number : Nat) (item : QueuedPayment ω)
    (waiting : List (QueuedPayment ω)) : WorkerPool ω κ :=
  let moved := ({ self.recorded with waiting } : WorkerPool ω κ).onWorker number fun worker =>
    { worker with currentPayment := some (self.started item) }
  { moved.logged .assigned item.paymentId (moved.workerId number) with
    scheduler := self.scheduler.scheduled
      (self.scheduler.clock.time + self.configuration.processingTime) (finish number) }

theorem assign_run (finish : Nat → κ) (number : Nat) (item : QueuedPayment ω)
    (waiting : List (QueuedPayment ω)) (self : WorkerPool ω κ) :
    (assign finish number item waiting).run self
      = .ok () (self.assigned finish number item waiting) := by
  have hpos := self.configuration.processingTime_pos
  exact Component.zoom_run_ok (p := schedulerOf)
    (EventScheduler.scheduleAfter_of_nonneg (finish number) (le_of_lt hpos))

/-- What a payment that arrives now is queued as. -/
def accepted (self : WorkerPool ω κ) (paymentId : String) (paymentType : PaymentType)
    (work : ω) : QueuedPayment ω :=
  { paymentId, paymentType, queuedAt := self.scheduler.clock.time
    queuePosition := self.waiting.length + 1, arrivalOrder := self.arrivalOrder, work }

/-- The pool after a payment arrived, before it is given to a worker. -/
def arrived (self : WorkerPool ω κ) (paymentId : String) (paymentType : PaymentType)
    (work : ω) : WorkerPool ω κ :=
  let opened : WorkerPool ω κ :=
    { self with firstArrival := some (self.firstArrival.getD self.scheduler.clock.time) }
  let joined : WorkerPool ω κ :=
    { opened.recorded with
      arrivalOrder := self.arrivalOrder + 1
      waiting := self.waiting ++ [self.accepted paymentId paymentType work]
      maximumDepth := max self.maximumDepth (self.waiting.length + 1) }
  joined.logged .arrived paymentId none

theorem enqueue_run (finish : Nat → κ) {paymentId : String} (hid : isBlank paymentId = false)
    (paymentType : PaymentType) (work : ω) (self : WorkerPool ω κ) :
    (enqueue finish paymentId paymentType work).run self
      = (do dispatch finish; return self.accepted paymentId paymentType work).run
        (self.arrived paymentId paymentType work) := by
  unfold enqueue
  rw [if_neg (by simp [hid])]
  rfl

/-- The pool after the work of a payment was done, with its worker idle. -/
def freed (self : WorkerPool ω κ) (number : Nat) (item : QueuedPayment ω) : WorkerPool ω κ :=
  let moved := ({ self with
    completed := self.completed ++
      [{ item with completedAt := some self.scheduler.clock.time }] } : WorkerPool ω κ).onWorker
    number fun worker =>
      { worker with
        currentPayment := none
        paymentsCompleted := worker.paymentsCompleted + 1
        totalBusyTime := worker.totalBusyTime + self.configuration.processingTime }
  moved.logged .completed item.paymentId (moved.workerId number)

theorem finished_run (finish : Nat → κ) (number : Nat) (item : QueuedPayment ω)
    (self : WorkerPool ω κ) :
    (finished finish number item).run self = (dispatch finish).run (self.freed number item) :=
  rfl

/-- A completion for a busy worker performs the work of its payment, -/
theorem complete_busy {σ : Type} {pool : Component σ (WorkerPool ω κ)}
    {perform : ω → Action σ Unit} {finish : Nat → κ} {number : Nat} {item : QueuedPayment ω} {s : σ}
    (hitem : (pool.get s).currentPayment number = some item) :
    (complete finish pool perform number).run s = (do
      perform item.work
      pool.zoom (finished finish number item) : Action σ Unit).run s := by
  unfold complete
  rw [run_bind_get]
  simp only [hitem]

/-- and for an idle one it is refused. -/
theorem complete_idle {σ : Type} {pool : Component σ (WorkerPool ω κ)}
    {perform : ω → Action σ Unit} {finish : Nat → κ} {number : Nat} {s : σ}
    (hitem : (pool.get s).currentPayment number = none) :
    (complete finish pool perform number).run s
      = .error ⟨.runtimeError, "idle worker cannot complete a payment"⟩ s := by
  unfold complete
  rw [run_bind_get]
  simp only [hitem]
  rfl

theorem currentPayment_onWorker (self : WorkerPool ω κ) (number : Nat)
    (change : PaymentWorker ω → PaymentWorker ω) (other : Nat) :
    (self.onWorker number change).currentPayment other
      = (self.workers[other]?).bind fun worker =>
        if number = other then (change worker).currentPayment else worker.currentPayment := by
  unfold currentPayment onWorker
  rw [List.getElem?_modify]
  cases self.workers[other]? with
  | none => rfl
  | some worker =>
      change (if number = other then change worker else worker).currentPayment = _
      split_ifs <;> rfl

@[simp] theorem assigned_workers_length (self : WorkerPool ω κ) (finish : Nat → κ) (number : Nat)
    (item : QueuedPayment ω) (waiting : List (QueuedPayment ω)) :
    (self.assigned finish number item waiting).workers.length = self.workers.length :=
  List.length_modify _ _ _

theorem currentPayment_assigned (self : WorkerPool ω κ) (finish : Nat → κ) {number : Nat}
    (item : QueuedPayment ω) (waiting : List (QueuedPayment ω))
    (hnumber : number < self.workers.length) (other : Nat) :
    (self.assigned finish number item waiting).currentPayment other
      = if number = other then some (self.started item) else self.currentPayment other := by
  refine (currentPayment_onWorker _ number _ other).trans ?_
  change (self.workers[other]?).bind _ = _
  by_cases h : number = other
  · subst h
    rw [List.getElem?_eq_getElem hnumber]
    simp only [Option.bind_some, if_true]
  · simp only [if_neg h]
    rfl

theorem currentPayment_freed (self : WorkerPool ω κ) (number : Nat) (item : QueuedPayment ω)
    (other : Nat) :
    (self.freed number item).currentPayment other
      = if number = other then none else self.currentPayment other := by
  refine (currentPayment_onWorker _ number _ other).trans ?_
  change (self.workers[other]?).bind _ = _
  by_cases h : number = other
  · simp only [if_pos h]
    cases self.workers[other]? <;> rfl
  · simp only [if_neg h]
    rfl

@[simp] theorem freed_workers_length (self : WorkerPool ω κ) (number : Nat)
    (item : QueuedPayment ω) : (self.freed number item).workers.length = self.workers.length :=
  List.length_modify _ _ _

/-! ### Dispatching -/

/-- There is nothing to dispatch: nothing waits, or everyone is busy. -/
def Settled (self : WorkerPool ω κ) : Prop :=
  self.waiting = [] ∨ ∀ number < self.workers.length, self.isBusy number = true

theorem dispatchOver_settled (finish : Nat → κ) {self : WorkerPool ω κ} (h : self.Settled) :
    ∀ numbers : List Nat, (∀ number ∈ numbers, number < self.workers.length) →
      (dispatchOver finish numbers).run self = .ok () self := by
  intro numbers
  induction numbers with
  | nil => exact fun _ => rfl
  | cons number numbers ih =>
      intro hnumbers
      rw [dispatchOver, run_bind_get]
      cases hwaiting : self.waiting with
      | nil => rfl
      | cons item waiting =>
          have hbusy : self.isBusy number = true :=
            (h.resolve_left (by rw [hwaiting]; exact List.cons_ne_nil _ _)) number
              (hnumbers number List.mem_cons_self)
          simp only [hbusy, if_true]
          exact ih fun other hmem => hnumbers other (List.mem_cons_of_mem number hmem)

theorem dispatch_settled (finish : Nat → κ) {self : WorkerPool ω κ} (h : self.Settled) :
    (dispatch finish).run self = .ok () self := by
  rw [dispatch, run_bind_get]
  exact dispatchOver_settled finish h _ fun number hmem => List.mem_range.mp hmem

/-- When one assignment settles the pool, dispatching makes one assignment. -/
theorem dispatchOver_assigned (finish : Nat → κ) {self : WorkerPool ω κ} {item : QueuedPayment ω}
    {waiting : List (QueuedPayment ω)} (hwaiting : self.waiting = item :: waiting)
    (hsettled : ∀ number < self.workers.length, self.isBusy number = false →
      (self.assigned finish number item waiting).Settled) :
    ∀ numbers : List Nat, (∀ number ∈ numbers, number < self.workers.length) →
      (∃ number ∈ numbers, self.isBusy number = false) →
      ∃ number ∈ numbers, self.isBusy number = false ∧
        (dispatchOver finish numbers).run self
          = .ok () (self.assigned finish number item waiting) := by
  intro numbers
  induction numbers with
  | nil => exact fun _ hidle => absurd hidle.choose_spec.1 List.not_mem_nil
  | cons number numbers ih =>
      intro hnumbers hidle
      have hrest : ∀ other ∈ numbers, other < self.workers.length :=
        fun other hmem => hnumbers other (List.mem_cons_of_mem number hmem)
      cases hbusy : self.isBusy number with
      | false =>
          -- The first idle worker takes the payment, and the others have nothing to do.
          refine ⟨number, List.mem_cons_self, hbusy, ?_⟩
          rw [dispatchOver, run_bind_get, hwaiting]
          simp only [hbusy, Bool.false_eq_true, if_false]
          rw [run_bind_of_ok (assign_run finish number item waiting self)]
          exact dispatchOver_settled finish (hsettled number (hnumbers number List.mem_cons_self)
            hbusy) numbers (by rw [assigned_workers_length]; exact hrest)
      | true =>
          -- The first worker is passed over, so the idle one is among the others.
          have hothers : ∃ other ∈ numbers, self.isBusy other = false := by
            rcases hidle with ⟨other, hmem, hother⟩
            rcases List.mem_cons.mp hmem with rfl | hmem
            · rw [hbusy] at hother
              cases hother
            · exact ⟨other, hmem, hother⟩
          rcases ih hrest hothers with ⟨other, hmem, hother, hrun⟩
          refine ⟨other, List.mem_cons_of_mem number hmem, hother, ?_⟩
          rw [dispatchOver, run_bind_get, hwaiting]
          simp only [hbusy, if_true]
          exact hrun

theorem dispatch_assigned (finish : Nat → κ) {self : WorkerPool ω κ} {item : QueuedPayment ω}
    {waiting : List (QueuedPayment ω)} (hwaiting : self.waiting = item :: waiting)
    (hidle : ∃ number < self.workers.length, self.isBusy number = false)
    (hsettled : ∀ number < self.workers.length, self.isBusy number = false →
      (self.assigned finish number item waiting).Settled) :
    ∃ number < self.workers.length, self.isBusy number = false ∧
      (dispatch finish).run self = .ok () (self.assigned finish number item waiting) := by
  rcases hidle with ⟨idle, hlt, hidle⟩
  rcases dispatchOver_assigned finish hwaiting hsettled (List.range self.workers.length)
    (fun number hmem => List.mem_range.mp hmem) ⟨idle, List.mem_range.mpr hlt, hidle⟩ with
    ⟨number, hmem, hnumber, hrun⟩
  refine ⟨number, List.mem_range.mp hmem, hnumber, ?_⟩
  rw [dispatch, run_bind_get]
  exact hrun

/-! ### The books of a pool -/

section Recurrence

variable (configuration : CapacityConfiguration) (arrivals : List (Arrival ω))

/-- When the payment in a place starts, by the recurrence. -/
def startTime (i : Nat) : Int :=
  Servers.start configuration.workerCount configuration.processingTime (arrivalTime arrivals) i

/-- A completed payment has the times of the recurrence. -/
def Served (i : Nat) (item : QueuedPayment ω) : Prop :=
  Records arrivals i item ∧ item.processingStartedAt = some (startTime configuration arrivals i) ∧
    item.completedAt = some (startTime configuration arrivals i + configuration.processingTime)

/-- The completions that are due for the places in which payments run. -/
def completions (finish : Nat → κ) (running : List (Nat × Nat)) : List (Int × κ) :=
  running.map fun run =>
    (startTime configuration arrivals run.2 + configuration.processingTime, finish run.1)

/-- The pool when `k` payments arrived, `s` of them started and `c` of those
    are completed. What runs is listed as places and payments, in the order of
    the payments. -/
structure Books (k s c : Nat) (running : List (Nat × Nat)) (pool : WorkerPool ω κ) : Prop where
  configured : pool.configuration = configuration
  workers : pool.workers.length = configuration.workerCount
  completed_le : c ≤ s
  started_le : s ≤ k
  capacity : s ≤ c + configuration.workerCount
  order : pool.arrivalOrder = k
  payments : running.map Prod.snd = List.range' c (s - c)
  places : (running.map Prod.fst).Nodup
  busy : ∀ run ∈ running, run.1 < configuration.workerCount ∧
    ∃ item, pool.currentPayment run.1 = some item ∧ Records arrivals run.2 item ∧
      item.processingStartedAt = some (startTime configuration arrivals run.2)
  idle : ∀ number, number ∉ running.map Prod.fst → pool.currentPayment number = none
  waiting : List.Forall₂ (Records arrivals) (List.range' s (k - s)) pool.waiting
  completed : List.Forall₂ (Served configuration arrivals) (List.range c) pool.completed

variable {configuration arrivals}

namespace Books

variable {k s c : Nat} {running : List (Nat × Nat)} {self : WorkerPool ω κ}

theorem running_length (h : Books configuration arrivals k s c running self) :
    running.length = s - c := by
  rw [← List.length_map (f := Prod.snd), h.payments, List.length_range']

/-- Only the books of the scheduler are kept elsewhere. -/
theorem withScheduler (h : Books configuration arrivals k s c running self)
    (scheduler : EventScheduler κ) :
    Books configuration arrivals k s c running { self with scheduler } :=
  { h with }

theorem isBusy_of_mem (h : Books configuration arrivals k s c running self) {number : Nat}
    (hmem : number ∈ running.map Prod.fst) : self.isBusy number = true := by
  rcases List.mem_map.mp hmem with ⟨run, hrun, rfl⟩
  rcases (h.busy run hrun).2 with ⟨item, hitem, -⟩
  rw [isBusy, hitem]
  rfl

theorem places_lt (h : Books configuration arrivals k s c running self) :
    running.map Prod.fst ⊆ List.range configuration.workerCount := by
  intro number hmem
  rcases List.mem_map.mp hmem with ⟨run, hrun, rfl⟩
  exact List.mem_range.mpr (h.busy run hrun).1

/-- Someone is idle as long as fewer payments run than there are workers. -/
theorem exists_idle (h : Books configuration arrivals k s c running self)
    (hlt : s < c + configuration.workerCount) :
    ∃ number < self.workers.length, self.isBusy number = false := by
  by_contra hnone
  push Not at hnone
  -- Otherwise the places in use would be all of them.
  have hall : List.range configuration.workerCount ⊆ running.map Prod.fst := by
    intro number hmem
    by_contra hidle
    refine hnone number (by rw [h.workers]; exact List.mem_range.mp hmem) ?_
    rw [isBusy, h.idle number hidle]
    rfl
  have hlength := (List.subperm_of_subset List.nodup_range hall).length_le
  rw [List.length_range, List.length_map, h.running_length] at hlength
  have := h.completed_le
  omega

/-- Everyone is busy when as many payments run as there are workers. -/
theorem all_busy (h : Books configuration arrivals k s c running self)
    (heq : s = c + configuration.workerCount) :
    ∀ number < self.workers.length, self.isBusy number = true := by
  intro number hlt
  -- There are as many places in use as there are places.
  have hperm := (List.subperm_of_subset h.places h.places_lt).perm_of_length_le (by
    rw [List.length_range, List.length_map, h.running_length]
    omega)
  refine h.isBusy_of_mem (hperm.mem_iff.mpr (List.mem_range.mpr ?_))
  rw [← h.workers]
  exact hlt

theorem waiting_length (h : Books configuration arrivals k s c running self) :
    self.waiting.length = k - s := by
  rw [← h.waiting.length_eq, List.length_range']

/-- There is nothing to dispatch when no payment that could run waits. -/
theorem settled (h : Books configuration arrivals k s c running self)
    (heq : s = min k (c + configuration.workerCount)) : self.Settled := by
  by_cases hwait : k ≤ s
  · left
    have := h.waiting_length
    exact List.length_eq_zero_iff.mp (by omega)
  · right
    exact h.all_busy (by omega)

/-- One more payment arrives. -/
theorem arrive (h : Books configuration arrivals k s c running self) {arrival : Arrival ω}
    (hget : arrivals[k]? = some arrival) (htime : self.scheduler.clock.time = arrival.time) :
    Books configuration arrivals (k + 1) s c running
      (self.arrived arrival.paymentId arrival.paymentType arrival.work) :=
  { h with
    started_le := Nat.le_succ_of_le h.started_le
    order := congrArg (· + 1) h.order
    waiting := by
      have hlength : k + 1 - s = (k - s) + 1 := by
        have := h.started_le
        omega
      have hplace : s + (k - s) = k := by
        have := h.started_le
        omega
      rw [hlength, List.range'_1_concat, hplace]
      refine List.rel_append h.waiting (List.Forall₂.cons ?_ .nil)
      exact ⟨arrival, hget, rfl, rfl, rfl, htime, h.order⟩ }

/-- A worker takes the payment that has waited longest. -/
theorem assign (h : Books configuration arrivals k s c running self) (finish : Nat → κ)
    {item : QueuedPayment ω} {waiting : List (QueuedPayment ω)}
    (hwaiting : self.waiting = item :: waiting) (hcapacity : s < c + configuration.workerCount)
    (hstart : self.scheduler.clock.time = startTime configuration arrivals s) {number : Nat}
    (hnumber : number < self.workers.length) (hidle : self.isBusy number = false) :
    Books configuration arrivals k (s + 1) c (running ++ [(number, s)])
      (self.assigned finish number item waiting) := by
  have hlength := h.waiting_length
  rw [hwaiting, List.length_cons] at hlength
  have hplaces : k - s = (k - (s + 1)) + 1 := by omega
  have hwait := h.waiting
  rw [hwaiting, hplaces, List.range'_succ, List.forall₂_cons] at hwait
  -- The worker was idle, so the payment goes to a new place.
  have hnew : number ∉ running.map Prod.fst := by
    intro hmem
    rw [h.isBusy_of_mem hmem] at hidle
    cases hidle
  have hcurrent := currentPayment_assigned self finish item waiting hnumber
  exact
    { configured := h.configured
      workers := (assigned_workers_length ..).trans h.workers
      completed_le := Nat.le_succ_of_le h.completed_le
      started_le := by omega
      capacity := hcapacity
      order := h.order
      payments := by
        have hcount : s + 1 - c = (s - c) + 1 := by
          have := h.completed_le
          omega
        have hplace : c + (s - c) = s := by
          have := h.completed_le
          omega
        rw [List.map_append, h.payments, hcount, List.range'_1_concat, hplace]
        rfl
      places := by
        rw [List.map_append]
        refine List.Nodup.append h.places (List.nodup_singleton number) fun other hmem hsame => ?_
        rw [List.mem_singleton.mp hsame] at hmem
        exact hnew hmem
      busy := by
        intro run hrun
        rcases List.mem_append.mp hrun with hrun | hrun
        · have hother : number ≠ run.1 := fun hsame => hnew (hsame ▸ List.mem_map_of_mem hrun)
          rw [hcurrent, if_neg hother]
          exact h.busy run hrun
        · rw [List.mem_singleton.mp hrun]
          refine ⟨h.workers ▸ hnumber, self.started item, ?_, hwait.1, ?_⟩
          · rw [hcurrent, if_pos rfl]
          · exact congrArg some hstart
      idle := by
        intro other hother
        rw [List.map_append, List.mem_append, not_or] at hother
        rw [hcurrent, if_neg fun hsame => hother.2 (List.mem_singleton.mpr hsame.symm)]
        exact h.idle other hother.1
      waiting := hwait.2
      completed := h.completed }

/-- The payment that has run longest is done. -/
theorem free {number : Nat}
    (h : Books configuration arrivals k s c ((number, c) :: running) self)
    {item : QueuedPayment ω} (hitem : self.currentPayment number = some item)
    (htime : self.scheduler.clock.time
      = startTime configuration arrivals c + configuration.processingTime) :
    Books configuration arrivals k s (c + 1) running (self.freed number item) := by
  have hcount := h.running_length
  rw [List.length_cons] at hcount
  -- No other payment runs in its place, and those that run are the ones after it.
  have hplaces := h.places
  rw [List.map_cons, List.nodup_cons] at hplaces
  have hpayments := h.payments
  have hrange : s - c = (s - (c + 1)) + 1 := by omega
  rw [List.map_cons, hrange, List.range'_succ, List.cons.injEq] at hpayments
  -- What the worker holds is that payment, with the start of the recurrence.
  rcases (h.busy (number, c) List.mem_cons_self).2 with ⟨item', hitem', hrecords, hstarted⟩
  have hsame : item' = item := by
    rw [hitem, Option.some.injEq] at hitem'
    exact hitem'.symm
  rw [hsame] at hrecords hstarted
  exact
    { configured := h.configured
      workers := (freed_workers_length ..).trans h.workers
      completed_le := by omega
      started_le := h.started_le
      capacity := by
        have := h.capacity
        omega
      order := h.order
      payments := hpayments.2
      places := hplaces.2
      busy := by
        intro run hrun
        have hother : number ≠ run.1 := by
          intro hsame
          have hmem := List.mem_map_of_mem (f := Prod.fst) hrun
          rw [← hsame] at hmem
          exact hplaces.1 hmem
        rw [currentPayment_freed, if_neg hother]
        exact h.busy run (List.mem_cons_of_mem _ hrun)
      idle := by
        intro other hother
        rw [currentPayment_freed]
        by_cases hsame : number = other
        · rw [if_pos hsame]
        · rw [if_neg hsame]
          refine h.idle other fun hmem => ?_
          rcases List.mem_cons.mp hmem with hmem | hmem
          · exact hsame hmem.symm
          · exact hother hmem
      waiting := h.waiting
      completed := by
        rw [List.range_succ]
        refine List.rel_append h.completed (List.Forall₂.cons ⟨hrecords, hstarted, ?_⟩ .nil)
        exact congrArg some htime }

end Books

end Recurrence

end WorkerPool

end BankSim
