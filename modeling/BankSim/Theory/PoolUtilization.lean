import BankSim.Theory.PoolMetrics

/-!
# How Busy the Workers Are

A worker is never busy for longer than the pool has been at it. Each of its
payments took it from the start of that payment to its completion, the next
one starts no earlier than that, and the first no earlier than the first
arrival. So its busy time, put in front of the start of the payment it is busy
with, still lies after the first arrival.

`Timed` says this of every worker. The completion that is due for a worker is
a processing time after the start of its payment, and only one is ever due,
so a completion that runs has the whole processing time behind it.

## Main definitions

* `WorkerPool.Due`: A time by which a worker can be done.
* `WorkerPool.Timed`: The invariant, with one worker possibly away.
* `WorkerPool.Accounted`: Counts and busy times, and the utilization.

## Theorems

* `lawful_timed`: Every event keeps the invariant.
* `workers_accounted`: In every state of every run, the accounts are in order.
-/

namespace BankSim

open Exec

namespace WorkerPool

variable {ω ξ σ : Type}

/-- The worker in a place is busy, and by this time it has been for a whole
    processing time. -/
def Due (pool : WorkerPool ω (PoolCallback ω ξ)) (number : Nat) (time : Int) : Prop :=
  ∃ item start, pool.currentPayment number = some item ∧
    item.processingStartedAt = some start ∧ start + pool.configuration.processingTime ≤ time

/-- A worker's time fits between the first arrival and its last completion, and
    between the first arrival and the start of the payment it is busy with. -/
structure OnTime (pool : WorkerPool ω (PoolCallback ω ξ)) (worker : PaymentWorker ω) : Prop where
  busyTime : worker.totalBusyTime
    = pool.configuration.processingTime * worker.paymentsCompleted
  unopened : pool.firstArrival = none → worker.currentPayment = none ∧ worker.paymentsCompleted = 0
  served : ∀ first, pool.firstArrival = some first → 0 < worker.paymentsCompleted →
    ∃ item ∈ pool.completed, ∃ time, item.completedAt = some time ∧
      first + worker.totalBusyTime ≤ time
  serving : ∀ first, pool.firstArrival = some first → ∀ item start,
    worker.currentPayment = some item → item.processingStartedAt = some start →
      first + worker.totalBusyTime ≤ start

/-- All workers are on time, and a completion that is due has a processing time
    behind it. -/
structure Timed (away : Option Nat) (pool : WorkerPool ω (PoolCallback ω ξ)) : Prop where
  counted : (pool.workers.map (·.paymentsCompleted)).sum = pool.completed.length
  workers : ∀ worker ∈ pool.workers, OnTime pool worker
  unopened : pool.firstArrival = none → pool.waiting = []
  opened : ∀ first, pool.firstArrival = some first → first ≤ pool.scheduler.clock.time
  ended : ∀ item ∈ pool.completed, ∃ time, item.completedAt = some time ∧
    time ≤ pool.scheduler.clock.time
  due : ∀ event ∈ pool.scheduler.queue, ∀ number, event.callback.frees = some number →
    pool.Due number event.time
  single : ∀ number, pool.pendingFor number ≤ 1
  away : ∀ number ∈ away, pool.Due number pool.scheduler.clock.time ∧ pool.pendingFor number = 0

theorem timed_new (clock : VirtualClock) (configuration : CapacityConfiguration) :
    Timed none (WorkerPool.new (EventScheduler.new clock) configuration
      : WorkerPool ω (PoolCallback ω ξ)) where
  counted := by
    refine List.sum_eq_zero fun count hcount => ?_
    rcases List.mem_map.mp hcount with ⟨worker, hworker, rfl⟩
    rcases List.mem_map.mp hworker with ⟨place, -, rfl⟩
    rfl
  workers worker hworker := by
    rcases List.mem_map.mp hworker with ⟨place, -, rfl⟩
    constructor
    · simp only [Nat.cast_zero, Int.mul_zero]
    · exact fun _ => ⟨rfl, rfl⟩
    · intro first hfirst
      cases hfirst
    · intro first hfirst
      cases hfirst
  unopened _ := rfl
  opened first hfirst := by cases hfirst
  ended item hitem := absurd hitem List.not_mem_nil
  due event hevent := absurd hevent List.not_mem_nil
  single number := Nat.zero_le 1
  away number hnumber := by cases hnumber

/-- Who works after one worker changed. -/
theorem mem_modify {α : Type} {l : List α} {i : Nat} {f : α → α} {y : α}
    (hy : y ∈ l.modify i f) : y ∈ l ∨ ∃ x, l[i]? = some x ∧ y = f x := by
  rcases List.mem_iff_getElem?.mp hy with ⟨j, hj⟩
  rw [List.getElem?_modify, Option.map_eq_map, Option.map_eq_some_iff] at hj
  rcases hj with ⟨x, hx, rfl⟩
  by_cases hij : i = j
  · subst hij
    rw [if_pos rfl]
    exact Or.inr ⟨x, hx, rfl⟩
  · rw [if_neg hij]
    exact Or.inl (List.mem_of_getElem? hx)

section Changes

variable {away : Option Nat} {self : WorkerPool ω (PoolCallback ω ξ)}

theorem Due.mono {number : Nat} {time later : Int} (h : self.Due number time)
    (htime : time ≤ later) : self.Due number later := by
  rcases h with ⟨item, start, hitem, hstart, hdue⟩
  exact ⟨item, start, hitem, hstart, hdue.trans htime⟩

theorem Due.isBusy {number : Nat} {time : Int} (h : self.Due number time) :
    self.isBusy number = true := by
  rcases h with ⟨item, start, hitem, -⟩
  rw [WorkerPool.isBusy, hitem]
  rfl

/-- The clock moves on, and the scheduler loses an event or none. -/
theorem Timed.withScheduler (h : Timed away self)
    {scheduler : EventScheduler (PoolCallback ω ξ)}
    (hqueue : scheduler.queue.Sublist self.scheduler.queue)
    (htime : self.scheduler.clock.time ≤ scheduler.clock.time) :
    Timed away { self with scheduler } where
  counted := h.counted
  workers worker hworker :=
    ⟨(h.workers worker hworker).busyTime, (h.workers worker hworker).unopened,
      (h.workers worker hworker).served, (h.workers worker hworker).serving⟩
  unopened := h.unopened
  opened first hfirst := (h.opened first hfirst).trans htime
  ended item hitem := by
    rcases h.ended item hitem with ⟨time, hcompleted, hpast⟩
    exact ⟨time, hcompleted, hpast.trans htime⟩
  due event hevent := h.due event (hqueue.subset hevent)
  single number := (hqueue.countP_le).trans (h.single number)
  away number hnumber := by
    rcases h.away number hnumber with ⟨hdue, hnone⟩
    exact ⟨hdue.mono htime, Nat.le_zero.mp (hnone ▸ hqueue.countP_le)⟩

theorem Timed.scheduled (h : Timed away self) (time : Int) {callback : PoolCallback ω ξ}
    (hfrees : callback.frees = none) :
    Timed away { self with scheduler := self.scheduler.scheduled time callback } := by
  have hpending : ∀ number, pendingFor
      { self with scheduler := self.scheduler.scheduled time callback } number
        = self.pendingFor number := by
    intro number
    rw [pendingFor_scheduled, hfrees, if_neg (by simp), Nat.add_zero]
  refine ⟨h.counted, fun worker hworker => ?_, h.unopened, h.opened, h.ended, ?_, ?_, ?_⟩
  · have hontime := h.workers worker hworker
    exact ⟨hontime.busyTime, hontime.unopened, hontime.served, hontime.serving⟩
  · intro event hevent number hnumber
    rcases (EventScheduler.mem_scheduled_iff self.scheduler time callback event).mp hevent with
      rfl | hevent
    · rw [hfrees] at hnumber
      cases hnumber
    · exact h.due event hevent number hnumber
  · intro number
    rw [hpending]
    exact h.single number
  · intro number hnumber
    rw [hpending]
    exact h.away number hnumber

/-- A first arrival finds nobody at work, and a later one changes nothing here. -/
theorem Timed.arrived (h : Timed away self) (paymentId : String) (paymentType : PaymentType)
    (work : ω) : Timed away (self.arrived paymentId paymentType work) := by
  have hfirst : (self.arrived paymentId paymentType work).firstArrival
      = some (self.firstArrival.getD self.scheduler.clock.time) := rfl
  refine ⟨h.counted, fun worker hworker => ?_, fun hnone => ?_, ?_, h.ended, h.due, h.single,
    h.away⟩
  · have hontime := h.workers worker hworker
    refine ⟨hontime.busyTime, fun hnone => (by cases hnone), ?_, ?_⟩
    · intro first hsome hserved
      rw [hfirst, Option.some.injEq] at hsome
      subst hsome
      cases harrival : self.firstArrival with
      | none =>
          have hidle := (hontime.unopened harrival).2
          omega
      | some first => exact hontime.served first harrival hserved
    · intro first hsome item start hitem hstart
      rw [hfirst, Option.some.injEq] at hsome
      subst hsome
      cases harrival : self.firstArrival with
      | none =>
          have hidle := (hontime.unopened harrival).1
          rw [hitem] at hidle
          cases hidle
      | some first => exact hontime.serving first harrival item start hitem hstart
  · cases hnone
  · intro first hsome
    rw [hfirst, Option.some.injEq] at hsome
    subst hsome
    cases harrival : self.firstArrival with
    | none => exact le_rfl
    | some first => exact h.opened first harrival

/-- What an idle worker has done lies in the past. -/
theorem Timed.busyTime_le (h : Timed away self) {first : Int}
    (hfirst : self.firstArrival = some first) {worker : PaymentWorker ω}
    (hworker : worker ∈ self.workers) :
    first + worker.totalBusyTime ≤ self.scheduler.clock.time := by
  have hontime := h.workers worker hworker
  by_cases hserved : 0 < worker.paymentsCompleted
  · rcases hontime.served first hfirst hserved with ⟨item, hitem, time, htime, hle⟩
    rcases h.ended item hitem with ⟨time', htime', hpast⟩
    cases htime.symm.trans htime'
    exact hle.trans hpast
  · -- It has done nothing, and the first arrival does.
    have hnothing : worker.paymentsCompleted = 0 := by omega
    have hopened := h.opened first hfirst
    rw [hontime.busyTime, hnothing, Nat.cast_zero, Int.mul_zero, Int.add_zero]
    exact hopened

/-- Nothing is due for an idle worker, -/
theorem Timed.pendingFor_idle (h : Timed away self) {number : Nat}
    (hidle : self.isBusy number = false) : self.pendingFor number = 0 := by
  refine List.countP_eq_zero.mpr fun event hevent hfrees => ?_
  have hbusy := (h.due event hevent number (by simpa using hfrees)).isBusy
  rw [hidle] at hbusy
  cases hbusy

theorem Due.ne_idle {number other : Nat} {time : Int} (h : self.Due other time)
    (hidle : self.isBusy number = false) : number ≠ other := by
  rintro rfl
  rw [h.isBusy] at hidle
  cases hidle

/-- and what is due for a busy one stays due when the idle one takes a payment. -/
theorem Due.assigned {number other : Nat} {time : Int} (h : self.Due other time)
    (hnumber : number < self.workers.length) (hidle : self.isBusy number = false)
    (item : QueuedPayment ω) (waiting : List (QueuedPayment ω)) :
    (self.assigned .complete number item waiting).Due other time := by
  have hcurrent := currentPayment_assigned self .complete item waiting hnumber
  have hne := h.ne_idle hidle
  rcases h with ⟨current, start, hitem, hstart, htime⟩
  exact ⟨current, start, by rw [hcurrent, if_neg hne, hitem], hstart, htime⟩

theorem pendingFor_assigned (self : WorkerPool ω (PoolCallback ω ξ)) (number : Nat)
    (item : QueuedPayment ω) (waiting : List (QueuedPayment ω)) (other : Nat) :
    (self.assigned .complete number item waiting).pendingFor other
      = self.pendingFor other + if number = other then 1 else 0 := by
  have hcount := pendingFor_scheduled self
    (self.scheduler.clock.time + self.configuration.processingTime) (.complete number) other
  simp only [PoolCallback.frees, Option.some.injEq] at hcount
  exact hcount

/-- The workers are on time when one of them takes a payment. -/
theorem Timed.workers_assigned (h : Timed away self) {number : Nat} {item : QueuedPayment ω}
    {waiting : List (QueuedPayment ω)} (hwaiting : self.waiting = item :: waiting) :
    ∀ worker ∈ (self.assigned .complete number item waiting).workers,
      (self.assigned .complete number item waiting).OnTime worker := by
  intro worker hmem
  rcases mem_modify hmem with hold | ⟨old, hold, rfl⟩
  · have hontime := h.workers worker hold
    exact ⟨hontime.busyTime, hontime.unopened, hontime.served, hontime.serving⟩
  · have hidler : old ∈ self.workers := List.mem_of_getElem? hold
    have hontime := h.workers old hidler
    refine ⟨hontime.busyTime, fun hunopened => ?_, hontime.served, ?_⟩
    · rw [h.unopened hunopened] at hwaiting
      cases hwaiting
    · intro first hfirst other start hother hstart
      cases hother
      cases hstart
      have hpast := h.busyTime_le hfirst hidler
      exact hpast

/-- A payment starts. -/
theorem Timed.assigned (h : Timed away self) {number : Nat}
    (hnumber : number < self.workers.length) (hidle : self.isBusy number = false)
    {item : QueuedPayment ω} {waiting : List (QueuedPayment ω)}
    (hwaiting : self.waiting = item :: waiting) :
    Timed away (self.assigned .complete number item waiting) := by
  refine ⟨?_, h.workers_assigned hwaiting, ?_, h.opened, h.ended, ?_, ?_, ?_⟩
  · rcases exists_worker hnumber with ⟨worker, hworker, -⟩
    have hsum := ListSum.sum_map_modify (·.paymentsCompleted)
      (fun worker : PaymentWorker ω =>
        { worker with currentPayment := some (self.started item) }) hworker
    exact (Nat.add_left_cancel hsum).trans h.counted
  · intro hunopened
    rw [h.unopened hunopened] at hwaiting
    cases hwaiting
  · intro event hevent other hother
    rcases (EventScheduler.mem_scheduled_iff self.scheduler _ _ event).mp hevent with
      rfl | hevent
    · -- The new completion is due a processing time after the payment starts.
      cases hother
      have hcurrent := currentPayment_assigned self .complete item waiting hnumber number
      exact ⟨self.started item, self.scheduler.clock.time, by rw [hcurrent, if_pos rfl], rfl,
        le_rfl⟩
    · exact (h.due event hevent other hother).assigned hnumber hidle item waiting
  · intro other
    rw [pendingFor_assigned]
    by_cases hother : number = other
    · subst hother
      rw [h.pendingFor_idle hidle, if_pos rfl]
    · rw [if_neg hother]
      exact h.single other
  · intro other hother
    rcases h.away other hother with ⟨haway, hgone⟩
    rw [pendingFor_assigned, if_neg (haway.ne_idle hidle), hgone]
    exact ⟨haway.assigned hnumber hidle item waiting, rfl⟩

/-- A payment is done, and with it a processing time since its start. -/
theorem Timed.freed {number : Nat} (h : Timed (some number) self) {item : QueuedPayment ω}
    (hitem : self.currentPayment number = some item) : Timed none (self.freed number item) := by
  rcases exists_busy_worker hitem with ⟨worker, hworker, hcurrent⟩
  rcases h.away number rfl with ⟨⟨item', start, hitem', hstart, hdone⟩, hgone⟩
  cases hitem.symm.trans hitem'
  have hmem := List.mem_of_getElem? hworker
  have hcompleted : ∀ other ∈ self.completed, other ∈ (self.freed number item).completed :=
    fun other hother => List.mem_append_left _ hother
  refine ⟨?_, ?_, h.unopened, h.opened, ?_, ?_, h.single, fun _ hnone => by cases hnone⟩
  · have hsum := ListSum.sum_map_modify (·.paymentsCompleted)
      (fun worker : PaymentWorker ω =>
        { worker with
          currentPayment := none
          paymentsCompleted := worker.paymentsCompleted + 1
          totalBusyTime := worker.totalBusyTime + self.configuration.processingTime }) hworker
    rw [h.counted, Nat.add_assoc] at hsum
    change ((self.workers.modify number _).map (·.paymentsCompleted)).sum
      = (self.completed ++ [_]).length
    rw [List.length_append, List.length_singleton, Nat.add_comm]
    exact Nat.add_left_cancel hsum
  · intro other hother
    rcases mem_modify hother with hold | ⟨old, hold, rfl⟩
    · have hontime := h.workers other hold
      refine ⟨hontime.busyTime, hontime.unopened, fun first hfirst hserved => ?_, hontime.serving⟩
      rcases hontime.served first hfirst hserved with ⟨last, hlast, time, htime, hle⟩
      exact ⟨last, hcompleted last hlast, time, htime, hle⟩
    · cases hworker.symm.trans hold
      have hontime := h.workers worker hmem
      refine ⟨?_, fun hunopened => ?_, fun first hfirst _ => ?_, fun _ _ _ _ hidle => ?_⟩
      · have hbusy := hontime.busyTime
        change worker.totalBusyTime + self.configuration.processingTime
          = self.configuration.processingTime * ((worker.paymentsCompleted + 1 : Nat) : Int)
        rw [hbusy]
        push_cast
        ring
      · have hidle := (hontime.unopened hunopened).1
        rw [hcurrent] at hidle
        cases hidle
      · -- The new completion is the witness.
        refine ⟨_, List.mem_append_right _ (List.mem_singleton_self _),
          self.scheduler.clock.time, rfl, ?_⟩
        have hserving := hontime.serving first hfirst item start hcurrent hstart
        change first + (worker.totalBusyTime + self.configuration.processingTime) ≤ _
        linarith
      · cases hidle
  · intro other hother
    rcases List.mem_append.mp hother with hold | hnew
    · exact h.ended other hold
    · rw [List.mem_singleton.mp hnew]
      exact ⟨_, rfl, le_rfl⟩
  · intro event hevent other hother
    have hne : number ≠ other := by
      rintro rfl
      have hnone := List.countP_eq_zero.mp hgone event hevent
      exact hnone (by simpa using hother)
    rcases h.due event hevent other hother with ⟨current, begun, hbusy, hbegun, htime⟩
    exact ⟨current, begun, by rw [currentPayment_freed, if_neg hne, hbusy], hbegun, htime⟩

end Changes

/-- Every event keeps the invariant. -/
theorem lawful_timed : Lawful (fun _ => True) (Timed (ω := ω) (ξ := ξ)) Timed := by
  have hkept : ∀ away, Kept (fun _ => True) (Timed (ω := ω) (ξ := ξ) away) (Timed away) := by
    intro away
    refine ⟨?_, ?_, ?_, ?_, fun self h => h⟩
    · intro self scheduler h hqueue htime
      exact h.withScheduler (by rw [hqueue]) htime
    · exact fun self time callback h hfrees => h.scheduled time hfrees
    · exact fun self paymentId paymentType work h _ => h.arrived paymentId paymentType work
    · exact fun self number item waiting h hnumber hidle hwaiting =>
        h.assigned hnumber hidle hwaiting
  refine ⟨hkept none, fun number => hkept (some number), ?_, ?_, ?_⟩
  · intro self event scheduler h hqueue htime
    exact h.withScheduler (by rw [hqueue]; exact List.sublist_cons_self event _) htime
  · -- The only completion due for the worker is the one that now runs.
    intro self event scheduler number item h hqueue htime hnow hcallback hitem
    have hpopped : Timed none { self with scheduler } :=
      h.withScheduler (by rw [hqueue]; exact List.sublist_cons_self event _) htime
    have hfrees : event.callback.frees = some number := by
      rw [hcallback]
      rfl
    refine ⟨hpopped.counted, hpopped.workers, hpopped.unopened, hpopped.opened, hpopped.ended,
      hpopped.due, hpopped.single, ?_⟩
    intro other hother
    cases hother
    have hdue := h.due event (by rw [hqueue]; exact List.mem_cons_self) number hfrees
    have hsingle := h.single number
    unfold pendingFor at hsingle
    rw [hqueue, List.countP_cons_of_pos (by simpa using hfrees)] at hsingle
    rw [← hnow] at hdue
    refine ⟨hdue, ?_⟩
    change scheduler.queue.countP _ = 0
    omega
  · exact fun self number item h hitem => h.freed hitem

/-- The counts add up, every completed payment has cost its worker a processing
    time, and no worker was busy for more than all of the time. -/
structure Accounted (pool : WorkerPool ω (PoolCallback ω ξ)) : Prop where
  counted : (pool.workers.map (·.paymentsCompleted)).sum = pool.completed.length
  busyTime : ∀ worker ∈ pool.workers, worker.totalBusyTime
    = pool.configuration.processingTime * worker.paymentsCompleted
  utilization : ∀ statistics ∈ pool.workerStatistics,
    0 ≤ statistics.utilizationPercentage ∧ statistics.utilizationPercentage ≤ 100

/-- A worker that completed a payment was busy within the time of the pool. -/
theorem Timed.busyTime_le_elapsed {away : Option Nat} {pool : WorkerPool ω (PoolCallback ω ξ)}
    (h : Timed away pool) {worker : PaymentWorker ω} (hworker : worker ∈ pool.workers)
    (hserved : 0 < worker.paymentsCompleted) :
    0 < worker.totalBusyTime ∧ worker.totalBusyTime ≤ pool.metrics.totalCompletionTime := by
  have hontime := h.workers worker hworker
  have hpositive : 0 < worker.totalBusyTime := by
    rw [hontime.busyTime]
    exact Int.mul_pos pool.configuration.processingTime_pos (by omega)
  refine ⟨hpositive, ?_⟩
  cases hfirst : pool.firstArrival with
  | none =>
      have hidle := (hontime.unopened hfirst).2
      omega
  | some first =>
      rcases hontime.served first hfirst hserved with ⟨item, hitem, time, htime, hle⟩
      have hend : time ≤ largest (pool.completed.map fun item => item.completedAt.getD 0) := by
        refine le_largest (List.mem_map.mpr ⟨item, hitem, ?_⟩)
        rw [htime, Option.getD_some]
      change worker.totalBusyTime
        ≤ largest (pool.completed.map fun item => item.completedAt.getD 0)
          - pool.firstArrival.getD 0
      rw [hfirst, Option.getD_some]
      linarith

theorem Timed.accounted {away : Option Nat} {pool : WorkerPool ω (PoolCallback ω ξ)}
    (h : Timed away pool) : Accounted pool where
  counted := h.counted
  busyTime worker hworker := (h.workers worker hworker).busyTime
  utilization statistics hstatistics := by
    rcases List.mem_map.mp hstatistics with ⟨worker, hworker, rfl⟩
    dsimp only
    by_cases helapsed : pool.metrics.totalCompletionTime ≠ 0
    · rw [if_pos helapsed]
      by_cases hserved : 0 < worker.paymentsCompleted
      · rcases h.busyTime_le_elapsed hworker hserved with ⟨hpositive, hle⟩
        rw [Int.fdiv_eq_ediv_of_nonneg _ (by omega)]
        refine ⟨Int.ediv_nonneg (by omega) (by omega), ?_⟩
        exact Int.ediv_le_of_le_mul (by omega) (by omega)
      · -- A worker that completed nothing was not busy either.
        have hnothing : worker.paymentsCompleted = 0 := by omega
        rw [(h.workers worker hworker).busyTime, hnothing, Nat.cast_zero, Int.mul_zero,
          Int.zero_mul, Int.zero_fdiv]
        decide
    · rw [if_neg helapsed]
      decide

/-- In a run in which works may enqueue and schedule what they like, the
    workers' accounts are in order in every state, and every utilization is a
    percentage. -/
theorem workers_accounted (pool : Component σ (WorkerPool ω (PoolCallback ω ξ)))
    (perform : ω → Action σ Unit) (other : ξ → Action σ Unit)
    (hperform : ∀ work, OnlyMakes pool Use.exec Use.Fair (perform work))
    (hother : ∀ callback, OnlyMakes pool Use.exec Use.Fair (other callback))
    (clock : VirtualClock) (configuration : CapacityConfiguration) (s : σ)
    (steps : List (Step ω ξ)) (hsteps : ∀ step ∈ steps, step.Fair) :
    AllStates (Step.exec pool perform other) (fun t => Accounted (pool.get t))
      (pool.set (WorkerPool.new (EventScheduler.new clock) configuration) s) steps := by
  have hstart : Timed none (pool.get
      (pool.set (WorkerPool.new (EventScheduler.new clock) configuration) s)) := by
    rw [pool.get_set]
    exact timed_new clock configuration
  refine allStates_mono (fun _ => Timed.accounted)
    (lawful_timed.always hperform hother (fun number self h => ?_) hstart hsteps)
  -- A worker that stays away keeps its payment, and that is all.
  exact ⟨h.counted, h.workers, h.unopened, h.opened, h.ended, h.due, h.single,
    fun _ hnone => by cases hnone⟩

theorem workers_accounted_plain :
    AllStates (Step.exec Component.whole plainWork Empty.elim) Accounted
      (WorkerPool.new EventScheduler.new oneWorker) plainRun :=
  workers_accounted Component.whole plainWork Empty.elim onlyMakes_plainWork
    (fun callback => callback.elim) ⟨0, by decide⟩ oneWorker
    (WorkerPool.new EventScheduler.new oneWorker) plainRun fair_plainRun

end WorkerPool

end BankSim
