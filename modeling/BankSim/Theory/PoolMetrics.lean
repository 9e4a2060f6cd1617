import BankSim.Library.Sums
import BankSim.Theory.PoolKeeps

/-!
# What a Worker Pool Measures

The pool keeps its figures as it goes: an area under the depth of its queue, a
count and a busy time for each worker, the first arrival and the deepest the
queue has been. The statistics are quotients of these.

The area is the total of all waits. Whenever the depth changes, the time since
the last change is added once for each payment that waits, so by then every
waiting payment has contributed the time it waited so far, and a payment that
starts takes its whole wait with it.

## Main definitions

* `WorkerPool.running`: What the workers are busy with.
* `WorkerPool.Weighed`: The area, as it is kept.
* `WorkerPool.DepthIsWaiting`: The area as waits, and the average depth.

## Theorems

* `Weighed.arrived`, `Weighed.assigned`, `Weighed.freed`: What happens to a
  payment keeps the area.
* `lawful_weighed`: Every event does.
* `depth_is_waiting`: In every state of every run, the area is the waits.
-/

namespace BankSim

open Exec

namespace WorkerPool

variable {ω ξ σ : Type}

/-- What the workers are busy with. -/
def running {κ : Type} (self : WorkerPool ω κ) : List (QueuedPayment ω) :=
  self.workers.filterMap (·.currentPayment)

theorem le_largest {values : List Int} {value : Int} (h : value ∈ values) :
    value ≤ largest values := by
  rw [largest]
  cases hmax : values.max? with
  | none =>
      rw [List.max?_eq_none_iff.mp hmax] at h
      exact absurd h List.not_mem_nil
  | some top => exact (List.max?_eq_some_iff.mp hmax).2 value h

theorem largest_mem {values : List Int} (h : values ≠ []) : largest values ∈ values := by
  rw [largest]
  cases hmax : values.max? with
  | none => exact absurd (List.max?_eq_none_iff.mp hmax) h
  | some top => exact (List.max?_eq_some_iff.mp hmax).1

section Changes

variable {self : WorkerPool ω (PoolCallback ω ξ)} {number : Nat} {item : QueuedPayment ω}

theorem exists_worker (hnumber : number < self.workers.length) :
    ∃ worker, self.workers[number]? = some worker ∧
      self.currentPayment number = worker.currentPayment := by
  refine ⟨self.workers[number], List.getElem?_eq_getElem hnumber, ?_⟩
  rw [currentPayment, List.getElem?_eq_getElem hnumber, Option.bind_some]

theorem exists_busy_worker (hitem : self.currentPayment number = some item) :
    ∃ worker, self.workers[number]? = some worker ∧ worker.currentPayment = some item := by
  rcases Option.bind_eq_some_iff.mp hitem with ⟨worker, hworker, hcurrent⟩
  exact ⟨worker, hworker, hcurrent⟩

/-- An idle worker takes a payment. -/
theorem running_assigned (hnumber : number < self.workers.length)
    (hidle : self.isBusy number = false) (waiting : List (QueuedPayment ω)) :
    (self.assigned .complete number item waiting).running.Perm
      (self.started item :: self.running) := by
  rcases exists_worker hnumber with ⟨worker, hworker, hcurrent⟩
  rw [isBusy, hcurrent, Option.isSome_eq_false_iff, Option.isNone_iff_eq_none] at hidle
  have hperm := ListSum.filterMap_modify_perm (·.currentPayment)
    (fun worker : PaymentWorker ω =>
      { worker with currentPayment := some (self.started item) }) hworker
  rw [hidle] at hperm
  exact hperm

/-- A busy worker is done with its payment. -/
theorem running_freed (hitem : self.currentPayment number = some item) :
    self.running.Perm (item :: (self.freed number item).running) := by
  rcases exists_busy_worker hitem with ⟨worker, hworker, hcurrent⟩
  have hperm := ListSum.filterMap_modify_perm (·.currentPayment)
    (fun worker : PaymentWorker ω =>
      { worker with
        currentPayment := none
        paymentsCompleted := worker.paymentsCompleted + 1
        totalBusyTime := worker.totalBusyTime + self.configuration.processingTime }) hworker
  rw [hcurrent] at hperm
  exact hperm.symm

end Changes

/-! ### The area under the depth -/

/-- How long the payments waited, all together. -/
def totalWait (payments : List (QueuedPayment ω)) : Int :=
  (payments.map fun item => item.waitDuration.getD 0).sum

/-- How long the payments in a queue have been there at a time. -/
def waitedUntil (time : Int) (payments : List (QueuedPayment ω)) : Int :=
  (payments.map fun item => time - item.queuedAt).sum

@[simp] theorem totalWait_cons (item : QueuedPayment ω) (payments : List (QueuedPayment ω)) :
    totalWait (item :: payments) = item.waitDuration.getD 0 + totalWait payments := by
  simp only [totalWait, List.map_cons, List.sum_cons]

@[simp] theorem totalWait_append (payments others : List (QueuedPayment ω)) :
    totalWait (payments ++ others) = totalWait payments + totalWait others := by
  simp only [totalWait, List.map_append, List.sum_append]

theorem totalWait_perm {payments others : List (QueuedPayment ω)} (h : payments.Perm others) :
    totalWait payments = totalWait others :=
  (h.map _).sum_eq

@[simp] theorem waitedUntil_cons (time : Int) (item : QueuedPayment ω)
    (payments : List (QueuedPayment ω)) :
    waitedUntil time (item :: payments) = time - item.queuedAt + waitedUntil time payments := by
  simp only [waitedUntil, List.map_cons, List.sum_cons]

@[simp] theorem waitedUntil_append (time : Int) (payments others : List (QueuedPayment ω)) :
    waitedUntil time (payments ++ others)
      = waitedUntil time payments + waitedUntil time others := by
  simp only [waitedUntil, List.map_append, List.sum_append]

/-- From one time to another, each of them waits that much longer. -/
theorem waitedUntil_later (time later : Int) (payments : List (QueuedPayment ω)) :
    waitedUntil later payments = waitedUntil time payments + payments.length * (later - time) := by
  induction payments with
  | nil => simp only [waitedUntil, List.map_nil, List.sum_nil, List.length_nil]; ring
  | cons item payments ih =>
      rw [waitedUntil_cons, waitedUntil_cons, ih, List.length_cons]
      push_cast
      ring

/-- The area is the waits of the payments that started, and what the others
    waited until it was recorded. Every accepted payment is among them. -/
structure Weighed (pool : WorkerPool ω (PoolCallback ω ξ)) : Prop where
  area : pool.depthArea = totalWait (pool.completed ++ pool.running)
    + waitedUntil pool.depthLastChanged pool.waiting
  begun : ∀ item ∈ pool.completed ++ pool.running, item.processingStartedAt.isSome = true
  accepted : pool.arrivalOrder
    = pool.completed.length + pool.running.length + pool.waiting.length

theorem running_new (scheduler : EventScheduler (PoolCallback ω ξ))
    (configuration : CapacityConfiguration) :
    (WorkerPool.new scheduler configuration : WorkerPool ω (PoolCallback ω ξ)).running = [] := by
  refine List.filterMap_eq_nil_iff.mpr fun worker hworker => ?_
  rcases List.mem_map.mp hworker with ⟨number, -, rfl⟩
  rfl

theorem weighed_new (scheduler : EventScheduler (PoolCallback ω ξ))
    (configuration : CapacityConfiguration) :
    Weighed (WorkerPool.new scheduler configuration : WorkerPool ω (PoolCallback ω ξ)) where
  area := by
    rw [running_new]
    rfl
  begun := by
    rw [running_new]
    exact fun item hitem => absurd hitem List.not_mem_nil
  accepted := by
    rw [running_new]
    rfl

section Weighed

variable {self : WorkerPool ω (PoolCallback ω ξ)} {number : Nat} {item : QueuedPayment ω}

/-- The depth is recorded up to now, and the payment that arrives has not waited
    yet. -/
theorem Weighed.arrived (h : Weighed self) (paymentId : String) (paymentType : PaymentType)
    (work : ω) : Weighed (self.arrived paymentId paymentType work) := by
  refine ⟨?_, h.begun, ?_⟩
  · change self.depthArea + self.waiting.length
        * (self.scheduler.clock.time - self.depthLastChanged)
      = totalWait (self.completed ++ self.running) + waitedUntil self.scheduler.clock.time
          (self.waiting ++ [self.accepted paymentId paymentType work])
    rw [waitedUntil_append, waitedUntil_later self.depthLastChanged, h.area]
    simp only [waitedUntil, List.map_cons, List.map_nil, List.sum_cons, List.sum_nil,
      WorkerPool.accepted]
    ring
  · change self.arrivalOrder + 1 = self.completed.length + self.running.length
      + (self.waiting ++ [self.accepted paymentId paymentType work]).length
    rw [h.accepted, List.length_append, List.length_singleton]
    ring

/-- The payment that starts takes with it what it waited until now. -/
theorem Weighed.assigned (h : Weighed self) (hnumber : number < self.workers.length)
    (hidle : self.isBusy number = false) {waiting : List (QueuedPayment ω)}
    (hwaiting : self.waiting = item :: waiting) :
    Weighed (self.assigned .complete number item waiting) := by
  have hrunning := @running_assigned ω ξ self number item hnumber hidle waiting
  have hperm := hrunning.append_left self.completed
  refine ⟨?_, ?_, ?_⟩
  · change self.depthArea + self.waiting.length
        * (self.scheduler.clock.time - self.depthLastChanged)
      = totalWait (self.completed ++ (self.assigned .complete number item waiting).running)
        + waitedUntil self.scheduler.clock.time waiting
    have hlater := waitedUntil_later self.depthLastChanged self.scheduler.clock.time self.waiting
    rw [totalWait_perm hperm, h.area]
    rw [hwaiting] at hlater ⊢
    simp only [totalWait_append, totalWait_cons, waitedUntil_cons] at hlater ⊢
    simp only [started, QueuedPayment.waitDuration, Option.map_some, Option.getD_some]
    linarith
  · intro other hother
    have hmem := hperm.mem_iff.mp hother
    rcases List.mem_append.mp hmem with hmem | hmem
    · exact h.begun other (List.mem_append_left _ hmem)
    · rcases List.mem_cons.mp hmem with rfl | hmem
      · rfl
      · exact h.begun other (List.mem_append_right _ hmem)
  · change self.arrivalOrder = self.completed.length
      + (self.assigned .complete number item waiting).running.length + waiting.length
    rw [h.accepted, hrunning.length_eq, hwaiting, List.length_cons, List.length_cons]
    ring

/-- The payment that is done is among the same ones, with the same wait. -/
theorem Weighed.freed (h : Weighed self) (hitem : self.currentPayment number = some item) :
    Weighed (self.freed number item) := by
  have hrunning := running_freed hitem
  have hperm : ((self.freed number item).completed ++ (self.freed number item).running).Perm
      (self.completed ++
        { item with completedAt := some self.scheduler.clock.time }
          :: (self.freed number item).running) :=
    List.append_assoc self.completed _ _ ▸ List.Perm.refl _
  refine ⟨?_, ?_, ?_⟩
  · have hbefore := h.area
    rw [totalWait_append, totalWait_perm hrunning, totalWait_cons] at hbefore
    change self.depthArea = totalWait ((self.freed number item).completed
        ++ (self.freed number item).running) + waitedUntil self.depthLastChanged self.waiting
    rw [totalWait_perm hperm, totalWait_append, totalWait_cons, hbefore]
    rfl
  · intro other hother
    have hmem := hperm.mem_iff.mp hother
    have hbegun : ∀ other ∈ item :: (self.freed number item).running,
        other.processingStartedAt.isSome = true := fun other hmem =>
      h.begun other (List.mem_append_right _ (hrunning.mem_iff.mpr hmem))
    rcases List.mem_append.mp hmem with hmem | hmem
    · exact h.begun other (List.mem_append_left _ hmem)
    · rcases List.mem_cons.mp hmem with rfl | hmem
      · exact hbegun item List.mem_cons_self
      · exact hbegun other (List.mem_cons_of_mem _ hmem)
  · have hbefore := h.accepted
    rw [hrunning.length_eq, List.length_cons] at hbefore
    change self.arrivalOrder = (self.completed ++ [_]).length
      + (self.freed number item).running.length + self.waiting.length
    rw [hbefore, List.length_append, List.length_singleton]
    ring

end Weighed

/-- Every event keeps the area. -/
theorem lawful_weighed :
    Lawful (fun _ => True) (fun _ => Weighed (ω := ω) (ξ := ξ)) (fun _ => Weighed) := by
  have hkept : Kept (fun _ => True) (Weighed (ω := ω) (ξ := ξ)) Weighed := by
    refine ⟨fun self scheduler h _ _ => ⟨h.area, h.begun, h.accepted⟩,
      fun self time callback h _ => ⟨h.area, h.begun, h.accepted⟩, ?_, ?_, fun self h => h⟩
    · exact fun self paymentId paymentType work h _ => h.arrived paymentId paymentType work
    · exact fun self number item waiting h hnumber hidle hwaiting =>
        h.assigned hnumber hidle hwaiting
  refine ⟨hkept, fun _ => hkept, fun self event scheduler h _ _ => ⟨h.area, h.begun, h.accepted⟩,
    fun self event scheduler number item h _ _ _ _ _ => ⟨h.area, h.begun, h.accepted⟩, ?_⟩
  exact fun self number item h hitem => h.freed hitem

/-- The area is the total of the waits, and with nothing left to do the average
    depth is that total over the time it took. -/
structure DepthIsWaiting (pool : WorkerPool ω (PoolCallback ω ξ)) : Prop where
  begun : ∀ item ∈ pool.completed ++ pool.running, item.waitDuration.isSome = true
  area : pool.depthArea = totalWait (pool.completed ++ pool.running)
    + waitedUntil pool.depthLastChanged pool.waiting
  average : pool.completed.length = pool.arrivalOrder → pool.metrics.totalCompletionTime ≠ 0 →
    pool.metrics.averageQueueDepthHundredths
      = (100 * totalWait pool.completed).fdiv pool.metrics.totalCompletionTime

theorem Weighed.depthIsWaiting {pool : WorkerPool ω (PoolCallback ω ξ)} (h : Weighed pool) :
    DepthIsWaiting pool where
  begun item hitem := by
    rw [QueuedPayment.waitDuration, Option.isSome_map]
    exact h.begun item hitem
  area := h.area
  average hall helapsed := by
    -- With all payments completed, none runs and none waits.
    have hcount := h.accepted
    have hrunning : pool.running = [] := List.length_eq_zero_iff.mp (by omega)
    have hwaiting : pool.waiting = [] := List.length_eq_zero_iff.mp (by omega)
    have harea : pool.depthArea = totalWait pool.completed := by
      rw [h.area, hrunning, hwaiting, List.append_nil, waitedUntil, List.map_nil, List.sum_nil,
        Int.add_zero]
    change (if pool.metrics.totalCompletionTime ≠ 0 then
      (pool.depthArea * 100).fdiv pool.metrics.totalCompletionTime else 0) = _
    rw [if_pos helapsed, harea, Int.mul_comm]

/-- In a run in which works may enqueue and schedule what they like, the area
    is the total of the waits in every state: of those that started, and of the
    others up to the last change of the depth. -/
theorem depth_is_waiting (pool : Component σ (WorkerPool ω (PoolCallback ω ξ)))
    (perform : ω → Action σ Unit) (other : ξ → Action σ Unit)
    (hperform : ∀ work, OnlyMakes pool Use.exec Use.Fair (perform work))
    (hother : ∀ callback, OnlyMakes pool Use.exec Use.Fair (other callback))
    (clock : VirtualClock) (configuration : CapacityConfiguration) (s : σ)
    (steps : List (Step ω ξ)) (hsteps : ∀ step ∈ steps, step.Fair) :
    AllStates (Step.exec pool perform other) (fun t => DepthIsWaiting (pool.get t))
      (pool.set (WorkerPool.new (EventScheduler.new clock) configuration) s) steps := by
  have hstart : Weighed (pool.get
      (pool.set (WorkerPool.new (EventScheduler.new clock) configuration) s)) := by
    rw [pool.get_set]
    exact weighed_new _ configuration
  exact allStates_mono (fun _ => Weighed.depthIsWaiting)
    (lawful_weighed.always hperform hother (fun _ _ h => h) hstart hsteps)

/-- Work that does nothing. -/
def plainWork (_ : Unit) : Action (WorkerPool Unit (PoolCallback Unit Empty)) Unit :=
  return

theorem onlyMakes_plainWork (work : Unit) :
    OnlyMakes Component.whole Use.exec Use.Fair (plainWork work) :=
  fun _ => ⟨[], fun _ hmem => absurd hmem List.not_mem_nil, rfl⟩

/-- Two payments at once for one worker, who completes both. -/
def plainRun : List (Step Unit Empty) :=
  [.use (.enqueue "PAY-1" .achTransfer ()), .use (.enqueue "PAY-2" .achTransfer ()), .runNext,
    .runNext]

theorem fair_plainRun : ∀ step ∈ plainRun, step.Fair := by
  simp [plainRun, Step.Fair, Use.Fair]

theorem depth_is_waiting_plain :
    AllStates (Step.exec Component.whole plainWork Empty.elim) DepthIsWaiting
      (WorkerPool.new EventScheduler.new oneWorker) plainRun :=
  depth_is_waiting Component.whole plainWork Empty.elim onlyMakes_plainWork
    (fun callback => callback.elim) ⟨0, by decide⟩ oneWorker
    (WorkerPool.new EventScheduler.new oneWorker) plainRun fair_plainRun

end WorkerPool

end BankSim
