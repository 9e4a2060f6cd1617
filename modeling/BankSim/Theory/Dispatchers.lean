import BankSim.Theory.QueueCapacity
import BankSim.Theory.PoolRecurrence

/-!
# The Two Dispatchers Compared

The queue takes so many payments through their work in each minute, and all of
that at one instant. The pool has each of its workers busy with a payment for the
processing time. That they leave the same ledger behind is known; here it is about
the times.

What decides is the throughput. With as many workers for each payment a minute as
the processing time has minutes the two come to the same, and the queue completes
every payment while the pool is at work on it. A pool with more workers than that
still starts it before the queue completes it, and a pool with fewer completes it
after the queue.

The same holds of two pools. A few workers of some speed and several times as many
that take as many times as long have the same throughput. The many start every
payment no later, and the few complete it no later.

Both come down to what is said of servers in general, since the queue is such a
service, but for the minute within which a payment becomes ready for it.

## Main definitions

* `StartedBy`: One record of a payment says it was started by the time at which
  another one says it was completed.

## Theorems

* `PaymentQueue.Timed.bounds`: The queue is a service, up to a minute.
* `throughput_decides`: The runs of a queue and of a pool compared.
* `WorkerPool.speed_or_number`: The runs of two pools compared.
-/

namespace BankSim

open Exec

variable {ω ξ ξ' σ τ : Type}

/-- By one record a payment is started before by the other it is completed, or in
    the same minute. -/
def StartedBy (item other : QueuedPayment ω) : Prop :=
  item.arrivalOrder = other.arrivalOrder ∧ item.paymentId = other.paymentId ∧
    ∃ start finish, item.processingStartedAt = some start ∧ other.completedAt = some finish ∧
      start ≤ finish

/-! ### The queue and the pool -/

namespace PaymentQueue

/-- A queue completes payments as the servers of a service start them, or a minute
    later. -/
theorem Timed.bounds {κ : Type} {capacity : Nat} {arrivals : List (Arrival ω)}
    {self : PaymentQueue ω κ} (h : Timed capacity arrivals self) :
    ∃ finish : Nat → Int,
      List.Forall₂ (fun i item => Records arrivals i item ∧ item.completedAt = some (finish i))
        (List.range arrivals.length) self.completed ∧
      ∀ i < arrivals.length, Servers.start capacity 1 (arrivalTime arrivals) i ≤ finish i ∧
        finish i ≤ Servers.start capacity 1 (arrivalTime arrivals) i + 1 := by
  rcases h with ⟨ready, -, hready, -, hcompleted⟩
  refine ⟨promised capacity ready, hcompleted, fun i hi => ⟨?_, ?_⟩⟩
  · refine Servers.start_le_start i fun j hj => ?_
    have hlower := (hready j (lt_of_le_of_lt hj hi)).1
    exact hlower.trans Servers.arrival_le_start
  · exact Servers.start_le_add fun j hj => (hready j (lt_of_le_of_lt hj hi)).2

end PaymentQueue

section Throughput

variable {arrivals : List (Arrival ω)} {capacity : Nat} {configuration : CapacityConfiguration}

/-- A pool of no less throughput starts every payment before the service of that
    capacity does. -/
theorem startTime_le_start (hpos : 0 < capacity)
    (hsorted : arrivals.Pairwise fun a b => a.time ≤ b.time)
    (hmore : (capacity : Int) * configuration.processingTime ≤ configuration.workerCount) :
    ∀ i < arrivals.length, WorkerPool.startTime configuration arrivals i
      ≤ Servers.start capacity 1 (arrivalTime arrivals) i := by
  intro i hi
  rcases Int.eq_ofNat_of_zero_le configuration.processingTime_pos.le with ⟨fold, hfold⟩
  have hpositive := configuration.processingTime_pos
  rw [hfold] at hmore hpositive
  have hworkers : capacity * fold ≤ configuration.workerCount := by exact_mod_cast hmore
  have hfolds : 0 < fold := by omega
  unfold WorkerPool.startTime
  rw [hfold]
  calc Servers.start configuration.workerCount fold (arrivalTime arrivals) i
      ≤ Servers.start (capacity * fold) fold (arrivalTime arrivals) i :=
        Servers.start_anti (Nat.mul_pos hpos hfolds) hworkers (arrivalTime_mono hsorted) i hi
    _ ≤ Servers.start capacity 1 (arrivalTime arrivals) i := by
        have hfewer := @Servers.start_fold_le capacity 1 (arrivalTime arrivals) hpos fold hfolds i
        rw [one_mul] at hfewer
        exact hfewer

/-- A pool of no more throughput completes every payment after that service. -/
theorem start_le_finishTime (hpos : 0 < capacity)
    (hsorted : arrivals.Pairwise fun a b => a.time ≤ b.time)
    (hfewer : (configuration.workerCount : Int) ≤ capacity * configuration.processingTime) :
    ∀ i < arrivals.length, Servers.start capacity 1 (arrivalTime arrivals) i + 1
      ≤ WorkerPool.startTime configuration arrivals i + configuration.processingTime := by
  intro i hi
  rcases Int.eq_ofNat_of_zero_le configuration.processingTime_pos.le with ⟨fold, hfold⟩
  have hpositive := configuration.processingTime_pos
  rw [hfold] at hfewer hpositive
  have hworkers : configuration.workerCount ≤ capacity * fold := by exact_mod_cast hfewer
  have hfolds : 0 < fold := by omega
  have hmono := arrivalTime_mono hsorted
  unfold WorkerPool.startTime
  rw [hfold]
  calc Servers.start capacity 1 (arrivalTime arrivals) i + 1
      ≤ Servers.start (capacity * fold) fold (arrivalTime arrivals) i + fold := by
        have hdone := @Servers.le_start_fold capacity 1 (arrivalTime arrivals) arrivals.length hpos
          (by decide) hmono fold hfolds i hi
        rw [one_mul] at hdone
        exact hdone
    _ ≤ Servers.start configuration.workerCount fold (arrivalTime arrivals) i + fold :=
        Int.add_le_add_right
          (Servers.start_anti configuration.workerCount_pos hworkers hmono i hi) _

/-- The records of a queue and of a pool that have completed the same payments. -/
theorem throughput_compare {κ κ' : Type} {queue : PaymentQueue ω κ} {pool : WorkerPool ω κ'}
    (hqueue : PaymentQueue.Timed capacity arrivals queue)
    (hpool : WorkerPool.Computes configuration arrivals pool) (hpos : 0 < capacity)
    (hsorted : arrivals.Pairwise fun a b => a.time ≤ b.time) :
    ((capacity : Int) * configuration.processingTime ≤ configuration.workerCount →
        List.Forall₂ StartedBy pool.completed queue.completed) ∧
      ((configuration.workerCount : Int) ≤ capacity * configuration.processingTime →
        List.Forall₂ (PaymentQueue.CompletedWithin 0) queue.completed pool.completed) := by
  rcases hqueue.bounds with ⟨finish, hcompleted, hbounds⟩
  constructor
  · intro hmore
    refine Places.forall₂_of_places hpool hcompleted ?_
    rintro i hi item other ⟨hrecords, hstart, -⟩ ⟨hrecords', hfinish⟩
    rcases PaymentQueue.records_same hrecords hrecords' with ⟨horder, hid⟩
    exact ⟨horder, hid, _, _, hstart, hfinish,
      (startTime_le_start hpos hsorted hmore i hi).trans (hbounds i hi).1⟩
  · intro hfewer
    refine Places.forall₂_of_places hcompleted hpool ?_
    rintro i hi item other ⟨hrecords, hfinish⟩ ⟨hrecords', -, hfinish'⟩
    rcases PaymentQueue.records_same hrecords hrecords' with ⟨horder, hid⟩
    refine ⟨horder, hid, _, _, hfinish, hfinish', ?_⟩
    rw [Int.add_zero]
    exact (hbounds i hi).2.trans (start_le_finishTime hpos hsorted hfewer i hi)

end Throughput

/-- A queue and a pool are given the same payments up front, with work that neither
    raises, enqueues nor moves the clock. Both complete them all. If the pool has the
    throughput of the queue or more, it starts every payment by the time the queue
    completes it. If it has that throughput or less, the queue completes every payment
    no later than the pool. -/
theorem throughput_decides (queue : Component σ (PaymentQueue ω (QueueCallback ω ξ)))
    (pool : Component τ (WorkerPool ω (PoolCallback ω ξ')))
    (perform : ω → Action σ Unit) (perform' : ω → Action τ Unit)
    (other : ξ → Action σ Unit) (other' : ξ' → Action τ Unit)
    (hperform : ∀ work s, ∃ t, (perform work).run s = .ok () t ∧
      Spares queue PaymentQueue.schedulerOf PaymentQueue.ownCallback s t)
    (hother : ∀ callback s, ∃ t, (other callback).run s = .ok () t ∧
      Spares queue PaymentQueue.schedulerOf PaymentQueue.ownCallback s t)
    (hperform' : ∀ work s, ∃ t, (perform' work).run s = .ok () t ∧
      Spares pool WorkerPool.schedulerOf WorkerPool.ownCallback s t)
    (hother' : ∀ callback s, ∃ t, (other' callback).run s = .ok () t ∧
      Spares pool WorkerPool.schedulerOf WorkerPool.ownCallback s t)
    (clock : VirtualClock) (rows : List (Arrival ω)) (htimes : ∀ row ∈ rows, clock.time ≤ row.time)
    (hids : ∀ row ∈ rows, isBlank row.paymentId = false) (capacity : Int)
    (configuration : CapacityConfiguration) (s : σ)
    (hqueue : PaymentQueue.new (EventScheduler.new clock) capacity = .ok (queue.get s)) (t : τ)
    (hpool : pool.get t = WorkerPool.new (EventScheduler.new clock) configuration) :
    let arrivals := sortedBy (·.time) rows
    let run := EventScheduler.run (queue.comp PaymentQueue.schedulerOf)
      (QueueCallback.call queue perform other)
    let run' := EventScheduler.run (pool.comp WorkerPool.schedulerOf)
      (PoolCallback.call pool perform' other')
    let completes := fun completed : List (QueuedPayment ω) =>
      List.Forall₂ (Records arrivals) (List.range arrivals.length) completed
    ∃ received received',
      ((queue.comp PaymentQueue.schedulerOf).zoom
        (scheduleArrivals PaymentQueue.arrivalCallback rows)).run s = .ok () received ∧
      ((pool.comp WorkerPool.schedulerOf).zoom
        (scheduleArrivals WorkerPool.arrivalCallback rows)).run t = .ok () received' ∧
      RunsTo (queue.comp PaymentQueue.schedulerOf) (QueueCallback.call queue perform other)
        (IsEmpty ξ) (fun final => completes (queue.get final).completed) received ∧
      RunsTo (pool.comp WorkerPool.schedulerOf) (PoolCallback.call pool perform' other')
        (IsEmpty ξ') (fun final => completes (pool.get final).completed) received' ∧
      ∀ rounds rounds' final final', (run rounds).run received = .ok true final →
        (run' rounds').run received' = .ok true final' →
          (capacity * configuration.processingTime ≤ configuration.workerCount →
            List.Forall₂ StartedBy (pool.get final').completed (queue.get final).completed) ∧
          ((configuration.workerCount : Int) ≤ capacity * configuration.processingTime →
            List.Forall₂ (PaymentQueue.CompletedWithin 0) (queue.get final).completed
              (pool.get final').completed) := by
  intro arrivals run run' completes
  have hpos := (PaymentQueue.prompt_new clock hqueue).1
  have hsorted : arrivals.Pairwise fun a b => a.time ≤ b.time := sortedBy_pairwise _ rows
  have hids' : ∀ arrival ∈ arrivals, isBlank arrival.paymentId = false :=
    fun arrival hmem => hids arrival ((sortedBy_perm _ rows).mem_iff.mp hmem)
  have hI := undisturbed_of_spares hperform' hother' arrivals
  rcases PaymentQueue.queue_timed hperform hother clock htimes hids hqueue with
    ⟨received, hreceived, hcompletes, htimed⟩
  rcases WorkerPool.progress_new clock hI htimes hpool trivial with
    ⟨received', hreceived', hprogress⟩
  have hcomputes := (WorkerPool.pool_run hI hsorted hids' hprogress).imp _ _ fun _ ht => ht.1
  refine ⟨received, received', hreceived, hreceived', hcompletes,
    hcomputes.imp _ _ fun _ ht => ht.imp fun _ _ hserved => hserved.1, ?_⟩
  intro rounds rounds' final final' hfinal hfinal'
  rcases hcomputes.1 rounds' with ⟨ended, last, hlast, hdone⟩
  cases hlast.symm.trans hfinal'
  have hcapacity : ((capacity.toNat : Nat) : Int) = capacity := Int.toNat_of_nonneg hpos.le
  have hcompare := throughput_compare (htimed rounds final hfinal) (hdone rfl) (by omega) hsorted
  rw [hcapacity] at hcompare
  exact hcompare

/-- Two payments a minute, and four workers that take two minutes each. -/
theorem throughput_decides_four :
    let queue : Component (PaymentQueue Unit (QueueCallback Unit Empty)) _ := Component.whole
    let pool : Component (WorkerPool Unit (PoolCallback Unit Empty)) _ := Component.whole
    let arrivals := sortedBy (·.time) PaymentQueue.fourArrivals
    let run := EventScheduler.run (queue.comp PaymentQueue.schedulerOf)
      (QueueCallback.call queue (fun _ => pure ()) Empty.elim)
    let run' := EventScheduler.run (pool.comp WorkerPool.schedulerOf)
      (PoolCallback.call pool (fun _ => pure ()) Empty.elim)
    let completes := fun completed : List (QueuedPayment Unit) =>
      List.Forall₂ (Records arrivals) (List.range arrivals.length) completed
    ∃ received received',
      ((queue.comp PaymentQueue.schedulerOf).zoom
        (scheduleArrivals PaymentQueue.arrivalCallback PaymentQueue.fourArrivals)).run
          (PaymentQueue.ofCapacity 2 (by decide)) = .ok () received ∧
      ((pool.comp WorkerPool.schedulerOf).zoom
        (scheduleArrivals WorkerPool.arrivalCallback PaymentQueue.fourArrivals)).run
          (WorkerPool.new (EventScheduler.new ⟨0, by decide⟩)
            ⟨4, 2, by decide, by decide⟩) = .ok () received' ∧
      RunsTo (queue.comp PaymentQueue.schedulerOf)
        (QueueCallback.call queue (fun _ => pure ()) Empty.elim)
        (IsEmpty Empty) (fun final => completes (queue.get final).completed) received ∧
      RunsTo (pool.comp WorkerPool.schedulerOf)
        (PoolCallback.call pool (fun _ => pure ()) Empty.elim)
        (IsEmpty Empty) (fun final => completes (pool.get final).completed) received' ∧
      ∀ rounds rounds' final final', (run rounds).run received = .ok true final →
        (run' rounds').run received' = .ok true final' →
          ((2 : Int) * 2 ≤ (4 : Nat) →
            List.Forall₂ StartedBy (pool.get final').completed (queue.get final).completed) ∧
          (((4 : Nat) : Int) ≤ 2 * 2 →
            List.Forall₂ (PaymentQueue.CompletedWithin 0) (queue.get final).completed
              (pool.get final').completed) :=
  throughput_decides Component.whole Component.whole (fun _ => pure ()) (fun _ => pure ())
    Empty.elim Empty.elim (fun _ s => ⟨s, rfl, s.scheduler, .refl, rfl⟩)
    (fun callback => callback.elim) (fun _ s => ⟨s, rfl, s.scheduler, .refl, rfl⟩)
    (fun callback => callback.elim) ⟨0, by decide⟩ PaymentQueue.fourArrivals (by decide)
    (by decide) 2 ⟨4, 2, by decide, by decide⟩ (PaymentQueue.ofCapacity 2 (by decide)) rfl _ rfl

/-! ### Two pools -/

namespace WorkerPool

/-- One record says that a payment was started no later than another one says. -/
def StartedNoLater (item other : QueuedPayment ω) : Prop :=
  item.arrivalOrder = other.arrivalOrder ∧ item.paymentId = other.paymentId ∧
    ∃ start start', item.processingStartedAt = some start ∧
      other.processingStartedAt = some start' ∧ start ≤ start'

section Folds

variable {arrivals : List (Arrival ω)} {configuration configuration' : CapacityConfiguration}
  {fold : Nat}

/-- Workers that take so many times as long start no payment later if they are as
    many times as many. -/
theorem startTime_fold_le (hsorted : arrivals.Pairwise fun a b => a.time ≤ b.time)
    (hfold : configuration'.processingTime = configuration.processingTime * fold)
    (hmore : configuration.workerCount * fold ≤ configuration'.workerCount) :
    ∀ i < arrivals.length,
      startTime configuration' arrivals i ≤ startTime configuration arrivals i := by
  intro i hi
  have hpos := configuration.workerCount_pos
  have hfolds : 0 < fold := by
    refine Nat.pos_of_ne_zero fun hzero => ?_
    have hpositive := configuration'.processingTime_pos
    rw [hfold, hzero] at hpositive
    simp at hpositive
  unfold startTime
  rw [hfold]
  calc Servers.start configuration'.workerCount (configuration.processingTime * fold)
        (arrivalTime arrivals) i
      ≤ Servers.start (configuration.workerCount * fold) (configuration.processingTime * fold)
          (arrivalTime arrivals) i :=
        Servers.start_anti (Nat.mul_pos hpos hfolds) hmore (arrivalTime_mono hsorted) i hi
    _ ≤ Servers.start configuration.workerCount configuration.processingTime
          (arrivalTime arrivals) i := Servers.start_fold_le hpos hfolds i

/-- They complete none earlier if they are at most as many times as many. -/
theorem finishTime_le_fold (hsorted : arrivals.Pairwise fun a b => a.time ≤ b.time)
    (hfold : configuration'.processingTime = configuration.processingTime * fold)
    (hfewer : configuration'.workerCount ≤ configuration.workerCount * fold) :
    ∀ i < arrivals.length,
      startTime configuration arrivals i + configuration.processingTime
        ≤ startTime configuration' arrivals i + configuration'.processingTime := by
  intro i hi
  have hpos := configuration.workerCount_pos
  have hpos' := configuration'.workerCount_pos
  have hmono := arrivalTime_mono hsorted
  have hfolds : 0 < fold := by
    refine Nat.pos_of_ne_zero fun hzero => ?_
    rw [hzero, Nat.mul_zero] at hfewer
    omega
  unfold startTime
  rw [hfold]
  calc Servers.start configuration.workerCount configuration.processingTime
          (arrivalTime arrivals) i + configuration.processingTime
      ≤ Servers.start (configuration.workerCount * fold) (configuration.processingTime * fold)
          (arrivalTime arrivals) i + configuration.processingTime * fold :=
        Servers.le_start_fold hpos configuration.processingTime_pos.le hmono hfolds i hi
    _ ≤ Servers.start configuration'.workerCount (configuration.processingTime * fold)
          (arrivalTime arrivals) i + configuration.processingTime * fold :=
        Int.add_le_add_right (Servers.start_anti hpos' hfewer hmono i hi) _

theorem fold_compare {κ κ' : Type} {self : WorkerPool ω κ} {self' : WorkerPool ω κ'}
    (h : Computes configuration arrivals self) (h' : Computes configuration' arrivals self')
    (hsorted : arrivals.Pairwise fun a b => a.time ≤ b.time)
    (hfold : configuration'.processingTime = configuration.processingTime * fold) :
    (configuration.workerCount * fold ≤ configuration'.workerCount →
        List.Forall₂ StartedNoLater self'.completed self.completed) ∧
      (configuration'.workerCount ≤ configuration.workerCount * fold →
        List.Forall₂ (PaymentQueue.CompletedWithin 0) self.completed self'.completed) := by
  constructor
  · intro hmore
    refine Places.forall₂_of_places h' h ?_
    rintro i hi item other ⟨hrecords', hstart', -⟩ ⟨hrecords, hstart, -⟩
    rcases PaymentQueue.records_same hrecords' hrecords with ⟨horder, hid⟩
    exact ⟨horder, hid, _, _, hstart', hstart, startTime_fold_le hsorted hfold hmore i hi⟩
  · intro hfewer
    refine Places.forall₂_of_places h h' ?_
    rintro i hi item other ⟨hrecords, -, hfinish⟩ ⟨hrecords', -, hfinish'⟩
    rcases PaymentQueue.records_same hrecords hrecords' with ⟨horder, hid⟩
    refine ⟨horder, hid, _, _, hfinish, hfinish', ?_⟩
    rw [Int.add_zero]
    exact finishTime_le_fold hsorted hfold hfewer i hi

end Folds

/-- Two pools are given the same payments up front, with work that neither raises,
    enqueues nor moves the clock, and the workers of the second take so many times as
    long. If they are as many times as many or more, they start every payment no
    later. If they are as many times as many or fewer, the first pool completes every
    payment no later. -/
theorem speed_or_number (pool : Component σ (WorkerPool ω (PoolCallback ω ξ)))
    (perform : ω → Action σ Unit) (other : ξ → Action σ Unit)
    (hperform : ∀ work s, ∃ t, (perform work).run s = .ok () t ∧
      Spares pool schedulerOf ownCallback s t)
    (hother : ∀ callback s, ∃ t, (other callback).run s = .ok () t ∧
      Spares pool schedulerOf ownCallback s t)
    (clock : VirtualClock) (rows : List (Arrival ω)) (htimes : ∀ row ∈ rows, clock.time ≤ row.time)
    (hids : ∀ row ∈ rows, isBlank row.paymentId = false)
    (configuration configuration' : CapacityConfiguration) (fold : Nat)
    (hfold : configuration'.processingTime = configuration.processingTime * fold) (s : σ) :
    let arrivals := sortedBy (·.time) rows
    let start := fun configuration => pool.set (new (EventScheduler.new clock) configuration) s
    let scheduled := (pool.comp schedulerOf).zoom (scheduleArrivals arrivalCallback rows)
    let run := EventScheduler.run (pool.comp schedulerOf) (PoolCallback.call pool perform other)
    let completes := RunsTo (pool.comp schedulerOf) (PoolCallback.call pool perform other)
      (IsEmpty ξ) fun final => List.Forall₂ (Records arrivals) (List.range arrivals.length)
        (pool.get final).completed
    ∃ received received', scheduled.run (start configuration) = .ok () received ∧
      scheduled.run (start configuration') = .ok () received' ∧
      completes received ∧ completes received' ∧
      ∀ rounds rounds' final final', (run rounds).run received = .ok true final →
        (run rounds').run received' = .ok true final' →
          (configuration.workerCount * fold ≤ configuration'.workerCount →
            List.Forall₂ StartedNoLater (pool.get final').completed
              (pool.get final).completed) ∧
          (configuration'.workerCount ≤ configuration.workerCount * fold →
            List.Forall₂ (PaymentQueue.CompletedWithin 0) (pool.get final).completed
              (pool.get final').completed) := by
  intro arrivals start scheduled run completes
  have hsorted : arrivals.Pairwise fun a b => a.time ≤ b.time := sortedBy_pairwise _ rows
  have hids' : ∀ arrival ∈ arrivals, isBlank arrival.paymentId = false :=
    fun arrival hmem => hids arrival ((sortedBy_perm _ rows).mem_iff.mp hmem)
  have hI := undisturbed_of_spares hperform hother arrivals
  -- What is said of one pool, for each of the two.
  have hcomputes : ∀ configuration, ∃ received, scheduled.run (start configuration)
        = .ok () received ∧
      RunsTo (pool.comp schedulerOf) (PoolCallback.call pool perform other) (IsEmpty ξ)
        (fun final => Computes configuration arrivals (pool.get final)) received := by
    intro configuration
    rcases progress_new clock hI htimes (pool.get_set _ s) trivial with
      ⟨received, hreceived, hprogress⟩
    exact ⟨received, hreceived, (pool_run hI hsorted hids' hprogress).imp _ _ fun _ ht => ht.1⟩
  have hrecords : ∀ configuration (final : σ), Computes configuration arrivals (pool.get final) →
      List.Forall₂ (Records arrivals) (List.range arrivals.length) (pool.get final).completed :=
    fun _ _ h => h.imp fun _ _ hserved => hserved.1
  rcases hcomputes configuration with ⟨received, hreceived, hruns⟩
  rcases hcomputes configuration' with ⟨received', hreceived', hruns'⟩
  refine ⟨received, received', hreceived, hreceived', hruns.imp _ _ (hrecords configuration),
    hruns'.imp _ _ (hrecords configuration'), ?_⟩
  intro rounds rounds' final final' hfinal hfinal'
  rcases hruns.1 rounds with ⟨ended, last, hlast, hdone⟩
  rcases hruns'.1 rounds' with ⟨ended', last', hlast', hdone'⟩
  cases hlast.symm.trans hfinal
  cases hlast'.symm.trans hfinal'
  exact fold_compare (hdone rfl) (hdone' rfl) hsorted hfold

/-- One worker that takes a minute, and three that take three. -/
theorem speed_or_number_three :
    let pool : Component (WorkerPool Unit (PoolCallback Unit Empty)) _ := Component.whole
    let arrivals := sortedBy (·.time) threeArrivals
    let start := fun configuration : CapacityConfiguration =>
      (new (EventScheduler.new ⟨0, by decide⟩) configuration :
        WorkerPool Unit (PoolCallback Unit Empty))
    let scheduled := (pool.comp schedulerOf).zoom (scheduleArrivals arrivalCallback threeArrivals)
    let run := EventScheduler.run (pool.comp schedulerOf)
      (PoolCallback.call pool (fun _ => pure ()) Empty.elim)
    let completes := RunsTo (pool.comp schedulerOf)
      (PoolCallback.call pool (fun _ => pure ()) Empty.elim) (IsEmpty Empty) fun final =>
        List.Forall₂ (Records arrivals) (List.range arrivals.length) (pool.get final).completed
    ∃ received received', scheduled.run (start ⟨1, 1, by decide, by decide⟩) = .ok () received ∧
      scheduled.run (start ⟨3, 3, by decide, by decide⟩) = .ok () received' ∧
      completes received ∧ completes received' ∧
      ∀ rounds rounds' final final', (run rounds).run received = .ok true final →
        (run rounds').run received' = .ok true final' →
          (1 * 3 ≤ 3 → List.Forall₂ StartedNoLater (pool.get final').completed
            (pool.get final).completed) ∧
          (3 ≤ 1 * 3 → List.Forall₂ (PaymentQueue.CompletedWithin 0) (pool.get final).completed
            (pool.get final').completed) :=
  speed_or_number Component.whole (fun _ => pure ()) Empty.elim
    (fun _ s => ⟨s, rfl, s.scheduler, .refl, rfl⟩) (fun callback => callback.elim)
    ⟨0, by decide⟩ threeArrivals (by decide) (by decide) ⟨1, 1, by decide, by decide⟩
    ⟨3, 3, by decide, by decide⟩ 3 rfl
    (new (EventScheduler.new ⟨0, by decide⟩) ⟨1, 1, by decide, by decide⟩)

end WorkerPool

end BankSim
