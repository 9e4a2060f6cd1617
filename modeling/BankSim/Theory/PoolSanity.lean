import BankSim.Theory.PoolMetrics

/-!
# When the Metrics of a Pool Make Sense

The metrics of a pool measure three things up to three different moments. The
time ends with the last completion, and is counted from zero as long as there
is none. The area under the depth ends with the last change of the depth.

So the time is negative from a first arrival after time zero until something is
completed. And the area runs ahead of the time when a payment arrives behind
others, later than the last completion and than the last change of the depth:
the average depth can then exceed the largest depth there ever was. The next
completion makes both good.

`Punctual` is the condition on an arrival under which neither happens, and
`Measured` is what it keeps. While the depth is recorded, the area stays below
the largest depth times the clock. A completion at that very moment makes the
same bound one for the time. Any other arrival makes the area grow past the last
completion, or the time negative.

## Main definitions

* `WorkerPool.Sane`: The metrics make sense.
* `WorkerPool.Punctual`: A payment may arrive.
* `WorkerPool.Measured`: The invariant, with one worker possibly away.

## Theorems

* `Measured.not_punctual_iff`: What the condition leaves out.
* `lawful_measured`: Events keep the invariant, where payments are punctual.
* `metrics_sane`: A run of punctual payments shows sane metrics only.
* `lateFirstArrival_insane`: A single payment that arrives at time one.
-/

namespace BankSim

open Exec

namespace WorkerPool

variable {ω ξ σ : Type}

/-- Elapsed time and throughput are not negative, and the average depth lies
    between zero and the largest depth. -/
structure Sane (pool : WorkerPool ω (PoolCallback ω ξ)) : Prop where
  elapsed : 0 ≤ pool.metrics.totalCompletionTime
  throughput : 0 ≤ pool.metrics.throughputHundredths
  average : 0 ≤ pool.metrics.averageQueueDepthHundredths ∧
    pool.metrics.averageQueueDepthHundredths ≤ 100 * pool.metrics.maximumQueueDepth

/-- Something was completed at this very moment. -/
def JustCompleted (pool : WorkerPool ω (PoolCallback ω ξ)) : Prop :=
  ∃ item ∈ pool.completed, item.completedAt = some pool.scheduler.clock.time

/-- The depth was recorded just now, or something was completed just now. -/
def Fresh (pool : WorkerPool ω (PoolCallback ω ξ)) : Prop :=
  pool.depthLastChanged = pool.scheduler.clock.time ∨ pool.JustCompleted

/-- A first payment arrives at time zero, and after the first completion none
    arrives behind others, unless the depth changed or something was completed
    at this moment. -/
def Punctual (pool : WorkerPool ω (PoolCallback ω ξ)) : Prop :=
  (pool.firstArrival = none → pool.scheduler.clock.time = 0) ∧
    (pool.completed = [] ∨ pool.waiting = [] ∨ pool.Fresh)

/-- When the last payment was completed, or zero. -/
def finish (pool : WorkerPool ω (PoolCallback ω ξ)) : Int :=
  largest (pool.completed.map fun item => item.completedAt.getD 0)

/-- The area is at most the largest depth times the time, on the clock of the
    depth and, between two events, on that of the completions. -/
structure Measured (away : Option Nat) (pool : WorkerPool ω (PoolCallback ω ξ)) : Prop where
  opened : pool.firstArrival.getD 0 = 0
  unopened : pool.firstArrival = none → pool.waiting = [] ∧ pool.running = []
  area_nonneg : 0 ≤ pool.depthArea
  recorded : 0 ≤ pool.depthLastChanged ∧ pool.depthLastChanged ≤ pool.scheduler.clock.time
  depth : pool.waiting.length ≤ pool.maximumDepth
  area_le : pool.depthArea ≤ pool.maximumDepth * pool.depthLastChanged
  ended : ∀ item ∈ pool.completed, ∃ time, item.completedAt = some time ∧
    0 ≤ time ∧ time ≤ pool.scheduler.clock.time
  measured : away = none → pool.completed ≠ [] →
    pool.depthArea ≤ pool.maximumDepth * pool.finish
  working : ∀ number ∈ away, pool.firstArrival ≠ none

theorem measured_new (clock : VirtualClock) (configuration : CapacityConfiguration) :
    Measured none (WorkerPool.new (EventScheduler.new clock) configuration
      : WorkerPool ω (PoolCallback ω ξ)) where
  opened := rfl
  unopened _ := ⟨rfl, running_new _ configuration⟩
  area_nonneg := le_rfl
  recorded := ⟨clock.time_nonneg, le_rfl⟩
  depth := le_rfl
  area_le := by
    change (0 : Int) ≤ ((0 : Nat) : Int) * clock.time
    rw [Nat.cast_zero, Int.zero_mul]
  ended item hitem := absurd hitem List.not_mem_nil
  measured _ hne := absurd rfl hne
  working number hnumber := by cases hnumber

section Changes

variable {away : Option Nat} {self : WorkerPool ω (PoolCallback ω ξ)}

/-- The clock moves on. -/
theorem Measured.withScheduler (h : Measured away self)
    {scheduler : EventScheduler (PoolCallback ω ξ)}
    (htime : self.scheduler.clock.time ≤ scheduler.clock.time) :
    Measured away { self with scheduler } where
  opened := h.opened
  unopened := h.unopened
  area_nonneg := h.area_nonneg
  recorded := ⟨h.recorded.1, h.recorded.2.trans htime⟩
  depth := h.depth
  area_le := h.area_le
  ended item hitem := by
    rcases h.ended item hitem with ⟨time, hcompleted, hnonneg, hpast⟩
    exact ⟨time, hcompleted, hnonneg, hpast.trans htime⟩
  measured := h.measured
  working := h.working

/-- Recording the depth up to now adds to the area, and keeps its bound. -/
theorem Measured.area_recorded (h : Measured away self) :
    0 ≤ self.recorded.depthArea ∧
      self.recorded.depthArea ≤ self.maximumDepth * self.scheduler.clock.time := by
  have harea := h.area_le
  have hnonneg := h.area_nonneg
  have hspan : 0 ≤ self.scheduler.clock.time - self.depthLastChanged := by
    have := h.recorded.2
    omega
  have hdepth : (self.waiting.length : Int) ≤ self.maximumDepth := by
    exact_mod_cast h.depth
  have hadded : self.waiting.length * (self.scheduler.clock.time - self.depthLastChanged)
      ≤ self.maximumDepth * (self.scheduler.clock.time - self.depthLastChanged) :=
    Int.mul_le_mul_of_nonneg_right hdepth hspan
  have hwaited : 0 ≤ (self.waiting.length : Int)
      * (self.scheduler.clock.time - self.depthLastChanged) :=
    Int.mul_nonneg (by omega) hspan
  change 0 ≤ self.depthArea + _ ∧ self.depthArea + _ ≤ _
  refine ⟨by omega, ?_⟩
  calc self.depthArea + self.waiting.length * (self.scheduler.clock.time - self.depthLastChanged)
      ≤ self.maximumDepth * self.depthLastChanged
          + self.maximumDepth * (self.scheduler.clock.time - self.depthLastChanged) :=
        Int.add_le_add harea hadded
    _ = self.maximumDepth * self.scheduler.clock.time := by ring

/-- What was completed just now is what was completed last. -/
theorem le_finish_of_justCompleted (h : self.JustCompleted) :
    self.scheduler.clock.time ≤ self.finish := by
  rcases h with ⟨item, hitem, hnow⟩
  refine le_largest (List.mem_map.mpr ⟨item, hitem, ?_⟩)
  rw [hnow, Option.getD_some]

theorem Measured.finish_nonneg (h : Measured away self) : 0 ≤ self.finish := by
  rcases List.eq_nil_or_concat' self.completed with hnil | ⟨items, item, hitems⟩
  · rw [finish, hnil]
    exact le_rfl
  · have hmem : item ∈ self.completed := by
      rw [hitems]
      exact List.mem_append_right _ (List.mem_singleton_self item)
    rcases h.ended item hmem with ⟨time, htime, hnonneg, -⟩
    refine hnonneg.trans (le_largest (List.mem_map.mpr ⟨item, hmem, ?_⟩))
    rw [htime, Option.getD_some]

/-- If the depth may be recorded, then the area keeps its second bound. -/
theorem Measured.finish_recorded (h : Measured away self)
    (hfresh : self.waiting = [] ∨ self.Fresh) (haway : away = none)
    (hne : self.completed ≠ []) :
    self.recorded.depthArea ≤ self.maximumDepth * self.finish := by
  have hbefore := h.measured haway hne
  rcases hfresh with hnil | hrecorded | hjust
  · change self.depthArea + self.waiting.length * _ ≤ _
    rw [hnil, List.length_nil, Nat.cast_zero, Int.zero_mul, Int.add_zero]
    exact hbefore
  · change self.depthArea + self.waiting.length * (_ - self.depthLastChanged) ≤ _
    rw [hrecorded, Int.sub_self, Int.mul_zero, Int.add_zero]
    exact hbefore
  · exact h.area_recorded.2.trans
      (Int.mul_le_mul_of_nonneg_left (le_finish_of_justCompleted hjust) (by omega))

/-- If nothing was completed just now, then the last completion is over. -/
theorem Measured.finish_lt (h : Measured away self) (hne : self.completed ≠ [])
    (hjust : ¬ self.JustCompleted) : self.finish < self.scheduler.clock.time := by
  have htimes : (self.completed.map fun item => item.completedAt.getD 0) ≠ [] :=
    List.map_eq_nil_iff.not.mpr hne
  rcases List.mem_map.mp (largest_mem htimes) with ⟨item, hitem, hfinish⟩
  rcases h.ended item hitem with ⟨time, htime, -, hpast⟩
  rw [htime, Option.getD_some] at hfinish
  rw [finish, ← hfinish]
  refine lt_of_le_of_ne hpast fun hnow => hjust ⟨item, hitem, ?_⟩
  rw [htime, hnow]

/-- Recording the depth adds to the area if somebody waited since the last
    change of the depth. -/
theorem Measured.depthArea_lt_iff (h : Measured away self) :
    self.depthArea < self.recorded.depthArea ↔
      self.waiting ≠ [] ∧ self.depthLastChanged ≠ self.scheduler.clock.time := by
  have hspan : 0 ≤ self.scheduler.clock.time - self.depthLastChanged :=
    sub_nonneg_of_le h.recorded.2
  have hadded := Int.mul_nonneg (Int.natCast_nonneg self.waiting.length) hspan
  change self.depthArea < self.depthArea + self.waiting.length * (_ - _) ↔ _
  rw [lt_add_iff_pos_right, hadded.lt_iff_ne', mul_ne_zero_iff, sub_ne_zero, Nat.cast_ne_zero,
    ne_eq, List.length_eq_zero_iff, ne_comm]

/-- An arrival that is not punctual is a first one after time zero, or one that
    makes the area grow past the last completion. -/
theorem Measured.not_punctual_iff (h : Measured away self) :
    ¬ self.Punctual ↔ (self.firstArrival = none ∧ 0 < self.scheduler.clock.time) ∨
      (self.completed ≠ [] ∧ self.finish < self.scheduler.clock.time ∧
        self.depthArea < self.recorded.depthArea) := by
  have htime := self.scheduler.clock.time_nonneg
  constructor
  · intro hnot
    rcases not_and_or.mp hnot with hfirst | hlater
    · rcases Classical.not_imp.mp hfirst with ⟨hnone, hzero⟩
      exact Or.inl ⟨hnone, by omega⟩
    · rcases not_or.mp hlater with ⟨hne, hlater⟩
      rcases not_or.mp hlater with ⟨hwaiting, hfresh⟩
      rcases not_or.mp hfresh with ⟨hrecorded, hjust⟩
      exact Or.inr ⟨hne, h.finish_lt hne hjust, h.depthArea_lt_iff.mpr ⟨hwaiting, hrecorded⟩⟩
  · rintro (⟨hnone, hpos⟩ | ⟨hne, hlt, harea⟩) hpunctual
    · have hzero := hpunctual.1 hnone
      omega
    · rcases h.depthArea_lt_iff.mp harea with ⟨hwaiting, hrecorded⟩
      have hfresh := (hpunctual.2.resolve_left hne).resolve_left hwaiting
      have hover := le_finish_of_justCompleted (hfresh.resolve_left hrecorded)
      omega

/-- A payment arrives. -/
theorem Measured.arrived (h : Measured away self)
    (hfirst : self.firstArrival = none → self.scheduler.clock.time = 0)
    (hpunctual : away = none → self.completed = [] ∨ self.waiting = [] ∨ self.Fresh)
    (paymentId : String) (paymentType : PaymentType) (work : ω) :
    Measured away (self.arrived paymentId paymentType work) := by
  have hgrows : (self.maximumDepth : Int)
      ≤ (max self.maximumDepth (self.waiting.length + 1) : Nat) := by
    exact_mod_cast le_max_left _ _
  have htime := self.scheduler.clock.time_nonneg
  refine ⟨?_, fun hnone => ?_, h.area_recorded.1, ⟨htime, le_rfl⟩, ?_, ?_, h.ended,
    fun haway hne => ?_, fun _ _ hnone => ?_⟩
  · change (some (self.firstArrival.getD self.scheduler.clock.time)).getD 0 = 0
    have hopened := h.opened
    cases harrival : self.firstArrival with
    | none => exact hfirst harrival
    | some first =>
        rw [harrival] at hopened
        exact hopened
  · cases hnone
  · change (self.waiting ++ [_]).length ≤ max self.maximumDepth (self.waiting.length + 1)
    rw [List.length_append, List.length_singleton]
    exact le_max_right _ _
  · exact h.area_recorded.2.trans (Int.mul_le_mul_of_nonneg_right hgrows htime)
  · have hwelcome := (hpunctual haway).resolve_left hne
    exact (h.finish_recorded hwelcome haway hne).trans
      (Int.mul_le_mul_of_nonneg_right hgrows h.finish_nonneg)
  · cases hnone

/-- A payment starts. -/
theorem Measured.assigned (h : Measured away self) (hfresh : away = none → self.Fresh)
    (number : Nat) {item : QueuedPayment ω} {waiting : List (QueuedPayment ω)}
    (hwaiting : self.waiting = item :: waiting) :
    Measured away (self.assigned .complete number item waiting) := by
  have hopen : self.firstArrival ≠ none := by
    intro hnone
    rw [(h.unopened hnone).1] at hwaiting
    cases hwaiting
  refine ⟨h.opened, fun hnone => absurd hnone hopen, h.area_recorded.1,
    ⟨self.scheduler.clock.time_nonneg, le_rfl⟩, ?_, h.area_recorded.2, h.ended,
    fun haway hne => h.finish_recorded (Or.inr (hfresh haway)) haway hne, fun _ _ => hopen⟩
  have hdepth := h.depth
  rw [hwaiting, List.length_cons] at hdepth
  exact Nat.le_of_succ_le hdepth

/-- A payment is done, and the time catches up with the area. -/
theorem Measured.freed {number : Nat} (h : Measured (some number) self) (item : QueuedPayment ω) :
    Measured none (self.freed number item) ∧ (self.freed number item).JustCompleted := by
  have hjust : (self.freed number item).JustCompleted :=
    ⟨_, List.mem_append_right _ (List.mem_singleton_self _), rfl⟩
  refine ⟨⟨h.opened, fun hnone => absurd hnone (h.working number rfl), h.area_nonneg, h.recorded,
    h.depth, h.area_le, ?_, fun _ _ => ?_, fun _ hnone => by cases hnone⟩, hjust⟩
  · intro other hother
    rcases List.mem_append.mp hother with hold | hnew
    · exact h.ended other hold
    · rw [List.mem_singleton.mp hnew]
      exact ⟨_, rfl, self.scheduler.clock.time_nonneg, le_rfl⟩
  · have hnow : self.depthLastChanged ≤ (self.freed number item).finish :=
      h.recorded.2.trans (@le_finish_of_justCompleted _ _ (self.freed number item) hjust)
    exact h.area_le.trans (Int.mul_le_mul_of_nonneg_left hnow (by omega))

end Changes

/-- Events keep the invariant, where payments arrive punctually. -/
theorem lawful_measured : Lawful (Punctual (ω := ω) (ξ := ξ)) Measured
    (fun away pool => Measured away pool ∧ (away = none → pool.Fresh)) := by
  refine ⟨⟨?_, ?_, ?_, ?_, fun self h => h.1⟩, fun number => ⟨?_, ?_, ?_, ?_, fun self h => h.1⟩,
    ?_, ?_, ?_⟩
  · exact fun self scheduler h _ htime => h.withScheduler htime
  · exact fun self time callback h _ => h.withScheduler le_rfl
  · exact fun self paymentId paymentType work h hpunctual =>
      ⟨h.arrived hpunctual.1 (fun _ => hpunctual.2) paymentId paymentType work,
        fun _ => Or.inl rfl⟩
  · exact fun self number item waiting h _ _ hwaiting =>
      ⟨h.1.assigned h.2 number hwaiting, fun _ => Or.inl rfl⟩
  · exact fun self scheduler h _ htime => h.withScheduler htime
  · exact fun self time callback h _ => h.withScheduler le_rfl
  · -- Inside a completion the pool has long been open, and only the first bound counts.
    intro self paymentId paymentType work h _
    refine ⟨h.arrived (fun hnone => absurd hnone (h.working number rfl)) (fun haway => ?_)
      paymentId paymentType work, fun _ => Or.inl rfl⟩
    cases haway
  · exact fun self place item waiting h _ _ hwaiting =>
      ⟨h.1.assigned h.2 place hwaiting, fun _ => Or.inl rfl⟩
  · exact fun self event scheduler h _ htime => h.withScheduler htime
  · intro self event scheduler number item h _ htime _ _ hitem
    have hlater := h.withScheduler htime
    refine ⟨hlater.opened, hlater.unopened, hlater.area_nonneg, hlater.recorded, hlater.depth,
      hlater.area_le, hlater.ended, fun haway => ?_, fun _ _ hnone => ?_⟩
    · cases haway
    · -- Somebody is busy, so a payment has arrived.
      have hrunning := running_freed hitem
      rw [(h.unopened hnone).2] at hrunning
      exact absurd hrunning.symm.eq_nil (List.cons_ne_nil _ _)
  · exact fun self number item h _ => ⟨(h.freed item).1, fun _ => Or.inr (h.freed item).2⟩

/-- Under the invariant the metrics make sense. -/
theorem Measured.sane {pool : WorkerPool ω (PoolCallback ω ξ)} (h : Measured none pool) :
    Sane pool := by
  have helapsed : pool.metrics.totalCompletionTime = pool.finish := by
    change pool.finish - pool.firstArrival.getD 0 = pool.finish
    rw [h.opened, Int.sub_zero]
  have hfinish := h.finish_nonneg
  have hthroughput : pool.metrics.throughputHundredths
      = if pool.finish ≠ 0 then (pool.completed.length * 100 : Int).fdiv pool.finish else 0 := by
    rw [← helapsed]
    rfl
  have haverage : pool.metrics.averageQueueDepthHundredths
      = if pool.finish ≠ 0 then (pool.depthArea * 100).fdiv pool.finish else 0 := by
    rw [← helapsed]
    rfl
  have hdepth : pool.metrics.maximumQueueDepth = pool.maximumDepth := rfl
  refine ⟨by rw [helapsed]; exact hfinish, ?_, ?_⟩
  · rw [hthroughput]
    split_ifs
    · rw [Int.fdiv_eq_ediv_of_nonneg _ hfinish]
      exact Int.ediv_nonneg (by omega) hfinish
    · exact le_rfl
  · rw [haverage, hdepth]
    split_ifs with hzero
    · -- Something was completed, so the second bound holds.
      have hne : pool.completed ≠ [] := by
        intro hnil
        refine hzero ?_
        rw [finish, hnil]
        rfl
      have harea := h.measured rfl hne
      have hnonneg := h.area_nonneg
      rw [Int.fdiv_eq_ediv_of_nonneg _ hfinish]
      refine ⟨Int.ediv_nonneg (by omega) hfinish, ?_⟩
      refine Int.ediv_le_of_le_mul (by omega) ?_
      calc pool.depthArea * 100 ≤ pool.maximumDepth * pool.finish * 100 := by omega
        _ = 100 * pool.maximumDepth * pool.finish := by ring
    · exact ⟨le_rfl, by omega⟩

/-- In a run whose works return, with every payment arriving punctually, the
    metrics make sense in every state. -/
theorem metrics_sane (pool : Component σ (WorkerPool ω (PoolCallback ω ξ)))
    (perform : ω → Action σ Unit) (other : ξ → Action σ Unit)
    (hperform : ∀ work, OnlyMakes pool Use.exec Use.Fair (perform work))
    (hreturns : ∀ work s, ¬ Raises (perform work) s) (clock : VirtualClock)
    (configuration : CapacityConfiguration) (s : σ) (steps : List (Step ω ξ))
    (hsteps : ∀ step ∈ steps, step.Fair)
    (hpunctual : AllSteps (Step.exec pool perform other)
      (fun t step => step.Lets Punctual pool other t)
      (pool.set (WorkerPool.new (EventScheduler.new clock) configuration) s) steps) :
    AllStates (Step.exec pool perform other) (fun t => Sane (pool.get t))
      (pool.set (WorkerPool.new (EventScheduler.new clock) configuration) s) steps := by
  have hstart : Measured none (pool.get
      (pool.set (WorkerPool.new (EventScheduler.new clock) configuration) s)) := by
    rw [pool.get_set]
    exact measured_new clock configuration
  exact allStates_mono (fun _ => Measured.sane)
    (lawful_measured.run hperform (fun work t _ hraises => absurd hraises (hreturns work t)) hstart
      hsteps hpunctual)

/-- A payment at time zero, and three at once after it was completed. -/
def lateBurst : List (Step Unit Empty) :=
  [.use (.enqueue "PAY-1" .achTransfer ()),
    .use (.scheduleAt 12 (.enqueue "PAY-2" .achTransfer ())),
    .use (.scheduleAt 12 (.enqueue "PAY-3" .achTransfer ())),
    .use (.scheduleAt 12 (.enqueue "PAY-4" .achTransfer ())),
    .runNext, .runNext, .runNext, .runNext]

theorem metrics_sane_lateBurst :
    AllStates (Step.exec Component.whole plainWork Empty.elim) Sane
      (WorkerPool.new EventScheduler.new oneWorker) lateBurst := by
  refine metrics_sane Component.whole plainWork Empty.elim onlyMakes_plainWork
    (fun work s => not_raises_pure () s) ⟨0, by decide⟩ oneWorker
    (WorkerPool.new EventScheduler.new oneWorker) lateBurst
    (by simp [lateBurst, Step.Fair, Use.Fair, PoolCallback.frees])
    ⟨fun _ => ⟨fun _ => rfl, Or.inl rfl⟩, fun h => h.elim, fun h => h.elim, fun h => h.elim,
      ?_, ?_, ?_, ?_, trivial⟩
  · intro event rest hqueue _ clock _
    cases hqueue
    trivial
  · intro event rest hqueue _ clock _
    cases hqueue
    exact fun _ => ⟨fun hnone => absurd hnone (Option.some_ne_none _), Or.inr (Or.inl rfl)⟩
  · intro event rest hqueue _ clock _
    cases hqueue
    exact fun _ => ⟨fun hnone => absurd hnone (Option.some_ne_none _), Or.inr (Or.inl rfl)⟩
  · -- One of the three is waiting when the last arrives, at the same moment.
    intro event rest hqueue _ clock hclock
    cases hqueue
    exact fun _ => ⟨fun hnone => absurd hnone (Option.some_ne_none _),
      Or.inr (Or.inr (Or.inl hclock.symm))⟩

/-- One payment, which arrives at time one. -/
def lateFirstArrival : List (Step Unit Empty) :=
  [.use (.scheduleAt 1 (.enqueue "PAY-1" .achTransfer ())), .runNext]

/-- Until it is completed, the time is counted from its arrival back to zero. -/
theorem lateFirstArrival_insane :
    ¬ AllStates (Step.exec Component.whole plainWork Empty.elim) Sane
      (WorkerPool.new EventScheduler.new oneWorker) lateFirstArrival := by
  intro hall
  have helapsed := (allStates_finalState hall).elapsed
  revert helapsed
  decide

/-- A payment that comes behind another at time 19, nine minutes after the last
    completion: the average depth is 2.90, and there were never more than two. -/
example : ¬ Sane (finalState (Step.exec Component.whole plainWork Empty.elim)
    (WorkerPool.new EventScheduler.new { workerCount := 1, processingTime := 10 })
    [.use (.enqueue "PAY-1" .achTransfer ()), .use (.enqueue "PAY-2" .achTransfer ()),
      .use (.enqueue "PAY-3" .achTransfer ()),
      .use (.scheduleAt 19 (.enqueue "PAY-4" .achTransfer ())), .runNext, .runNext]) := by
  intro hsane
  have haverage := hsane.average.2
  revert haverage
  decide

end WorkerPool

end BankSim
