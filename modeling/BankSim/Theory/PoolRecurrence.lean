import BankSim.Library.Places
import BankSim.Theory.WorkerCapacity

/-!
# The Worker Pool Computes a Recurrence

Arrivals that are scheduled up front have smaller order numbers than any
completion, so they go first when the times are equal. Completions are
scheduled in the order in which payments start, and each takes the same time,
so they are due in that order too. Hence the scheduler always holds the
arrivals that are left, merged with the completions of what runs, and whatever
else the work of payments may have scheduled.

The world between two events is therefore known from two numbers: how many
payments arrived and how many are completed. As many run as possible. When a
payment finds an idle worker, the payment so many places before it as there
are workers is completed. When a worker becomes free, it takes the payment so
many places after the one it completed. In both cases the start is the one of
the recurrence.

## Main definitions

* `WorkerPool.Calendar`: What the scheduler holds.
* `WorkerPool.Stands`, `WorkerPool.Progress`: The pool and the world between
  two events.
* `WorkerPool.Computes`: Every payment is completed, at the times of the
  recurrence.

## Theorems

* `Stands.arrive`, `Stands.finish`: The two events of a pool.
* `progress_step`: One event of a run.
* `pool_run`: A run does not raise, and when it ends, everything is done.
* `pool_computes_recurrence`: The pool computes the recurrence, and more
  workers delay no payment.
-/

namespace BankSim

open Exec

namespace WorkerPool

variable {ω : Type}

/-! ### The calendar of a pool -/

section Calendar

variable {ξ : Type} {configuration : CapacityConfiguration} {arrivals : List (Arrival ω)}

/-- The callbacks that a pool and its arrivals schedule. -/
def ownCallback : PoolCallback ω ξ → Bool
  | .enqueue _ _ _ | .complete _ => true
  | .other _ => false

def arrivalCallback (arrival : Arrival ω) : PoolCallback ω ξ :=
  .enqueue arrival.paymentId arrival.paymentType arrival.work

variable (configuration arrivals) in
/-- The scheduler holds the arrivals from a place on and the completions that
    are due, and arrivals go first among equals. -/
structure Calendar (j : Nat) (due : List (Nat × Nat))
    (scheduler : EventScheduler (PoolCallback ω ξ)) : Prop where
  orderly : scheduler.Orderly
  agenda : scheduler.agendaOf ownCallback = Timeline.merged Prod.fst
    (coming arrivalCallback arrivals j) (completions configuration arrivals .complete due)

theorem startTime_mono (configuration : CapacityConfiguration)
    (hsorted : arrivals.Pairwise fun a b => a.time ≤ b.time) :
    ∀ j i, i ≤ j → j < arrivals.length →
      startTime configuration arrivals i ≤ startTime configuration arrivals j :=
  Servers.start_mono configuration.processingTime configuration.workerCount_pos
    (arrivalTime_mono hsorted)

/-- Dispatching makes at most one assignment, if at most one payment could be
    running that is not. -/
theorem Books.dispatch {k s c j : Nat} {running : List (Nat × Nat)}
    {self : WorkerPool ω (PoolCallback ω ξ)}
    (h : Books configuration arrivals k s c running self)
    (hcalendar : Calendar configuration arrivals j running self.scheduler)
    (hsorted : arrivals.Pairwise fun a b => a.time ≤ b.time) (hk : k ≤ arrivals.length)
    (hone : min k (c + configuration.workerCount) ≤ s + 1)
    (hstart : s < min k (c + configuration.workerCount) →
      self.scheduler.clock.time = startTime configuration arrivals s) :
    ∃ running' later, (WorkerPool.dispatch PoolCallback.complete).run self = .ok () later ∧
      Books configuration arrivals k (min k (c + configuration.workerCount)) c running' later ∧
      Calendar configuration arrivals j running' later.scheduler ∧
      later.scheduler.clock = self.scheduler.clock := by
  have hstarted := h.started_le
  have hcapacity := h.capacity
  by_cases hall : s = min k (c + configuration.workerCount)
  · -- All that could run does already.
    refine ⟨running, self, dispatch_settled _ (h.settled hall), ?_, hcalendar, rfl⟩
    rw [← hall]
    exact h
  · -- One payment more can run, and after it the pool is settled.
    have hnext : min k (c + configuration.workerCount) = s + 1 := by omega
    have hlength := h.waiting_length
    have hnow := hstart (by omega)
    rcases List.exists_cons_of_length_pos (l := self.waiting) (by omega) with
      ⟨item, waiting, hwaiting⟩
    have hassign := fun (number : Nat) (hnumber : number < self.workers.length) hidle =>
      h.assign PoolCallback.complete hwaiting (by omega) hnow hnumber hidle
    rcases dispatch_assigned PoolCallback.complete hwaiting (h.exists_idle (by omega))
      (fun number hnumber hidle => (hassign number hnumber hidle).settled hnext.symm) with
      ⟨number, hnumber, hidle, hrun⟩
    refine ⟨running ++ [(number, s)], _, hrun, ?_, ?_, rfl⟩
    · rw [hnext]
      exact hassign number hnumber hidle
    · have htime := self.configuration.processingTime_pos
      refine ⟨hcalendar.orderly.scheduled _ (by omega), ?_⟩
      -- What runs started before, so its completion comes before the new one.
      have hlast : ∀ item ∈ completions configuration arrivals
            (PoolCallback.complete : Nat → PoolCallback ω ξ) running,
          item.1 ≤ startTime configuration arrivals s + configuration.processingTime := by
        intro item hitem
        rcases List.mem_map.mp hitem with ⟨run, hrun, rfl⟩
        have hplace : run.2 ∈ List.range' c (s - c) := by
          rw [← h.payments]
          exact List.mem_map_of_mem hrun
        have hmono := startTime_mono configuration hsorted s run.2
          (by rw [List.mem_range'_1] at hplace; omega) (by omega)
        change startTime configuration arrivals run.2 + configuration.processingTime ≤ _
        omega
      change (self.scheduler.scheduled (self.scheduler.clock.time +
        self.configuration.processingTime) (.complete number)).agendaOf ownCallback = _
      rw [EventScheduler.agendaOf_scheduled hcalendar.orderly rfl, hcalendar.agenda, hnow,
        h.configured]
      refine (Timeline.orderedInsert_merged Prod.fst _ _ hlast).trans ?_
      rw [completions, completions, List.map_append]
      rfl

variable (configuration arrivals) in
/-- The pool when `k` payments arrived and `c` are completed, with as many
    running as possible, and its calendar. -/
structure Stands (j k c : Nat) (running due : List (Nat × Nat))
    (pool : WorkerPool ω (PoolCallback ω ξ)) : Prop where
  books : Books configuration arrivals k (min k (c + configuration.workerCount)) c running pool
  calendar : Calendar configuration arrivals j due pool.scheduler
  arrivals_le : k ≤ arrivals.length
  arrived_le : ∀ i < k, arrivalTime arrivals i ≤ pool.scheduler.clock.time
  completed_le : ∀ i < c, startTime configuration arrivals i + configuration.processingTime
    ≤ pool.scheduler.clock.time

namespace Stands

variable {j k c : Nat} {running due : List (Nat × Nat)} {self : WorkerPool ω (PoolCallback ω ξ)}

theorem withScheduler (h : Stands configuration arrivals j k c running due self) {j' : Nat}
    {due' : List (Nat × Nat)} {scheduler : EventScheduler (PoolCallback ω ξ)}
    (hcalendar : Calendar configuration arrivals j' due' scheduler)
    (htime : self.scheduler.clock.time ≤ scheduler.clock.time) :
    Stands configuration arrivals j' k c running due' { self with scheduler } where
  books := h.books.withScheduler scheduler
  calendar := hcalendar
  arrivals_le := h.arrivals_le
  arrived_le i hi := le_trans (h.arrived_le i hi) htime
  completed_le i hi := le_trans (h.completed_le i hi) htime

/-- Whatever else is scheduled makes no difference. -/
theorem joined (h : Stands configuration arrivals j k c running due self)
    {scheduler : EventScheduler (PoolCallback ω ξ)}
    (hjoined : EventScheduler.Joined ownCallback self.scheduler scheduler) :
    Stands configuration arrivals j k c running due { self with scheduler } := by
  rcases hjoined.keeps h.calendar.orderly with ⟨horderly, hclock, hagenda⟩
  refine h.withScheduler ⟨horderly, hagenda.trans h.calendar.agenda⟩ ?_
  rw [hclock]

/-- An arrival that has left the calendar is queued, and starts if there is
    someone idle. -/
theorem arrive (h : Stands configuration arrivals (k + 1) k c running running self)
    (hsorted : arrivals.Pairwise fun a b => a.time ≤ b.time) {arrival : Arrival ω}
    (hget : arrivals[k]? = some arrival) (hid : isBlank arrival.paymentId = false)
    (htime : self.scheduler.clock.time = arrival.time) :
    ∃ item later running',
      (enqueue PoolCallback.complete arrival.paymentId arrival.paymentType arrival.work).run self
        = .ok item later ∧
      Stands configuration arrivals (k + 1) (k + 1) c running' running' later ∧
      later.scheduler.clock = self.scheduler.clock := by
  have hk := (List.getElem?_eq_some_iff.mp hget).1
  have hpos := configuration.workerCount_pos
  -- If someone is idle, the payment so many places before is completed.
  have hstart : k < c + configuration.workerCount →
      self.scheduler.clock.time = startTime configuration arrivals k := by
    intro hidle
    rw [htime, ← arrivalTime_eq hget, startTime]
    by_cases hfirst : k < configuration.workerCount
    · rw [Servers.start_of_lt hfirst]
    · have hdone := h.completed_le (k - configuration.workerCount) (by omega)
      rw [htime, ← arrivalTime_eq hget] at hdone
      rw [Servers.start_of_le hpos (not_lt.mp hfirst)]
      exact (max_eq_left hdone).symm
  have hdispatch := (h.books.arrive hget htime).dispatch h.calendar hsorted hk (by omega)
    (fun hlt => by
      rw [show min k (c + configuration.workerCount) = k by omega]
      exact hstart (by omega))
  rcases hdispatch with ⟨running', later, hrun, hbooks, hcalendar, hclock⟩
  refine ⟨self.accepted arrival.paymentId arrival.paymentType arrival.work, later, running', ?_,
    ⟨hbooks, hcalendar, hk, fun i hi => ?_, fun i hi => ?_⟩, hclock⟩
  · rw [enqueue_run _ hid, run_bind_of_ok hrun]
    rfl
  · rw [hclock]
    change _ ≤ self.scheduler.clock.time
    rcases Nat.lt_or_eq_of_le (Nat.le_of_lt_succ hi) with hi | rfl
    · exact h.arrived_le i hi
    · rw [htime, arrivalTime_eq hget]
  · rw [hclock]
    exact h.completed_le i hi

/-- A completion that has left the calendar frees its worker, and the payment
    that has waited longest starts. -/
theorem finish {number : Nat}
    (h : Stands configuration arrivals k k c ((number, c) :: running) running self)
    (hsorted : arrivals.Pairwise fun a b => a.time ≤ b.time) {item : QueuedPayment ω}
    (hitem : self.currentPayment number = some item)
    (htime : self.scheduler.clock.time
      = startTime configuration arrivals c + configuration.processingTime) :
    ∃ later running', (finished PoolCallback.complete number item).run self = .ok () later ∧
      Stands configuration arrivals k k (c + 1) running' running' later ∧
      later.scheduler.clock = self.scheduler.clock := by
  have hpos := configuration.workerCount_pos
  -- If anything waits, the first of it waits for the payment just completed.
  have hstart : c + configuration.workerCount < k → self.scheduler.clock.time
      = startTime configuration arrivals (c + configuration.workerCount) := by
    intro hwaits
    have harrived := h.arrived_le (c + configuration.workerCount) hwaits
    rw [htime] at harrived
    rw [htime, startTime, startTime, Servers.start_of_le hpos (Nat.le_add_left _ _),
      Nat.add_sub_cancel]
    exact (max_eq_right harrived).symm
  have hdispatch := (h.books.free hitem htime).dispatch h.calendar hsorted h.arrivals_le (by omega)
    (fun hlt => by
      rw [show min k (c + configuration.workerCount) = c + configuration.workerCount by omega]
      exact hstart (by omega))
  rcases hdispatch with ⟨running', later, hrun, hbooks, hcalendar, hclock⟩
  refine ⟨later, running', (finished_run ..).trans hrun,
    ⟨hbooks, hcalendar, h.arrivals_le, fun i hi => ?_, fun i hi => ?_⟩, hclock⟩
  · rw [hclock]
    exact h.arrived_le i hi
  · rw [hclock]
    change _ ≤ self.scheduler.clock.time
    rcases Nat.lt_or_eq_of_le (Nat.le_of_lt_succ hi) with hi | rfl
    · exact h.completed_le i hi
    · exact htime.ge

end Stands

end Calendar

/-! ### Runs of a pool -/

section Runs

variable {ξ σ : Type} {pool : Component σ (WorkerPool ω (PoolCallback ω ξ))}
  {perform : ω → Action σ Unit} {other : ξ → Action σ Unit}
  {configuration : CapacityConfiguration} {arrivals : List (Arrival ω)} {I : Nat → Int → σ → Prop}

variable (pool configuration arrivals I) in
/-- The world between two events, when `k` payments arrived and `c` are
    completed. -/
def Progress (k c : Nat) (s : σ) : Prop :=
  (∃ running, Stands configuration arrivals k k c running running (pool.get s)) ∧
    ∃ time, time ≤ timeOf pool schedulerOf s ∧ I c time s

/-- Writing down that an event was executed changes nothing here. -/
theorem Progress.record {k c : Nat} {t : σ}
    (hI : Undisturbed pool schedulerOf ownCallback perform other arrivals I)
    (h : Progress pool configuration arrivals I k c t) (history : List Execution) :
    Progress pool configuration arrivals I k c ((pool.comp schedulerOf).set
      (((pool.comp schedulerOf).get t).withHistory history) t) := by
  rcases h with ⟨⟨running, hstands⟩, time, htime, hrest⟩
  refine ⟨⟨running, ?_⟩, time, ?_, hI.frame _ _ _ _ hrest⟩
  · rw [pool.get_comp_set]
    exact hstands.withScheduler ⟨hstands.calendar.orderly.withHistory history,
      hstands.calendar.agenda⟩ (le_refl _)
  · rw [timeOf_comp_set]
    exact htime

/-- A callback that is none of the pool's business. -/
theorem call_other {k c : Nat} {s : σ} {running : List (Nat × Nat)} {time : Int}
    (hI : Undisturbed pool schedulerOf ownCallback perform other arrivals I)
    (hstands : Stands configuration arrivals k k c running running (pool.get s))
    (htime : time ≤ timeOf pool schedulerOf s) (hrest : I c time s) (callback : ξ) :
    ∃ t, (PoolCallback.call pool perform other (.other callback)).run s = .ok () t ∧
      Progress pool configuration arrivals I k c t := by
  rcases hI.other callback c time s hrest with ⟨t, hrun, hrest', scheduler, hjoined, hsame⟩
  have hstands' := hstands.joined hjoined
  refine ⟨t, hrun, ⟨running, ?_⟩, time, ?_, hrest'⟩
  · rw [hsame]
    exact hstands'
  · rw [timeOf_of_joined pool schedulerOf ownCallback hstands.calendar.orderly hjoined hsame]
    exact htime

theorem call_enqueue {k c : Nat} {s : σ} {running : List (Nat × Nat)} {time : Int}
    (hI : Undisturbed pool schedulerOf ownCallback perform other arrivals I)
    (hsorted : arrivals.Pairwise fun a b => a.time ≤ b.time)
    (hstands : Stands configuration arrivals (k + 1) k c running running (pool.get s))
    (htime : time ≤ timeOf pool schedulerOf s) (hrest : I c time s) {arrival : Arrival ω}
    (hget : arrivals[k]? = some arrival) (hid : isBlank arrival.paymentId = false)
    (hnow : timeOf pool schedulerOf s = arrival.time) :
    ∃ t, (PoolCallback.call pool perform other (arrivalCallback arrival)).run s = .ok () t ∧
      Progress pool configuration arrivals I (k + 1) c t := by
  rcases hstands.arrive hsorted hget hid hnow with
    ⟨item, later, running', hrun, hlater, hclock⟩
  refine ⟨pool.set later s, ?_, ⟨running', ?_⟩, time, ?_, hI.frame _ _ _ _ hrest⟩
  · exact run_bind_of_ok (Component.zoom_run_ok hrun)
  · rw [pool.get_set]
    exact hlater
  · rw [timeOf_set]
    change time ≤ later.scheduler.clock.time
    rw [hclock]
    exact htime

theorem call_complete {k c number : Nat} {s : σ} {running : List (Nat × Nat)} {time : Int}
    (hI : Undisturbed pool schedulerOf ownCallback perform other arrivals I)
    (hsorted : arrivals.Pairwise fun a b => a.time ≤ b.time)
    (hstands : Stands configuration arrivals k k c ((number, c) :: running) running (pool.get s))
    (htime : time ≤ timeOf pool schedulerOf s) (hrest : I c time s)
    (hnow : timeOf pool schedulerOf s
      = startTime configuration arrivals c + configuration.processingTime) :
    ∃ t, (PoolCallback.call pool perform other (.complete number)).run s = .ok () t ∧
      Progress pool configuration arrivals I k (c + 1) t := by
  rcases (hstands.books.busy (number, c) List.mem_cons_self).2 with ⟨item, hitem, hrecords, -⟩
  rcases hrecords with ⟨arrival, hget, -, -, hwork, -⟩
  rcases hI.work c arrival time s hget hrest htime with
    ⟨t, hperform, hdone, scheduler, hjoined, hsame⟩
  have hclock := (hjoined.keeps hstands.calendar.orderly).2.1
  -- The work has left the pool alone, so its worker is still busy with it.
  rcases (hstands.joined hjoined).finish hsorted hitem
    ((congrArg VirtualClock.time hclock).trans hnow) with ⟨later, running', hrun, hlater, hclock'⟩
  refine ⟨pool.set later t, ?_, ⟨running', ?_⟩, timeOf pool schedulerOf s, ?_,
    hI.frame _ _ _ _ hdone⟩
  · have hzoom := Component.zoom_run_ok (p := pool) (s := t)
      (m := finished PoolCallback.complete number item) (by rw [hsame]; exact hrun)
    change (WorkerPool.complete PoolCallback.complete pool perform number).run s = _
    rw [complete_busy hitem, hwork, run_bind_of_ok hperform]
    exact hzoom
  · rw [pool.get_set]
    exact hlater
  · rw [timeOf_set]
    change _ ≤ later.scheduler.clock.time
    rw [hclock']
    exact (congrArg VirtualClock.time hclock).ge

/-- One event of a run: something else, an arrival or a completion. -/
theorem progress_step (hI : Undisturbed pool schedulerOf ownCallback perform other arrivals I)
    (hsorted : arrivals.Pairwise fun a b => a.time ≤ b.time)
    (hids : ∀ arrival ∈ arrivals, isBlank arrival.paymentId = false) {k c : Nat} {s : σ}
    (h : Progress pool configuration arrivals I k c s) :
    ((pool.comp schedulerOf).get s).queue = [] ∨
      ∃ t, (EventScheduler.runNext (pool.comp schedulerOf)
          (PoolCallback.call pool perform other)).run s = .ok true t ∧
        ((Nonempty ξ ∧ Progress pool configuration arrivals I k c t) ∨
          (k < arrivals.length ∧ Progress pool configuration arrivals I (k + 1) c t) ∨
          ∃ done, c < done ∧ c < arrivals.length ∧
            Progress pool configuration arrivals I k done t) := by
  rcases h with ⟨⟨running, hstands⟩, time, htime, hrest⟩
  rcases next_event (pool.comp schedulerOf) (PoolCallback.call pool perform other) ownCallback
    arrivalCallback (s := s) hstands.calendar.orderly hstands.calendar.agenda with
    hnil | ⟨head, ready, horderly, hdue, hrun, hevent⟩
  · exact Or.inl hnil
  · refine Or.inr ?_
    have htime' : time ≤ timeOf pool schedulerOf ((pool.comp schedulerOf).set ready s) := by
      rw [timeOf_comp_set]
      exact le_trans htime hdue
    have hrest' := hI.frame c time (schedulerOf.set ready (pool.get s)) s hrest
    -- Taking an event off the calendar leaves the books as they were.
    have hready : ∀ j due, ready.agendaOf ownCallback = Timeline.merged Prod.fst
          (coming arrivalCallback arrivals j) (completions configuration arrivals .complete due) →
        Stands configuration arrivals j k c running due
          (pool.get ((pool.comp schedulerOf).set ready s)) := by
      intro j due hagenda
      rw [pool.get_comp_set]
      exact hstands.withScheduler ⟨horderly, hagenda⟩ hdue
    rcases hevent with ⟨hkind, hagenda⟩ | ⟨arrival, hplace, hnow, rfl, hagenda⟩ |
      ⟨rest, hfirst, hagenda⟩
    · cases head with
      | enqueue paymentId paymentType work => cases hkind
      | complete number => cases hkind
      | other callback =>
          rcases call_other hI (hready k running hagenda) htime' hrest' callback with
            ⟨t, hcall, hprogress⟩
          rcases hrun t hcall with ⟨history, hnext⟩
          exact ⟨_, hnext, Or.inl ⟨⟨callback⟩, hprogress.record hI history⟩⟩
    · rcases call_enqueue hI hsorted (hready (k + 1) running hagenda) htime' hrest' hplace
        (hids arrival (List.mem_of_getElem? hplace))
        ((timeOf_comp_set pool schedulerOf ready s).trans hnow) with ⟨t, hcall, hprogress⟩
      rcases hrun t hcall with ⟨history, hnext⟩
      exact ⟨_, hnext, Or.inr (Or.inl ⟨(List.getElem?_eq_some_iff.mp hplace).1,
        hprogress.record hI history⟩)⟩
    · rcases List.map_eq_cons_iff.mp hfirst with ⟨run, runs, rfl, hitem, rfl⟩
      have hpayments := hstands.books.payments
      have hlength := hstands.books.running_length
      have harrivals := hstands.arrivals_le
      rw [List.length_cons] at hlength
      -- The completion is that of the payment that has run longest.
      have hlongest : run = (run.1, c) := by
        rw [List.map_cons, ← hlength, List.range'_succ, List.cons.injEq] at hpayments
        rw [← hpayments.1]
      rw [Prod.mk.injEq] at hitem
      rw [hlongest] at hitem hready
      rcases hitem with ⟨hnow, rfl⟩
      rcases call_complete hI hsorted (hready k runs hagenda) htime' hrest'
        ((timeOf_comp_set pool schedulerOf ready s).trans hnow.symm) with ⟨t, hcall, hprogress⟩
      rcases hrun t hcall with ⟨history, hnext⟩
      exact ⟨_, hnext, Or.inr (Or.inr ⟨c + 1, Nat.lt_succ_self c, by omega,
        hprogress.record hI history⟩)⟩

/-- A fresh pool with its arrivals scheduled. -/
theorem progress_new (clock : VirtualClock) {rows : List (Arrival ω)}
    (hI : Undisturbed pool schedulerOf ownCallback perform other (sortedBy (·.time) rows) I)
    (htimes : ∀ row ∈ rows, clock.time ≤ row.time) {s : σ}
    (hpool : pool.get s = WorkerPool.new (EventScheduler.new clock) configuration)
    (hrest : I 0 clock.time s) :
    ∃ received, ((pool.comp schedulerOf).zoom (scheduleArrivals arrivalCallback rows)).run s
        = .ok () received ∧
      Progress pool configuration (sortedBy (·.time) rows) I 0 0 received := by
  rcases scheduleArrivals_run (arrivalCallback : Arrival ω → PoolCallback ω ξ) ownCallback
    (fun _ => rfl) clock htimes with ⟨later, hrun, horderly, hclock, hagenda⟩
  have hget : (pool.comp schedulerOf).get s = EventScheduler.new clock := by
    change (pool.get s).scheduler = _
    rw [hpool]
    rfl
  refine ⟨(pool.comp schedulerOf).set later s, Component.zoom_run_ok (by rw [hget]; exact hrun),
    ⟨[], ?_⟩, clock.time, ?_, hI.frame _ _ _ _ hrest⟩
  · rw [pool.get_comp_set, hpool]
    -- Nothing has arrived, and every worker of the new pool is idle.
    have hidle : ∀ number, (WorkerPool.new (EventScheduler.new clock) configuration :
        WorkerPool ω (PoolCallback ω ξ)).currentPayment number = none := by
      intro number
      unfold WorkerPool.currentPayment WorkerPool.new
      rw [List.getElem?_map]
      cases (List.range configuration.workerCount)[number]? <;> rfl
    exact
      { books :=
          { configured := rfl
            workers := by
              change ((List.range configuration.workerCount).map _).length = _
              rw [List.length_map, List.length_range]
            completed_le := Nat.zero_le _
            started_le := Nat.min_le_left _ _
            capacity := Nat.min_le_right _ _
            order := rfl
            payments := by
              rw [Nat.zero_min]
              rfl
            places := List.nodup_nil
            busy := fun run hrun => absurd hrun List.not_mem_nil
            idle := fun number _ => hidle number
            waiting := by
              rw [Nat.zero_min]
              exact .nil
            completed := .nil }
        calendar := ⟨horderly, hagenda.trans (Timeline.merged_nil Prod.fst _).symm⟩
        arrivals_le := Nat.zero_le _
        arrived_le := fun i hi => absurd hi (Nat.not_lt_zero i)
        completed_le := fun i hi => absurd hi (Nat.not_lt_zero i) }
  · rw [timeOf_comp_set]
    exact (congrArg VirtualClock.time hclock).ge

/-- Every payment is completed, in the order of arrival and at the times of the
    recurrence. -/
def Computes {κ : Type} (configuration : CapacityConfiguration) (arrivals : List (Arrival ω))
    (self : WorkerPool ω κ) : Prop :=
  List.Forall₂ (Served configuration arrivals) (List.range arrivals.length) self.completed

variable (pool configuration arrivals I) in
/-- The world when every payment is completed. -/
def Done (s : σ) : Prop :=
  Computes configuration arrivals (pool.get s) ∧ ∃ time, I arrivals.length time s

/-- When nothing is left to do, everything is done. -/
theorem Progress.done {k c : Nat} {s : σ} (h : Progress pool configuration arrivals I k c s)
    (hqueue : ((pool.comp schedulerOf).get s).queue = []) :
    Done pool configuration arrivals I s := by
  rcases h with ⟨⟨running, hstands⟩, time, -, hrest⟩
  have hpos := configuration.workerCount_pos
  have hempty : (pool.get s).scheduler.agendaOf ownCallback = [] :=
    EventScheduler.agendaOf_nil hqueue ownCallback
  rcases Timeline.merged_eq_nil Prod.fst (hstands.calendar.agenda.symm.trans hempty) with
    ⟨hcoming, hcompletions⟩
  have harrived := coming_eq_nil hcoming
  have harrivals := hstands.arrivals_le
  -- Nobody is busy, and nobody would be idle if anything waited.
  have hlength := hstands.books.running_length
  rw [List.map_eq_nil_iff.mp hcompletions, List.length_nil] at hlength
  have hcompleted := hstands.books.completed_le
  have hall : c = arrivals.length := by omega
  refine ⟨?_, time, ?_⟩
  · unfold Computes
    rw [← hall]
    exact hstands.books.completed
  · rw [← hall]
    exact hrest

/-- A run does not raise, and when it ends, everything is done. Where nothing
    else is ever scheduled, it does end. -/
theorem pool_run (hI : Undisturbed pool schedulerOf ownCallback perform other arrivals I)
    (hsorted : arrivals.Pairwise fun a b => a.time ≤ b.time)
    (hids : ∀ arrival ∈ arrivals, isBlank arrival.paymentId = false) {s : σ}
    (h : Progress pool configuration arrivals I 0 0 s) :
    RunsTo (pool.comp schedulerOf) (PoolCallback.call pool perform other) (IsEmpty ξ)
      (Done pool configuration arrivals I) s :=
  runsTo_of_events _ _ (P := Progress pool configuration arrivals I) arrivals.length
    (fun _ _ _ hs => progress_step hI hsorted hids hs)
    (fun _ _ _ hs => hs.done) h

end Runs

/-- One payment starts and is completed no later than another. -/
def NoLater (item other : QueuedPayment ω) : Prop :=
  ∃ start start' finish finish' : Int,
    item.processingStartedAt = some start ∧ other.processingStartedAt = some start' ∧
      start ≤ start' ∧
    item.completedAt = some finish ∧ other.completedAt = some finish' ∧ finish ≤ finish'

/-- More workers delay no payment, since they delay none in the recurrence. -/
theorem computes_noLater {κ κ' : Type} {arrivals : List (Arrival ω)}
    (hsorted : arrivals.Pairwise fun a b => a.time ≤ b.time)
    {configuration configuration' : CapacityConfiguration}
    (hprocessing : configuration'.processingTime = configuration.processingTime)
    (hworkers : configuration.workerCount ≤ configuration'.workerCount)
    {self : WorkerPool ω κ} {self' : WorkerPool ω κ'} (h : Computes configuration arrivals self)
    (h' : Computes configuration' arrivals self') :
    List.Forall₂ NoLater self'.completed self.completed := by
  refine Places.forall₂_of_places h' h ?_
  rintro i hi item other ⟨-, hstart', hfinish'⟩ ⟨-, hstart, hfinish⟩
  have hle : startTime configuration' arrivals i ≤ startTime configuration arrivals i := by
    unfold startTime
    rw [hprocessing]
    exact Servers.start_anti configuration.workerCount_pos hworkers (arrivalTime_mono hsorted) i hi
  exact ⟨_, _, _, _, hstart', hstart, hle, hfinish', hfinish, by omega⟩

/-- A pool with payments scheduled up front, and with work that neither raises
    nor enqueues, starts and completes every payment at the times of the
    recurrence, in the order of arrival. The run ends unless it is the work that
    schedules further callbacks. With more workers no payment is later. -/
theorem pool_computes_recurrence {ω ξ σ : Type}
    (pool : Component σ (WorkerPool ω (PoolCallback ω ξ))) (perform : ω → Action σ Unit)
    (other : ξ → Action σ Unit)
    (hperform : ∀ work s, ∃ t, (perform work).run s = .ok () t ∧
      Spares pool schedulerOf ownCallback s t)
    (hother : ∀ callback s, ∃ t, (other callback).run s = .ok () t ∧
      Spares pool schedulerOf ownCallback s t)
    (clock : VirtualClock) (rows : List (Arrival ω)) (htimes : ∀ row ∈ rows, clock.time ≤ row.time)
    (hids : ∀ row ∈ rows, isBlank row.paymentId = false) :
    let arrivals := sortedBy (·.time) rows
    (∀ (configuration : CapacityConfiguration) (s : σ),
      pool.get s = WorkerPool.new (EventScheduler.new clock) configuration →
      ∃ received, ((pool.comp schedulerOf).zoom (scheduleArrivals arrivalCallback rows)).run s
          = .ok () received ∧
        RunsTo (pool.comp schedulerOf) (PoolCallback.call pool perform other) (IsEmpty ξ)
          (fun final => Computes configuration arrivals (pool.get final)) received) ∧
      ∀ (configuration configuration' : CapacityConfiguration) (self self' : WorkerPool ω
          (PoolCallback ω ξ)),
        configuration'.processingTime = configuration.processingTime →
        configuration.workerCount ≤ configuration'.workerCount →
        Computes configuration arrivals self → Computes configuration' arrivals self' →
          List.Forall₂ NoLater self'.completed self.completed := by
  intro arrivals
  have hsorted : arrivals.Pairwise fun a b => a.time ≤ b.time := sortedBy_pairwise _ rows
  have hids' : ∀ arrival ∈ arrivals, isBlank arrival.paymentId = false :=
    fun arrival hmem => hids arrival ((sortedBy_perm _ rows).mem_iff.mp hmem)
  have hI := undisturbed_of_spares hperform hother arrivals
  constructor
  · intro configuration s hpool
    rcases progress_new clock hI htimes hpool trivial with ⟨received, hreceived, hprogress⟩
    exact ⟨received, hreceived, (pool_run hI hsorted hids' hprogress).imp _ _ fun _ ht => ht.1⟩
  · intro configuration configuration' self self' hprocessing hworkers h h'
    exact computes_noLater hsorted hprocessing hworkers h h'

/-- Three payments, of which two arrive together. -/
def threeArrivals : List (Arrival Unit) :=
  [⟨1, "PAY-03", .achTransfer, ()⟩, ⟨0, "PAY-01", .achTransfer, ()⟩,
    ⟨0, "PAY-02", .achTransfer, ()⟩]

theorem pool_computes_recurrence_three :
    let arrivals := sortedBy (·.time) threeArrivals
    let pool : Component (WorkerPool Unit (PoolCallback Unit Empty)) _ := Component.whole
    let perform := fun _ : Unit => (pure () : Action (WorkerPool Unit (PoolCallback Unit Empty)) Unit)
    (∀ (configuration : CapacityConfiguration) (s : WorkerPool Unit (PoolCallback Unit Empty)),
      pool.get s = WorkerPool.new (EventScheduler.new ⟨0, by decide⟩) configuration →
      ∃ received, ((pool.comp schedulerOf).zoom
          (scheduleArrivals arrivalCallback threeArrivals)).run s = .ok () received ∧
        RunsTo (pool.comp schedulerOf) (PoolCallback.call pool perform Empty.elim) (IsEmpty Empty)
          (fun final => Computes configuration arrivals (pool.get final)) received) ∧
      ∀ (configuration configuration' : CapacityConfiguration)
          (self self' : WorkerPool Unit (PoolCallback Unit Empty)),
        configuration'.processingTime = configuration.processingTime →
        configuration.workerCount ≤ configuration'.workerCount →
        Computes configuration arrivals self → Computes configuration' arrivals self' →
          List.Forall₂ NoLater self'.completed self.completed :=
  pool_computes_recurrence Component.whole (fun _ => pure ()) Empty.elim
    (fun _ s => ⟨s, rfl, s.scheduler, .refl, rfl⟩) (fun callback => callback.elim)
    ⟨0, by decide⟩ threeArrivals (by decide) (by decide)

end WorkerPool

end BankSim
