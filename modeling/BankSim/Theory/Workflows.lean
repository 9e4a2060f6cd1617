import BankSim.Theory.Agenda

/-!
# Workflows on a Scheduler

A component that takes things through stages keeps one callback on the
scheduler for each of them, and running a stage schedules the next. Nothing
writes down which callback a thing waits for. It can be read off its state,
and the queue has to agree with that.

`Awaiting` is the agreement, for any idea of what is awaited. Callbacks that
are on the queue are awaited, each thing has at most one, and what is awaited
is on the queue, unless it is excused. It is kept when a thing begins, when
the stage at the head of the queue runs and schedules at most the next one,
and when the clock moves without overtaking anything.

If every stage that runs returns and schedules nothing but a stage of smaller
rank, the queue drains. `run_of_drains` says so with a bound on the number of
steps.

## Main definitions

* `EventScheduler.Awaiting`: The queue holds what is awaited.
* `EventScheduler.Continues`: A stage scheduled at most the next one.
* `EventScheduler.workload`: A bound on the steps there are left.

## Theorems

* `Awaiting.continued`, `Awaiting.ready`: What begins and what moves on.
* `run_of_drains`: A run to the empty queue.
-/

namespace BankSim

open Exec

namespace EventScheduler

variable {κ ι σ : Type}

/-- Every queued callback is the one its workflow awaits, no workflow has two,
    and a workflow that awaits one has it on the queue unless it is
    `excused`. -/
structure Awaiting (workflow : κ → ι) (OnTime : κ → Int → Prop) (awaits : ι → Option κ)
    (excused : ι → Prop) (scheduler : EventScheduler κ) : Prop where
  orderly : scheduler.Orderly
  once : (scheduler.queue.map fun event => workflow event.callback).Nodup
  due : ∀ event ∈ scheduler.queue, awaits (workflow event.callback) = some event.callback
  onTime : ∀ event ∈ scheduler.queue, OnTime event.callback event.time
  queued : ∀ item, awaits item ≠ none → excused item ∨
    ∃ event ∈ scheduler.queue, workflow event.callback = item

/-- The scheduler after a stage of a workflow: as it was, if nothing is next,
    or with the next stage on its queue. -/
inductive Continues (workflow : κ → ι) (OnTime : κ → Int → Prop) (item : ι)
    (before : EventScheduler κ) : Option κ → EventScheduler κ → Prop
  | ended : Continues workflow OnTime item before none before
  | next {time : Int} {callback : κ} (hown : workflow callback = item)
      (htime : before.clock.time ≤ time) (hontime : OnTime callback time) :
      Continues workflow OnTime item before (some callback) (before.scheduled time callback)

section Awaiting

variable {workflow : κ → ι} {OnTime : κ → Int → Prop} {awaits awaits' : ι → Option κ}
  {excused excused' : ι → Prop} {self later : EventScheduler κ}

theorem awaiting_nil (hqueue : self.queue = []) (hawaits : ∀ item, awaits item = none) :
    self.Awaiting workflow OnTime awaits excused where
  orderly := by
    have hnil : ∀ event, event ∉ [] ++ self.queue := by
      intro event hmem
      rw [hqueue] at hmem
      exact absurd hmem List.not_mem_nil
    refine ⟨?_, fun event hmem => absurd hmem (hnil event),
      fun event hmem => absurd hmem List.not_mem_nil, fun event hmem => absurd hmem (hnil event)⟩
    rw [hqueue]
    exact List.Pairwise.nil
  once := by
    rw [hqueue]
    exact List.nodup_nil
  due event hmem := by
    rw [hqueue] at hmem
    exact absurd hmem List.not_mem_nil
  onTime event hmem := by
    rw [hqueue] at hmem
    exact absurd hmem List.not_mem_nil
  queued item hnone := absurd (hawaits item) hnone

/-- More may be excused, and what nothing awaits need not be. -/
theorem Awaiting.excuse (h : self.Awaiting workflow OnTime awaits excused)
    (hexcused : ∀ item, awaits item ≠ none → excused item →
      excused' item ∨ ∃ event ∈ self.queue, workflow event.callback = item) :
    self.Awaiting workflow OnTime awaits excused' :=
  { h with
    queued := fun item hitem => (h.queued item hitem).elim (hexcused item hitem) Or.inr }

/-- Nothing is queued for a workflow that awaits nothing. -/
theorem Awaiting.ne_of_none (h : self.Awaiting workflow OnTime awaits excused) {item : ι}
    (hnone : awaits item = none) : ∀ event ∈ self.queue, workflow event.callback ≠ item := by
  rintro event hmem rfl
  have hsome := h.due event hmem
  rw [hnone] at hsome
  cases hsome

/-- A workflow that awaits nothing may come to await something without having
    it on the queue, if it is excused. -/
theorem Awaiting.stranded (h : self.Awaiting workflow OnTime awaits excused) {item : ι}
    (hnone : awaits item = none) (hothers : ∀ other, other ≠ item → awaits' other = awaits other)
    (hexcused : ∀ other, excused other → excused' other) (hitem : excused' item) :
    self.Awaiting workflow OnTime awaits' excused' where
  orderly := h.orderly
  once := h.once
  due event hmem := by
    rw [hothers _ (h.ne_of_none hnone event hmem)]
    exact h.due event hmem
  onTime := h.onTime
  queued other hother := by
    by_cases hsame : other = item
    · exact Or.inl (hsame ▸ hitem)
    · rw [hothers other hsame] at hother
      exact (h.queued other hother).imp_left (hexcused other)

/-- A workflow that awaits nothing may go on, or begin, with the callback that
    it awaits from then on. -/
theorem Awaiting.continued (h : self.Awaiting workflow OnTime awaits excused) {item : ι}
    (hnone : awaits item = none) (hothers : ∀ other, other ≠ item → awaits' other = awaits other)
    (hexcused : ∀ other, other ≠ item → excused other → excused' other)
    (hcontinues : Continues workflow OnTime item self (awaits' item) later) :
    later.Awaiting workflow OnTime awaits' excused' := by
  -- Nothing on the queue is of this workflow, so what is queued is due as before.
  have hfresh := h.ne_of_none hnone
  have hold : ∀ event ∈ self.queue,
      awaits' (workflow event.callback) = some event.callback := by
    intro event hmem
    rw [hothers _ (hfresh event hmem)]
    exact h.due event hmem
  generalize hnext : awaits' item = next at hcontinues
  cases hcontinues with
  | ended =>
      refine ⟨h.orderly, h.once, hold, h.onTime, fun other hother => ?_⟩
      have hne : other ≠ item := fun hsame => hother (hsame ▸ hnext)
      rw [hothers other hne] at hother
      exact (h.queued other hother).imp_left (hexcused other hne)
  | @next time callback hown htime hontime =>
      -- The new callback is the one that is queued for this workflow.
      have hperm : (self.scheduled time callback).queue.Perm
          (⟨time, self.nextOrder, callback⟩ :: self.queue) :=
        List.perm_orderedInsert Event.le _ _
      refine ⟨h.orderly.scheduled callback htime, ?_, fun event hmem => ?_, fun event hmem => ?_,
        fun other hother => ?_⟩
      · refine ((hperm.map fun event => workflow event.callback).nodup_iff).mpr ?_
        refine List.nodup_cons.mpr ⟨fun hmem => ?_, h.once⟩
        rcases List.mem_map.mp hmem with ⟨event, hevent, hsame⟩
        exact hfresh event hevent (hsame.trans hown)
      · rcases (mem_scheduled_iff self time callback event).mp hmem with rfl | hmem
        · exact (congrArg awaits' hown).trans hnext
        · exact hold event hmem
      · rcases (mem_scheduled_iff self time callback event).mp hmem with rfl | hmem
        · exact hontime
        · exact h.onTime event hmem
      · by_cases hne : other = item
        · refine Or.inr ⟨⟨time, self.nextOrder, callback⟩, ?_, hown.trans hne.symm⟩
          exact (mem_scheduled_iff self time callback _).mpr (Or.inl rfl)
        · rw [hothers other hne] at hother
          refine (h.queued other hother).imp (hexcused other hne) ?_
          rintro ⟨event, hmem, hevent⟩
          exact ⟨event, (mem_scheduled_iff self time callback event).mpr (Or.inr hmem), hevent⟩

/-- The callback at the head of the queue finds the scheduler without it. Its
    workflow has nothing queued any more. -/
theorem Awaiting.ready [DecidableEq ι] (h : self.Awaiting workflow OnTime awaits excused)
    {event : Event κ} {queue : List (Event κ)} (hqueue : self.queue = event :: queue)
    {clock : VirtualClock} (hclock : clock.time = event.time) :
    (self.ready clock queue).Awaiting workflow OnTime
      (Function.update awaits (workflow event.callback) none) excused := by
  have honce := h.once
  rw [hqueue, List.map_cons, List.nodup_cons] at honce
  have hmem : ∀ other ∈ queue, other ∈ self.queue := by
    intro other hother
    rw [hqueue]
    exact List.mem_cons_of_mem event hother
  have hne : ∀ other ∈ queue, workflow other.callback ≠ workflow event.callback :=
    fun other hother hsame => honce.1 (hsame ▸ List.mem_map_of_mem hother)
  refine ⟨h.orderly.ready hqueue hclock, honce.2, fun other hother => ?_,
    fun other hother => h.onTime other (hmem other hother), fun item hitem => ?_⟩
  · rw [Function.update_of_ne (hne other hother)]
    exact h.due other (hmem other hother)
  · -- What another workflow awaits is further back.
    have hother : item ≠ workflow event.callback := by
      rintro rfl
      exact hitem (Function.update_self _ _ _)
    rw [Function.update_of_ne hother] at hitem
    refine (h.queued item hitem).imp_right ?_
    rintro ⟨other, hqueued, hitem⟩
    rw [hqueue, List.mem_cons] at hqueued
    rcases hqueued with rfl | hqueued
    · exact absurd hitem.symm hother
    · exact ⟨other, hqueued, hitem⟩

/-- The clock may move as long as it overtakes nothing. -/
theorem Awaiting.clocked (h : self.Awaiting workflow OnTime awaits excused)
    {clock : VirtualClock} (hclock : ∀ event ∈ self.queue, clock.time ≤ event.time) :
    Awaiting workflow OnTime awaits excused { self with clock } :=
  ⟨⟨h.orderly.strict, h.orderly.given, fun _ hmem => absurd hmem List.not_mem_nil, hclock⟩,
    h.once, h.due, h.onTime, h.queued⟩

theorem Awaiting.withHistory (h : self.Awaiting workflow OnTime awaits excused)
    (history : List Execution) :
    (self.withHistory history).Awaiting workflow OnTime awaits excused :=
  ⟨h.orderly.withHistory history, h.once, h.due, h.onTime, h.queued⟩

end Awaiting

/-! ### Runs that drain the queue -/

/-- How many steps the queue is good for, if a callback only schedules one of
    smaller rank. -/
def workload (rank : κ → Nat) (self : EventScheduler κ) : Nat :=
  (self.queue.map fun event => rank event.callback + 1).sum

theorem workload_scheduled (rank : κ → Nat) (self : EventScheduler κ) (time : Int)
    (callback : κ) : (self.scheduled time callback).workload rank
      = rank callback + 1 + self.workload rank := by
  have hperm : (self.scheduled time callback).queue.Perm
      (⟨time, self.nextOrder, callback⟩ :: self.queue) :=
    List.perm_orderedInsert Event.le _ _
  unfold workload
  rw [(hperm.map fun event => rank event.callback + 1).sum_eq, List.map_cons, List.sum_cons]

/-- A stage that goes on with one of smaller rank leaves less to do. -/
theorem workload_lt {workflow : κ → ι} {OnTime : κ → Int → Prop} {item : ι}
    {self later : EventScheduler κ} {next : Option κ} (rank : κ → Nat) {event : Event κ}
    {queue : List (Event κ)} (hqueue : self.queue = event :: queue) (clock : VirtualClock)
    (hcontinues : Continues workflow OnTime item (self.ready clock queue) next later)
    (hrank : ∀ callback ∈ next, rank callback < rank event.callback) :
    later.workload rank < self.workload rank := by
  have hself : self.workload rank
      = rank event.callback + 1 + (self.ready clock queue).workload rank := by
    unfold workload
    rw [hqueue, List.map_cons, List.sum_cons]
    rfl
  cases hcontinues with
  | ended => omega
  | next hown htime hontime =>
      have hless := hrank _ rfl
      rw [workload_scheduled]
      omega

/-- If every step keeps an invariant and leaves less to do, the run comes to
    an end with the queue empty, within as many steps as there were to do. -/
theorem run_of_drains (scheduler : Component σ (EventScheduler κ)) (call : κ → Action σ Unit)
    (rank : κ → Nat) {J : σ → Prop}
    (hstep : ∀ s, J s → (scheduler.get s).queue = [] ∨
      ∃ t, (runNext scheduler call).run s = .ok true t ∧ J t ∧
        (scheduler.get t).workload rank < (scheduler.get s).workload rank) {s : σ} (h : J s) :
    ∃ t, (∀ rounds, (scheduler.get s).workload rank < rounds →
        (run scheduler call rounds).run s = .ok true t) ∧ J t ∧ (scheduler.get t).queue = [] := by
  -- The induction is on the work that is left.
  induction hload : (scheduler.get s).workload rank using Nat.strong_induction_on generalizing s with
  | _ load ih =>
      rcases hstep s h with hdone | ⟨t, hnext, ht, hless⟩
      · refine ⟨s, fun rounds hrounds => ?_, h, hdone⟩
        obtain ⟨more, rfl⟩ := Nat.exists_eq_add_of_lt hrounds
        rw [run, run_bind_of_ok (runNext_nil scheduler call hdone)]
        rfl
      · rw [hload] at hless
        rcases ih _ hless ht rfl with ⟨final, hrun, hfinal⟩
        refine ⟨final, fun rounds hrounds => ?_, hfinal⟩
        obtain ⟨more, rfl⟩ := Nat.exists_eq_add_of_lt hrounds
        rw [run, run_bind_of_ok hnext]
        exact hrun (load + more) (by omega)

end EventScheduler

end BankSim
