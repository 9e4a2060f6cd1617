import BankSim.Library.Alike
import BankSim.Theory.Agenda

/-!
# A Scheduler Shared with Others

A component that is given a scheduler need not be the only one to use it. Others
put their own callbacks on its queue, between those of the component, and the
order numbers of the component's events are then not what they would be without
them.

What is the same is the agenda. `Shows` relates the shared scheduler to one that
only serves the component: their clocks agree, and the component's callbacks are
due on both in the same order and at the same times. What the component does to
its scheduler it can do on both, and what others schedule does not show on the
second. When a callback of others comes up, the second scheduler is idle, and
only its clock moves.

## Main definitions

* `EventScheduler.InOrder`: What is queued is in the order in which it will run.
* `EventScheduler.Shows`: What a shared scheduler shows of a component's own.

## Theorems

* `Shows.own`, `Shows.foreign`: A callback of the component, and one of others.
* `alike_scheduleAt`, `alike_scheduleAfter`: The component's calls.
* `Shows.popped_own`, `Shows.popped_foreign`: The next event.
* `after_runNext_late`, `after_runNext_due`: What a step does with it.
-/

namespace BankSim

open Exec

namespace EventScheduler

variable {κ ξ : Type}

/-- What is queued is in the order in which it will run, past or not. -/
structure InOrder (scheduler : EventScheduler κ) : Prop where
  numbered : scheduler.Numbered
  sorted : scheduler.agenda.Pairwise fun a b => a.1 ≤ b.1

theorem inOrder_new (clock : VirtualClock) : (new clock : EventScheduler κ).InOrder :=
  ⟨numbered_new clock, List.Pairwise.nil⟩

theorem InOrder.scheduled {self : EventScheduler κ} (h : self.InOrder) (time : Int)
    (callback : κ) : (self.scheduled time callback).InOrder := by
  refine ⟨numbered_scheduled h.numbered time callback, ?_⟩
  rw [agenda_scheduled h.numbered]
  exact Timeline.sorted_orderedInsert Prod.fst (time, callback) h.sorted

theorem InOrder.tail {self : EventScheduler κ} (h : self.InOrder) {event : Event κ}
    {queue : List (Event κ)} (hqueue : self.queue = event :: queue) (clock : VirtualClock) :
    (self.ready clock queue).InOrder := by
  refine ⟨fun other hmem => h.numbered other ?_, ?_⟩
  · rw [hqueue]
    exact List.mem_cons_of_mem event hmem
  · have hsorted := h.sorted
    unfold agenda at hsorted
    rw [hqueue, List.map_cons, List.pairwise_cons] at hsorted
    exact hsorted.2

/-- A callback of the component, as an item of an agenda shared with others. -/
def among (ξ : Type) (item : Int × κ) : Int × (κ ⊕ ξ) :=
  (item.1, Sum.inl item.2)

/-- What a shared scheduler shows of one that is the component's own. -/
structure Shows (shared : EventScheduler (κ ⊕ ξ)) (alone : EventScheduler κ) : Prop where
  clock : shared.clock = alone.clock
  inOrder : shared.InOrder
  numbered : alone.Numbered
  agenda : shared.agendaOf Sum.isLeft = alone.agenda.map (among ξ)

variable {shared : EventScheduler (κ ⊕ ξ)} {alone : EventScheduler κ}

theorem shows_new (clock : VirtualClock) :
    Shows (new clock : EventScheduler (κ ⊕ ξ)) (new clock : EventScheduler κ) :=
  ⟨rfl, inOrder_new clock, numbered_new clock, rfl⟩

theorem Shows.withClock (h : Shows shared alone) (clock : VirtualClock) :
    Shows { shared with clock } { alone with clock } :=
  ⟨rfl, ⟨h.inOrder.numbered, h.inOrder.sorted⟩, h.numbered, h.agenda⟩

theorem Shows.withHistory (h : Shows shared alone) (history history' : List Execution) :
    Shows (shared.withHistory history) (alone.withHistory history') :=
  ⟨h.clock, ⟨h.inOrder.numbered, h.inOrder.sorted⟩, h.numbered, h.agenda⟩

/-- The component schedules a callback. -/
theorem Shows.own (h : Shows shared alone) (time : Int) (callback : κ) :
    Shows (shared.scheduled time (.inl callback)) (alone.scheduled time callback) := by
  refine ⟨h.clock, h.inOrder.scheduled time _, numbered_scheduled h.numbered time callback, ?_⟩
  unfold agendaOf
  rw [agenda_scheduled h.inOrder.numbered, agenda_scheduled h.numbered]
  have hinsert : (shared.agenda.orderedInsert (fun a b => a.1 < b.1)
        (time, Sum.inl callback)).filter (fun item => item.2.isLeft)
      = (shared.agenda.filter fun item => item.2.isLeft).orderedInsert (fun a b => a.1 < b.1)
        (time, Sum.inl callback) :=
    Timeline.filter_orderedInsert_of_pos Prod.fst rfl h.inOrder.sorted
  have hagenda := h.agenda
  unfold agendaOf at hagenda
  rw [hagenda] at hinsert
  refine hinsert.trans ?_
  have hmap : (alone.agenda.orderedInsert Sooner (time, callback)).map (among ξ)
      = (alone.agenda.map (among ξ)).orderedInsert (fun a b => a.1 < b.1)
        ((time, Sum.inl callback) : Int × (κ ⊕ ξ)) :=
    List.map_orderedInsert Sooner _ (among ξ) _ _ (fun _ _ => Iff.rfl) fun _ _ => Iff.rfl
  exact hmap.symm

/-- Others schedule one of theirs. -/
theorem Shows.foreign (h : Shows shared alone) (time : Int) (callback : ξ) :
    Shows (shared.scheduled time (.inr callback)) alone := by
  refine ⟨h.clock, h.inOrder.scheduled time _, h.numbered, ?_⟩
  unfold agendaOf
  rw [agenda_scheduled h.inOrder.numbered]
  exact (Timeline.filter_orderedInsert_of_neg Prod.fst rfl _).trans h.agenda

theorem alike_scheduleAt (h : Shows shared alone) (time : Int) (callback : κ) :
    Alike (fun _ => Shows) Shows (scheduleAt time (Sum.inl callback : κ ⊕ ξ))
      (scheduleAt time callback) shared alone := by
  by_cases htime : shared.clock.time ≤ time
  · have htime' : alone.clock.time ≤ time := h.clock ▸ htime
    exact alike_of_ok (scheduleAt_of_le _ htime) (scheduleAt_of_le callback htime')
      (h.own time callback)
  · have htime' : time < alone.clock.time := h.clock ▸ not_le.mp htime
    rcases scheduleAt_of_lt (Sum.inl callback : κ ⊕ ξ) (not_le.mp htime) with ⟨e, -, he⟩
    rcases scheduleAt_of_lt callback htime' with ⟨e', -, he'⟩
    exact alike_of_error he he' h

theorem alike_scheduleAfter (h : Shows shared alone) (delay : Int) (callback : κ) :
    Alike (fun _ => Shows) Shows (scheduleAfter delay (Sum.inl callback : κ ⊕ ξ))
      (scheduleAfter delay callback) shared alone := by
  by_cases hdelay : 0 ≤ delay
  · refine alike_of_ok (scheduleAfter_of_nonneg _ hdelay) (scheduleAfter_of_nonneg callback hdelay)
      ?_
    rw [h.clock]
    exact h.own _ callback
  · rcases @scheduleAfter_of_neg _ shared delay (Sum.inl callback : κ ⊕ ξ) (not_le.mp hdelay) with
      ⟨e, he⟩
    rcases @scheduleAfter_of_neg _ alone delay callback (not_le.mp hdelay) with ⟨e', he'⟩
    exact alike_of_error he he' h

/-- The next event is one of the component's, and then it is the next one on its
    own scheduler too. -/
theorem Shows.popped_own (h : Shows shared alone) {event : Event (κ ⊕ ξ)}
    {rest : List (Event (κ ⊕ ξ))} {callback : κ} (hqueue : shared.queue = event :: rest)
    (hkind : event.callback = .inl callback) :
    ∃ event' rest', alone.queue = event' :: rest' ∧ event'.time = event.time ∧
      event'.callback = callback ∧
      ∀ clock, Shows (shared.ready clock rest) (alone.ready clock rest') := by
  have hagenda := h.agenda
  have hcons : shared.agenda
      = (event.time, .inl callback) :: (shared.ready shared.clock rest).agenda := by
    unfold EventScheduler.agenda
    rw [hqueue, List.map_cons, hkind]
    rfl
  rw [agendaOf_cons hcons, if_pos Sum.isLeft_inl] at hagenda
  rcases List.map_eq_cons_iff.mp hagenda.symm with ⟨item, items, halone, hitem, hitems⟩
  unfold EventScheduler.agenda at halone
  rcases List.map_eq_cons_iff.mp halone with ⟨event', rest', hqueue', hevent, hrest⟩
  rw [← hevent, among, Prod.mk.injEq] at hitem
  refine ⟨event', rest', hqueue', hitem.1, Sum.inl_injective hitem.2, fun clock => ?_⟩
  refine ⟨rfl, h.inOrder.tail hqueue clock, fun other hmem => h.numbered other ?_, ?_⟩
  · rw [hqueue']
    exact List.mem_cons_of_mem event' hmem
  · rw [← hrest] at hitems
    exact hitems.symm

/-- The next event is one of others, and it leaves no gap. -/
theorem Shows.popped_foreign (h : Shows shared alone) {event : Event (κ ⊕ ξ)}
    {rest : List (Event (κ ⊕ ξ))} {callback : ξ} (hqueue : shared.queue = event :: rest)
    (hkind : event.callback = .inr callback) (clock : VirtualClock) :
    Shows (shared.ready clock rest) { alone with clock } := by
  have hcons : shared.agenda
      = (event.time, .inr callback) :: (shared.ready clock rest).agenda := by
    unfold EventScheduler.agenda
    rw [hqueue, List.map_cons, hkind]
    rfl
  refine ⟨rfl, h.inOrder.tail hqueue clock, h.numbered, ?_⟩
  have hagenda := h.agenda
  rw [agendaOf_cons hcons, if_neg (by simp)] at hagenda
  exact hagenda

/-! ### A step, by its event -/

section Step

variable {σ : Type} (scheduler : Component σ (EventScheduler κ)) (call : κ → Action σ Unit)
  {s : σ} {event : Event κ} {queue : List (Event κ)}

theorem after_runNext_late (hqueue : (scheduler.get s).queue = event :: queue)
    (hlate : event.time < (scheduler.get s).clock.time) :
    after (runNext scheduler call) s = scheduler.set { scheduler.get s with queue } s := by
  rcases runNext_late scheduler call hqueue hlate with ⟨e, -, he⟩
  exact after_of_error he

/-- An event that is due leaves what its callback leaves, but for the record. -/
theorem after_runNext_due (hqueue : (scheduler.get s).queue = event :: queue)
    (hdue : (scheduler.get s).clock.time ≤ event.time) {clock : VirtualClock}
    (hclock : clock.time = event.time) {t : σ}
    (ht : t = after (call event.callback)
      (scheduler.set ((scheduler.get s).ready clock queue) s)) :
    ∃ history, after (runNext scheduler call) s
      = scheduler.set ((scheduler.get t).withHistory history) t := by
  rcases after_runNext scheduler call s with
    ⟨hnil, -⟩ | ⟨event', queue', hqueue', hlate, -⟩ |
      ⟨event', queue', clock', history, hqueue', -, hclock', hafter⟩
  · rw [hqueue] at hnil
    cases hnil
  · cases hqueue.symm.trans hqueue'
    exact absurd hlate (not_lt.mpr hdue)
  · cases hqueue.symm.trans hqueue'
    have hsame : clock' = clock := VirtualClock.ext (hclock'.trans hclock.symm)
    rw [hsame, ← ht] at hafter
    exact ⟨history, hafter⟩

end Step

end EventScheduler

end BankSim
