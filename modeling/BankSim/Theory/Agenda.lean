import BankSim.Library.Timeline
import BankSim.Theory.SchedulerLaw

/-!
# Runs that Return

The results on single steps say what happens however a step ends. This module
is about runs in which every callback returns.

For such a run the order numbers of the events do not matter. All that counts
is the agenda, the callbacks in the order in which they will run, with their
times. A new callback goes behind everything that is not later than it, which
is what the order numbers are for, and `agenda_scheduled` says so.

`Leads` is a chain of steps whose callbacks all return, and `run_of_leads`
turns a chain that ends with an empty queue into a run that comes to an end.
`sweep` is the rule for the common case of a chain: the agenda holds one
callback for each of some items, all at one time, and running each of them
may put one callback for a later time on the agenda. An invariant over the
items done and the items left carries the effects. Where the events of a run
are not that regular, `run_keeps` and `leads_of_steps` take an invariant over
single steps instead.

Some callbacks may be of no interest. `agendaOf` is the part of the agenda
that is, and callbacks of other kinds can be `Joined` to it without a trace.

## Main definitions

* `EventScheduler.agenda`: What will run, in order.
* `EventScheduler.Numbered`: Order numbers are handed out once.
* `EventScheduler.Leads`: A chain of steps that return.
* `EventScheduler.Orderly`: The queue is in order and not past.
* `EventScheduler.agendaOf`, `EventScheduler.Joined`: Callbacks of one kind,
  and others that come along.
* `EventScheduler.scheduleEach`: Schedule callbacks up front.

## Theorems

* `agenda_scheduled`: Where a new callback goes.
* `step_of_agenda`: A step runs the head of the agenda.
* `run_of_leads`: A chain to an empty queue is a run that ends.
* `sweep`: Running all that is due at one time.
* `run_keeps`, `leads_of_steps`: Runs from what every step does.
* `orderly_step`: A step runs the first callback there is.
* `scheduleEach_new`: What scheduling up front leaves on the agenda.
-/

namespace BankSim

open Exec

/-- One item of an agenda is due sooner than another. -/
def Sooner {κ : Type} (a b : Int × κ) : Prop :=
  a.1 < b.1

instance {κ : Type} : DecidableRel (Sooner (κ := κ)) :=
  fun a b => inferInstanceAs (Decidable (a.1 < b.1))

namespace EventScheduler

variable {κ σ α : Type}

/-- What will run, in order, with its times. -/
def agenda (self : EventScheduler κ) : List (Int × κ) :=
  self.queue.map fun event => (event.time, event.callback)

/-- Every queued event has an order number that was handed out before. -/
def Numbered (self : EventScheduler κ) : Prop :=
  ∀ event ∈ self.queue, event.order < self.nextOrder

/-- A new callback goes behind everything that is not later. -/
theorem agenda_scheduled {self : EventScheduler κ} (h : self.Numbered) (time : Int)
    (callback : κ) : (self.scheduled time callback).agenda
      = self.agenda.orderedInsert Sooner (time, callback) := by
  have hinsert : ∀ queue : List (Event κ), (∀ event ∈ queue, event.order < self.nextOrder) →
      (queue.orderedInsert Event.le ⟨time, self.nextOrder, callback⟩).map
          (fun event => (event.time, event.callback))
        = (queue.map fun event => (event.time, event.callback)).orderedInsert
            Sooner (time, callback) := by
    intro queue
    induction queue with
    | nil => exact fun _ => rfl
    | cons event queue ih =>
        intro hnumbered
        have horder := hnumbered event List.mem_cons_self
        have hrest := ih fun other hmem => hnumbered other (List.mem_cons_of_mem event hmem)
        -- The new event has the greater number, so only an earlier time puts it first.
        have hle : Event.le ⟨time, self.nextOrder, callback⟩ event ↔ time < event.time := by
          unfold Event.le
          constructor
          · rintro (hlt | ⟨-, hge⟩)
            · exact hlt
            · exact absurd hge (not_le.mpr horder)
          · exact Or.inl
        by_cases hlt : time < event.time
        · have hsooner : Sooner (time, callback) (event.time, event.callback) := hlt
          rw [List.orderedInsert_cons_of_le _ _ (hle.mpr hlt), List.map_cons, List.map_cons,
            List.orderedInsert_cons_of_le _ _ hsooner]
        · have hsooner : ¬ Sooner (time, callback) (event.time, event.callback) := hlt
          rw [List.orderedInsert_of_not_le _ _ (fun h => hlt (hle.mp h)), List.map_cons,
            List.map_cons, List.orderedInsert_of_not_le _ _ hsooner, hrest]
  exact hinsert self.queue h

/-- A callback that is not earlier than anything goes last. -/
theorem agenda_scheduled_last {self : EventScheduler κ} (h : self.Numbered) {time : Int}
    (hlast : ∀ item ∈ self.agenda, item.1 ≤ time) (callback : κ) :
    (self.scheduled time callback).agenda = self.agenda ++ [(time, callback)] := by
  rw [agenda_scheduled h]
  exact Timeline.orderedInsert_last fun item hitem => not_lt.mpr (hlast item hitem)

theorem numbered_scheduled {self : EventScheduler κ} (h : self.Numbered) (time : Int)
    (callback : κ) : (self.scheduled time callback).Numbered := by
  intro event hmem
  rcases (mem_scheduled_iff self time callback event).mp hmem with rfl | hold
  · exact Nat.lt_succ_self self.nextOrder
  · exact Nat.lt_succ_of_lt (h event hold)

theorem numbered_new (clock : VirtualClock) : (new clock : EventScheduler κ).Numbered := by
  intro event hmem
  cases hmem

variable (scheduler : Component σ (EventScheduler κ)) (call : κ → Action σ Unit)

/-- A step runs the head of the agenda, if that is not past, on the world in
    which it is gone and the clock shows its time. If the callback returns,
    so does the step, with the world the callback left but for the record. -/
theorem step_of_agenda {s : σ} {time : Int} {callback : κ} {rest : List (Int × κ)}
    (hagenda : (scheduler.get s).agenda = (time, callback) :: rest)
    (hdue : (scheduler.get s).clock.time ≤ time) :
    ∃ ready : EventScheduler κ, ready.clock.time = time ∧ ready.agenda = rest ∧
      ((scheduler.get s).Numbered → ready.Numbered) ∧
      ∀ t, (call callback).run (scheduler.set ready s) = .ok () t →
        ∃ history, (runNext scheduler call).run s
          = .ok true (scheduler.set ((scheduler.get t).withHistory history) t) := by
  unfold agenda at hagenda
  rcases List.map_eq_cons_iff.mp hagenda with ⟨event, queue, hqueue, hevent, hrest⟩
  rw [Prod.mk.injEq] at hevent
  rcases hevent with ⟨rfl, rfl⟩
  rcases runNext_due scheduler call hqueue hdue with ⟨clock, hclock, hrun⟩
  refine ⟨(scheduler.get s).ready clock queue, hclock, hrest, fun hnumbered other hmem => ?_,
    fun t ht => ?_⟩
  · refine hnumbered other ?_
    rw [hqueue]
    exact List.mem_cons_of_mem event hmem
  · -- The callback returned, and the step only writes that down.
    rw [ht] at hrun
    exact ⟨_, hrun⟩

/-- A chain of steps that all run a callback and return. -/
def Leads : σ → σ → Prop :=
  Relation.ReflTransGen fun s t => (runNext scheduler call).run s = .ok true t

/-- A chain that ends with an empty queue is a run that comes to an end. -/
theorem run_of_leads {s t : σ} (h : Leads scheduler call s t)
    (hdone : (scheduler.get t).queue = []) :
    ∃ enough, ∀ rounds, enough ≤ rounds → (run scheduler call rounds).run s = .ok true t := by
  induction h using Relation.ReflTransGen.head_induction_on with
  | refl =>
      refine ⟨1, fun rounds hrounds => ?_⟩
      obtain ⟨rounds, rfl⟩ := Nat.exists_eq_add_of_le' hrounds
      rw [run, run_bind_of_ok (runNext_nil scheduler call hdone)]
      rfl
  | head hstep hrest ih =>
      rcases ih with ⟨enough, henough⟩
      refine ⟨enough + 1, fun rounds hrounds => ?_⟩
      obtain ⟨more, rfl⟩ := Nat.exists_eq_add_of_le' (le_trans (Nat.le_add_left 1 enough) hrounds)
      rw [run, run_bind_of_ok hstep]
      exact henough more (by omega)

/-- The scheduler after a callback that may have scheduled another. -/
def followed (self : EventScheduler κ) (time : Int) : Option κ → EventScheduler κ
  | some callback => self.scheduled time callback
  | none => self

/-- What it scheduled goes last, if nothing on the agenda is later. -/
theorem followed_last {self : EventScheduler κ} (h : self.Numbered) {time : Int}
    (hlast : ∀ item ∈ self.agenda, item.1 ≤ time) (next : Option κ) :
    (self.followed time next).clock = self.clock ∧ (self.followed time next).Numbered ∧
      (self.followed time next).agenda
        = self.agenda ++ next.toList.map fun callback => (time, callback) := by
  cases next with
  | none => exact ⟨rfl, h, (List.append_nil _).symm⟩
  | some callback =>
      exact ⟨rfl, numbered_scheduled h time callback, agenda_scheduled_last h hlast callback⟩

theorem filterMap_snoc {β : Type} (next : α → Option β) (items : List α) (item : α) :
    (items ++ [item]).filterMap next = items.filterMap next ++ (next item).toList := by
  rw [List.filterMap_append]
  cases hnext : next item with
  | none => rw [List.filterMap_cons_none hnext]; rfl
  | some _ => rw [List.filterMap_cons_some hnext]; rfl

/-- Running all that is due at one time. The agenda holds a callback for each
    item, and each callback, when it runs, may schedule one for later. -/
theorem sweep (items : List α) (time later : Int) (hlater : time ≤ later) (callback : α → κ)
    (next : α → Option κ) (I : List α → List α → σ → Prop)
    (hframe : ∀ done todo s q, I done todo s → I done todo (scheduler.set q s))
    (hstep : ∀ done item todo s, I done (item :: todo) s →
      (scheduler.get s).clock.time = time → ∃ t, (call (callback item)).run s = .ok () t ∧
        I (done ++ [item]) todo t ∧
        scheduler.get t = (scheduler.get s).followed later (next item))
    {s : σ} (hI : I [] items s) (hclock : (scheduler.get s).clock.time ≤ time)
    (hnumbered : (scheduler.get s).Numbered)
    (hagenda : (scheduler.get s).agenda = items.map fun item => (time, callback item)) :
    ∃ t, Leads scheduler call s t ∧ I items [] t ∧ (scheduler.get t).clock.time ≤ time ∧
      (scheduler.get t).Numbered ∧
      (scheduler.get t).agenda = (items.filterMap next).map fun callback => (later, callback) := by
  -- Halfway through, what the items done have scheduled stands behind the items left.
  have hhalfway : ∀ (todo done : List α) (s : σ), I done todo s →
      (scheduler.get s).clock.time ≤ time → (scheduler.get s).Numbered →
      (scheduler.get s).agenda = (todo.map fun item => (time, callback item)) ++
        (done.filterMap next).map (fun callback => (later, callback)) →
      ∃ t, Leads scheduler call s t ∧ I (done ++ todo) [] t ∧
        (scheduler.get t).clock.time ≤ time ∧ (scheduler.get t).Numbered ∧
        (scheduler.get t).agenda
          = ((done ++ todo).filterMap next).map fun callback => (later, callback) := by
    intro todo
    induction todo with
    | nil =>
        intro done s hI hclock hnumbered hagenda
        rw [List.append_nil]
        exact ⟨s, .refl, hI, hclock, hnumbered, hagenda⟩
    | cons item todo ih =>
        intro done s hI hclock hnumbered hagenda
        rw [List.map_cons, List.cons_append] at hagenda
        rcases step_of_agenda scheduler call hagenda hclock with
          ⟨ready, htime, hrest, hready, hrun⟩
        rcases hstep done item todo (scheduler.set ready s) (hframe _ _ _ _ hI)
          (by rw [scheduler.get_set, htime]) with ⟨t, hcall, hIt, hsched⟩
        rcases hrun t hcall with ⟨history, hnext⟩
        rw [scheduler.get_set] at hsched
        -- Nothing on the agenda is later than what the callback may have put there.
        have hlast : ∀ other ∈ ready.agenda, other.1 ≤ later := by
          intro other hmem
          rw [hrest, List.mem_append] at hmem
          rcases hmem with hmem | hmem <;> rcases List.mem_map.mp hmem with ⟨_, -, rfl⟩
          · exact hlater
          · exact le_refl later
        have hstate := followed_last (hready hnumbered) hlast (next item)
        rw [← hsched, hrest, List.append_assoc, ← List.map_append, ← filterMap_snoc] at hstate
        rcases ih (done ++ [item]) (scheduler.set ((scheduler.get t).withHistory history) t)
          (hframe _ _ _ _ hIt) (by
            rw [scheduler.get_set]
            change (scheduler.get t).clock.time ≤ time
            rw [hstate.1, htime]) (by rw [scheduler.get_set]; exact hstate.2.1)
          (by rw [scheduler.get_set]; exact hstate.2.2) with
          ⟨final, hleads, hfinal⟩
        rw [List.append_assoc, List.singleton_append] at hfinal
        exact ⟨final, .head hnext hleads, hfinal⟩
  have hstart := hhalfway items [] s hI hclock hnumbered
    (by rw [hagenda, List.filterMap_nil, List.map_nil, List.append_nil])
  exact hstart

/-! ### Runs kept by an invariant -/

/-- A run in which every step returns and keeps an invariant does not raise,
    and if it comes to an end, the queue is empty. -/
theorem run_keeps {J : σ → Prop}
    (hstep : ∀ s, J s → (scheduler.get s).queue = [] ∨
      ∃ t, (runNext scheduler call).run s = .ok true t ∧ J t) (rounds : Nat) :
    ∀ s, J s → ∃ ended t, (run scheduler call rounds).run s = .ok ended t ∧ J t ∧
      (ended = true → (scheduler.get t).queue = []) := by
  induction rounds with
  | zero => exact fun s h => ⟨false, s, rfl, h, fun hend => nomatch hend⟩
  | succ rounds ih =>
      intro s h
      rcases hstep s h with hdone | ⟨t, hnext, ht⟩
      · refine ⟨true, s, ?_, h, fun _ => hdone⟩
        rw [run, run_bind_of_ok (runNext_nil scheduler call hdone)]
        rfl
      · rcases ih t ht with ⟨ended, final, hrun, hfinal⟩
        refine ⟨ended, final, ?_, hfinal⟩
        rw [run, run_bind_of_ok hnext]
        exact hrun

/-- If every step leaves less to do, the run does come to an end. -/
theorem leads_of_steps {J : Nat → σ → Prop}
    (hstep : ∀ left s, J left s → (scheduler.get s).queue = [] ∨
      ∃ t less, (runNext scheduler call).run s = .ok true t ∧ J less t ∧ less < left) (left : Nat) :
    ∀ s, J left s →
      ∃ t less, Leads scheduler call s t ∧ J less t ∧ (scheduler.get t).queue = [] := by
  induction left using Nat.strong_induction_on with
  | _ left ih =>
      intro s h
      rcases hstep left s h with hdone | ⟨t, less, hnext, ht, hless⟩
      · exact ⟨s, left, .refl, h, hdone⟩
      · rcases ih less hless t ht with ⟨final, least, hleads, hfinal⟩
        exact ⟨final, least, .head hnext hleads, hfinal⟩

/-! ### Callbacks of one kind among others -/

/-- The queue is in order, and nothing on it is past. -/
def Orderly (self : EventScheduler κ) : Prop :=
  Timely [] self

theorem orderly_new (clock : VirtualClock) : (new clock : EventScheduler κ).Orderly :=
  ⟨List.Pairwise.nil, fun _ h => absurd h List.not_mem_nil, fun _ h => absurd h List.not_mem_nil,
    fun _ h => absurd h List.not_mem_nil⟩

theorem Orderly.scheduled {self : EventScheduler κ} (h : self.Orderly) {time : Int}
    (callback : κ) (htime : self.clock.time ≤ time) : (self.scheduled time callback).Orderly :=
  timely_scheduled callback h htime

theorem Orderly.numbered {self : EventScheduler κ} (h : self.Orderly) : self.Numbered :=
  h.given

theorem Orderly.sorted {self : EventScheduler κ} (h : self.Orderly) :
    self.agenda.Pairwise fun a b => a.1 ≤ b.1 := by
  refine List.pairwise_map.mpr (h.strict.imp fun {a b} hab => ?_)
  have := (not_le_iff a b).mp hab
  change a.time ≤ b.time
  omega

theorem Orderly.withHistory {self : EventScheduler κ} (h : self.Orderly)
    (history : List Execution) : (self.withHistory history).Orderly :=
  ⟨h.strict, h.given, h.past_le, h.le_queued⟩

/-- The callbacks of a kind that will run, in order, with their times. -/
def agendaOf (kind : κ → Bool) (self : EventScheduler κ) : List (Int × κ) :=
  self.agenda.filter fun item => kind item.2

/-- The head of an agenda is the head of the part it belongs to, and no other
    part has it. -/
theorem agendaOf_cons {self ready : EventScheduler κ} {time : Int} {callback : κ}
    (h : self.agenda = (time, callback) :: ready.agenda) (kind : κ → Bool) :
    self.agendaOf kind
      = if kind callback then (time, callback) :: ready.agendaOf kind
        else ready.agendaOf kind := by
  unfold agendaOf
  rw [h, List.filter_cons]

theorem agendaOf_nil {self : EventScheduler κ} (h : self.queue = []) (kind : κ → Bool) :
    self.agendaOf kind = [] := by
  unfold agendaOf agenda
  rw [h]
  rfl

theorem agendaOf_scheduled {self : EventScheduler κ} (h : self.Orderly) {kind : κ → Bool}
    {callback : κ} (hkind : kind callback = true) (time : Int) :
    (self.scheduled time callback).agendaOf kind
      = (self.agendaOf kind).orderedInsert (fun a b => a.1 < b.1) (time, callback) := by
  unfold agendaOf
  rw [agenda_scheduled h.numbered]
  exact Timeline.filter_orderedInsert_of_pos Prod.fst hkind h.sorted

theorem agendaOf_scheduled_other {self : EventScheduler κ} (h : self.Orderly) {kind : κ → Bool}
    {callback : κ} (hkind : kind callback = false) (time : Int) :
    (self.scheduled time callback).agendaOf kind = self.agendaOf kind := by
  unfold agendaOf
  rw [agenda_scheduled h.numbered]
  exact Timeline.filter_orderedInsert_of_neg Prod.fst hkind _

/-- Callbacks of other kinds may have been scheduled, for times that are not
    past. -/
def Joined (kind : κ → Bool) : EventScheduler κ → EventScheduler κ → Prop :=
  Relation.ReflTransGen fun self later =>
    ∃ time callback, kind callback = false ∧ self.clock.time ≤ time ∧
      later = self.scheduled time callback

theorem Joined.keeps {kind : κ → Bool} {self later : EventScheduler κ}
    (hjoined : Joined kind self later) (h : self.Orderly) :
    later.Orderly ∧ later.clock = self.clock ∧ later.agendaOf kind = self.agendaOf kind := by
  induction hjoined with
  | refl => exact ⟨h, rfl, rfl⟩
  | tail _ hstep ih =>
      rcases ih with ⟨horderly, hclock, hagenda⟩
      rcases hstep with ⟨time, callback, hkind, htime, rfl⟩
      exact ⟨horderly.scheduled callback htime, hclock,
        (agendaOf_scheduled_other horderly hkind time).trans hagenda⟩

/-- Once the first event is off the queue and the clock shows its time, what is
    left is still in order. -/
theorem Orderly.ready {self : EventScheduler κ} (h : self.Orderly) {event : Event κ}
    {queue : List (Event κ)} (hqueue : self.queue = event :: queue) {clock : VirtualClock}
    (hclock : clock.time = event.time) : (self.ready clock queue).Orderly := by
  have hready := timely_ready h hqueue hclock
  exact ⟨(List.pairwise_append.mp hready.strict).2.1,
    fun other hmem => hready.given other (List.mem_append_right _ hmem),
    fun other hmem => absurd hmem List.not_mem_nil, hready.le_queued⟩

/-- A step either finds nothing to do or runs the first callback of the agenda
    on the world in which it is gone and the clock shows its time. -/
theorem orderly_step {s : σ} (h : (scheduler.get s).Orderly) :
    (scheduler.get s).queue = [] ∨
      ∃ (time : Int) (callback : κ) (ready : EventScheduler κ), ready.clock.time = time ∧
        (scheduler.get s).clock.time ≤ time ∧ ready.Orderly ∧
        (scheduler.get s).agenda = (time, callback) :: ready.agenda ∧
        ∀ t, (call callback).run (scheduler.set ready s) = .ok () t →
          ∃ history, (runNext scheduler call).run s
            = .ok true (scheduler.set ((scheduler.get t).withHistory history) t) := by
  cases hqueue : (scheduler.get s).queue with
  | nil => exact Or.inl rfl
  | cons event queue =>
      have hdue := h.le_queued event (by rw [hqueue]; exact List.mem_cons_self)
      rcases runNext_due scheduler call hqueue hdue with ⟨clock, hclock, hrun⟩
      refine Or.inr ⟨event.time, event.callback, (scheduler.get s).ready clock queue, hclock, hdue,
        h.ready hqueue hclock, ?_, fun t ht => ?_⟩
      · unfold agenda
        rw [hqueue]
        rfl
      · rw [ht] at hrun
        exact ⟨_, hrun⟩

/-- Scheduling counts one more event of a kind if it is one. -/
theorem countP_scheduled (self : EventScheduler κ) (time : Int) (callback : κ)
    (kind : κ → Bool) : (self.scheduled time callback).queue.countP (kind ·.callback)
      = self.queue.countP (kind ·.callback) + if kind callback then 1 else 0 := by
  unfold scheduled
  rw [(List.perm_orderedInsert _ _ _).countP_eq, List.countP_cons]

/-! ### Scheduling up front -/

/-- Schedule callbacks one after the other. -/
def scheduleEach : List (Int × κ) → Action (EventScheduler κ) Unit
  | [] => return
  | item :: items => do
      scheduleAt item.1 item.2
      scheduleEach items

theorem scheduleEach_run (items : List (Int × κ)) {self : EventScheduler κ} (h : self.Orderly)
    (htimes : ∀ item ∈ items, self.clock.time ≤ item.1) :
    ∃ later, (scheduleEach items).run self = .ok () later ∧ later.Orderly ∧
      later.clock = self.clock ∧ later.agenda
        = items.foldl (fun sorted item => sorted.orderedInsert (fun a b => a.1 < b.1) item)
          self.agenda := by
  induction items generalizing self with
  | nil => exact ⟨self, rfl, h, rfl, rfl⟩
  | cons item items ih =>
      have htime := htimes item List.mem_cons_self
      rcases ih (h.scheduled item.2 htime)
        (fun other hmem => htimes other (List.mem_cons_of_mem item hmem)) with
        ⟨later, hrun, horderly, hclock, hagenda⟩
      refine ⟨later, ?_, horderly, hclock, ?_⟩
      · rw [scheduleEach, run_bind_of_ok (scheduleAt_of_le item.2 htime)]
        exact hrun
      · rw [hagenda, agenda_scheduled h.numbered]
        rfl

/-- On a fresh scheduler, what was scheduled up front will run in the order of
    its times, and what was scheduled first goes first among equals. -/
theorem scheduleEach_new (clock : VirtualClock) (items : List (Int × κ))
    (htimes : ∀ item ∈ items, clock.time ≤ item.1) :
    ∃ later, (scheduleEach items).run (new clock) = .ok () later ∧ later.Orderly ∧
      later.clock = clock ∧ later.agenda = sortedBy Prod.fst items := by
  rcases scheduleEach_run items (orderly_new clock) htimes with
    ⟨later, hrun, horderly, hclock, hagenda⟩
  exact ⟨later, hrun, horderly, hclock,
    hagenda.trans (Timeline.foldl_orderedInsert Prod.fst items)⟩

end EventScheduler

end BankSim
