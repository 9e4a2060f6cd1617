import BankSim.Core.PaymentQueues
import BankSim.Theory.Agenda

/-!
# Arrivals at a Dispatcher

What the payment queue and the worker pool have in common: payments that are
scheduled to arrive, the payments as they are queued, and work that does not
get in the way.

Work does not get in the way if it returns and leaves the dispatcher as it was,
apart from what else it may have put on the scheduler. Such work may still
change the rest of the world and may rely on what earlier work did there.
`Undisturbed` says so with an invariant over the number of payments whose work
is done and a time that none of it came after.

## Main definitions

* `Arrival`: A payment that is going to arrive.
* `arrivalTime`, `coming`: When it does, and what the scheduler holds for it.
* `scheduleArrivals`: Put payments on the scheduler.
* `Records`: A queued payment is the one that arrived in a place.
* `Spares`: The dispatcher is as it was.
* `Undisturbed`: Work that does not get in the way.
* `RunsTo`: What holds when a run ends.

## Theorems

* `scheduleArrivals_run`: What scheduling up front leaves on the scheduler.
* `arrivalTime_mono`: Arrivals in order.
* `coming_eq_cons`, `coming_eq_nil`: The next arrival, if there is one.
* `undisturbed_of_spares`: Work that spares the dispatcher in every world.
* `next_event`: What the next event can be.
* `runsTo_of_events`: Runs of arrivals and completions come to an end.
-/

namespace BankSim

open Exec

/-- A payment that is going to arrive. -/
structure Arrival (ω : Type) where
  time : Int
  paymentId : String
  paymentType : PaymentType
  work : ω
  deriving DecidableEq, Repr

section Arrivals

variable {ω κ σ δ ξ : Type}

/-- When the payment in a place arrives. -/
def arrivalTime (arrivals : List (Arrival ω)) (i : Nat) : Int :=
  (arrivals[i]?.map (·.time)).getD 0

/-- A queued payment is the one that arrived in a place. -/
def Records (arrivals : List (Arrival ω)) (i : Nat) (item : QueuedPayment ω) : Prop :=
  ∃ arrival, arrivals[i]? = some arrival ∧ item.paymentId = arrival.paymentId ∧
    item.paymentType = arrival.paymentType ∧ item.work = arrival.work ∧
    item.queuedAt = arrival.time ∧ item.arrivalOrder = i

/-- What the scheduler holds for the arrivals from a place on. -/
def coming (callback : Arrival ω → κ) (arrivals : List (Arrival ω)) (i : Nat) :
    List (Int × κ) :=
  (arrivals.drop i).map fun arrival => (arrival.time, callback arrival)

theorem arrivalTime_eq {arrivals : List (Arrival ω)} {i : Nat} {arrival : Arrival ω}
    (h : arrivals[i]? = some arrival) : arrivalTime arrivals i = arrival.time := by
  rw [arrivalTime, h]
  rfl

theorem arrivalTime_mono {arrivals : List (Arrival ω)}
    (hsorted : arrivals.Pairwise fun a b => a.time ≤ b.time) :
    ∀ i j, i ≤ j → j < arrivals.length → arrivalTime arrivals i ≤ arrivalTime arrivals j := by
  intro i j hij hj
  rw [arrivalTime_eq (List.getElem?_eq_getElem (lt_of_le_of_lt hij hj)),
    arrivalTime_eq (List.getElem?_eq_getElem hj)]
  rcases Nat.lt_or_eq_of_le hij with hlt | rfl
  · exact List.pairwise_iff_getElem.mp hsorted i j _ _ hlt
  · exact le_refl _

theorem coming_eq_cons {callback : Arrival ω → κ} {arrivals : List (Arrival ω)} {i : Nat}
    {item : Int × κ} {rest : List (Int × κ)} (h : coming callback arrivals i = item :: rest) :
    ∃ arrival, arrivals[i]? = some arrival ∧ item = (arrival.time, callback arrival) ∧
      rest = coming callback arrivals (i + 1) := by
  unfold coming at h
  rcases List.map_eq_cons_iff.mp h with ⟨arrival, later, hdrop, hitem, hrest⟩
  have hget : arrivals[i]? = some arrival := by
    have hhead : (arrivals.drop i)[0]? = arrivals[i + 0]? := List.getElem?_drop
    rw [hdrop, Nat.add_zero] at hhead
    exact hhead.symm
  refine ⟨arrival, hget, hitem.symm, ?_⟩
  rw [coming, ← hrest, ← List.tail_drop, hdrop, List.tail_cons]

theorem coming_eq_nil {callback : Arrival ω → κ} {arrivals : List (Arrival ω)} {i : Nat}
    (h : coming callback arrivals i = []) : arrivals.length ≤ i :=
  List.drop_eq_nil_iff.mp (List.map_eq_nil_iff.mp h)

/-- Schedule payments to arrive. -/
def scheduleArrivals (callback : Arrival ω → κ) (rows : List (Arrival ω)) :
    Action (EventScheduler κ) Unit :=
  EventScheduler.scheduleEach (rows.map fun row => (row.time, callback row))

/-- On a fresh scheduler, payments scheduled up front will arrive in the order
    of their times, and otherwise in the order in which they were scheduled. -/
theorem scheduleArrivals_run (callback : Arrival ω → κ) (kind : κ → Bool)
    (hkind : ∀ arrival, kind (callback arrival) = true) (clock : VirtualClock)
    {rows : List (Arrival ω)} (htimes : ∀ row ∈ rows, clock.time ≤ row.time) :
    ∃ later, (scheduleArrivals callback rows).run (EventScheduler.new clock) = .ok () later ∧
      later.Orderly ∧ later.clock = clock ∧
      later.agendaOf kind = coming callback (sortedBy (·.time) rows) 0 := by
  have hitems : ∀ item ∈ rows.map fun row => (row.time, callback row), clock.time ≤ item.1 := by
    intro item hitem
    rcases List.mem_map.mp hitem with ⟨row, hrow, rfl⟩
    exact htimes row hrow
  rcases EventScheduler.scheduleEach_new clock _ hitems with
    ⟨later, hrun, horderly, hclock, hagenda⟩
  refine ⟨later, hrun, horderly, hclock, ?_⟩
  -- Sorting the callbacks is sorting the rows, and all of them are of the kind.
  have hsorted := map_sortedBy Prod.fst (fun row : Arrival ω => (row.time, callback row)) rows
  rw [coming, List.drop_zero, EventScheduler.agendaOf, hagenda, ← hsorted]
  refine List.filter_eq_self.mpr fun item hitem => ?_
  rcases List.mem_map.mp hitem with ⟨row, -, rfl⟩
  exact hkind row

variable (d : Component σ δ) (schedulerOf : Component δ (EventScheduler κ)) (kind : κ → Bool)

/-- The dispatcher is as it was, apart from what else may have been put on the
    scheduler. -/
def Spares (s t : σ) : Prop :=
  ∃ q, EventScheduler.Joined kind (schedulerOf.get (d.get s)) q ∧
    d.get t = schedulerOf.set q (d.get s)

/-- The time the dispatcher's clock shows. -/
def timeOf (s : σ) : Int :=
  (schedulerOf.get (d.get s)).clock.time

@[simp] theorem timeOf_set (p : δ) (s : σ) :
    timeOf d schedulerOf (d.set p s) = (schedulerOf.get p).clock.time := by
  unfold timeOf
  rw [d.get_set]

@[simp] theorem timeOf_comp_set (q : EventScheduler κ) (s : σ) :
    timeOf d schedulerOf ((d.comp schedulerOf).set q s) = q.clock.time := by
  unfold timeOf
  rw [d.get_comp_set, schedulerOf.get_set]

/-- Whatever else was scheduled, the clock shows the same time. -/
theorem timeOf_of_joined {s t : σ} {q : EventScheduler κ}
    (h : (schedulerOf.get (d.get s)).Orderly)
    (hjoined : EventScheduler.Joined kind (schedulerOf.get (d.get s)) q)
    (hsame : d.get t = schedulerOf.set q (d.get s)) :
    timeOf d schedulerOf t = timeOf d schedulerOf s := by
  unfold timeOf
  rw [hsame, schedulerOf.get_set, (hjoined.keeps h).2.1]

/-- The work of the arrivals, done in order, and whatever else is scheduled
    return and spare the dispatcher. `I` is what holds of the rest of the world
    when so many payments are done, none of them after a given time. -/
structure Undisturbed (perform : ω → Action σ Unit) (other : ξ → Action σ Unit)
    (arrivals : List (Arrival ω)) (I : Nat → Int → σ → Prop) : Prop where
  frame : ∀ done time p s, I done time s → I done time (d.set p s)
  work : ∀ done arrival time s, arrivals[done]? = some arrival → I done time s →
    time ≤ timeOf d schedulerOf s → ∃ t, (perform arrival.work).run s = .ok () t ∧
      I (done + 1) (timeOf d schedulerOf s) t ∧ Spares d schedulerOf kind s t
  other : ∀ callback done time s, I done time s → ∃ t, (other callback).run s = .ok () t ∧
    I done time t ∧ Spares d schedulerOf kind s t

variable {d schedulerOf kind}

/-- Work that returns and spares the dispatcher, whatever it finds. -/
theorem undisturbed_of_spares {perform : ω → Action σ Unit} {other : ξ → Action σ Unit}
    (hperform : ∀ work s, ∃ t, (perform work).run s = .ok () t ∧ Spares d schedulerOf kind s t)
    (hother : ∀ callback s, ∃ t, (other callback).run s = .ok () t ∧
      Spares d schedulerOf kind s t) (arrivals : List (Arrival ω)) :
    Undisturbed d schedulerOf kind perform other arrivals fun _ _ _ => True where
  frame _ _ _ _ _ := trivial
  work _ arrival _ s _ _ _ := by
    rcases hperform arrival.work s with ⟨t, hrun, hspares⟩
    exact ⟨t, hrun, trivial, hspares⟩
  other callback _ _ s _ := by
    rcases hother callback s with ⟨t, hrun, hspares⟩
    exact ⟨t, hrun, trivial, hspares⟩

end Arrivals

section Runs

variable {ω κ σ ξ : Type} (scheduler : Component σ (EventScheduler κ)) (call : κ → Action σ Unit)

/-- The next event, where the callbacks of a kind are the arrivals that are left
    and others that are due: it is of another kind, it is the next arrival, or
    it is the first of those due. -/
theorem next_event (kind : κ → Bool) (callback : Arrival ω → κ) {arrivals : List (Arrival ω)}
    {k : Nat} {due : List (Int × κ)} {s : σ} (h : (scheduler.get s).Orderly)
    (hagenda : (scheduler.get s).agendaOf kind
      = Timeline.merged Prod.fst (coming callback arrivals k) due) :
    (scheduler.get s).queue = [] ∨
      ∃ (head : κ) (ready : EventScheduler κ), ready.Orderly ∧
        (scheduler.get s).clock.time ≤ ready.clock.time ∧
        (∀ t, (call head).run (scheduler.set ready s) = .ok () t →
          ∃ history, (EventScheduler.runNext scheduler call).run s
            = .ok true (scheduler.set ((scheduler.get t).withHistory history) t)) ∧
        ((kind head = false ∧ ready.agendaOf kind
            = Timeline.merged Prod.fst (coming callback arrivals k) due) ∨
          (∃ arrival, arrivals[k]? = some arrival ∧ ready.clock.time = arrival.time ∧
            head = callback arrival ∧ ready.agendaOf kind
              = Timeline.merged Prod.fst (coming callback arrivals (k + 1)) due) ∨
          ∃ rest, due = (ready.clock.time, head) :: rest ∧ ready.agendaOf kind
            = Timeline.merged Prod.fst (coming callback arrivals k) rest) := by
  rcases EventScheduler.orderly_step scheduler call h with
    hnil | ⟨now, head, ready, rfl, hdue, horderly, hnow, hrun⟩
  · exact Or.inl hnil
  · refine Or.inr ⟨head, ready, horderly, hdue, hrun, ?_⟩
    -- The head of the agenda heads the part it belongs to, and that is a merge.
    have hsplit := (EventScheduler.agendaOf_cons hnow kind).symm.trans hagenda
    cases hkind : kind head with
    | false =>
        rw [hkind] at hsplit
        exact Or.inl ⟨rfl, hsplit⟩
    | true =>
        rw [if_pos hkind] at hsplit
        rcases Timeline.merged_eq_cons Prod.fst hsplit.symm with
          ⟨rest, hcoming, hrest⟩ | ⟨rest, hfirst, hrest⟩
        · rcases coming_eq_cons hcoming with ⟨arrival, hplace, hitem, rfl⟩
          rw [Prod.mk.injEq] at hitem
          exact Or.inr (Or.inl ⟨arrival, hplace, hitem.1, hitem.2, hrest⟩)
        · exact Or.inr (Or.inr ⟨rest, hfirst, hrest⟩)

/-- A run from the state never raises, and when it ends, `D` holds. Under the
    condition it does end. -/
def RunsTo (condition : Prop) (D : σ → Prop) (s : σ) : Prop :=
  (∀ rounds, ∃ ended t, (EventScheduler.run scheduler call rounds).run s = .ok ended t ∧
    (ended = true → D t)) ∧
  (condition → ∃ t, (∃ enough, ∀ rounds, enough ≤ rounds →
    (EventScheduler.run scheduler call rounds).run s = .ok true t) ∧ D t)

theorem RunsTo.imp {condition : Prop} {D E : σ → Prop} {s : σ}
    (h : RunsTo scheduler call condition D s) (hDE : ∀ t, D t → E t) :
    RunsTo scheduler call condition E s := by
  constructor
  · intro rounds
    rcases h.1 rounds with ⟨ended, t, hrun, ht⟩
    exact ⟨ended, t, hrun, fun hended => hDE t (ht hended)⟩
  · intro hcondition
    rcases h.2 hcondition with ⟨t, hrun, ht⟩
    exact ⟨t, hrun, hDE t ht⟩

/-- Runs whose events are arrivals and completions of so many payments, and
    whatever else there is to run. -/
theorem runsTo_of_events {P : Nat → Nat → σ → Prop} {D : σ → Prop} (count : Nat)
    (hstep : ∀ k c s, P k c s → (scheduler.get s).queue = [] ∨
      ∃ t, (EventScheduler.runNext scheduler call).run s = .ok true t ∧
        ((Nonempty ξ ∧ P k c t) ∨ (k < count ∧ P (k + 1) c t) ∨
          ∃ done, c < done ∧ c < count ∧ P k done t))
    (hdone : ∀ k c s, P k c s → (scheduler.get s).queue = [] → D s) {s : σ} (h : P 0 0 s) :
    RunsTo scheduler call (IsEmpty ξ) D s := by
  constructor
  · -- No event raises and every one leads to such a state again.
    intro rounds
    rcases EventScheduler.run_keeps scheduler call (J := fun s => ∃ k c, P k c s)
      (fun s ⟨k, c, hs⟩ => by
        rcases hstep k c s hs with hnil | ⟨t, hnext, ht | ht | ⟨done, ht⟩⟩
        · exact Or.inl hnil
        · exact Or.inr ⟨t, hnext, k, c, ht.2⟩
        · exact Or.inr ⟨t, hnext, k + 1, c, ht.2⟩
        · exact Or.inr ⟨t, hnext, k, done, ht.2.2⟩) rounds s ⟨0, 0, h⟩ with
      ⟨ended, t, hrun, ⟨k, c, ht⟩, hend⟩
    exact ⟨ended, t, hrun, fun hended => hdone k c t ht (hend hended)⟩
  · intro hnothing
    -- Each event is an arrival or completes something, so they run out.
    rcases EventScheduler.leads_of_steps scheduler call
      (J := fun left s => ∃ k c, P k c s ∧ left = (count - k) + (count - c))
      (fun left s ⟨k, c, hs, hleft⟩ => by
        rcases hstep k c s hs with hnil | ⟨t, hnext, ht | ht | ⟨done, ht⟩⟩
        · exact Or.inl hnil
        · exact absurd ht.1 (not_nonempty_iff.mpr hnothing)
        · exact Or.inr ⟨t, _, hnext, ⟨k + 1, c, ht.2, rfl⟩, by omega⟩
        · exact Or.inr ⟨t, _, hnext, ⟨k, done, ht.2.2, rfl⟩, by omega⟩)
      (count - 0 + (count - 0)) s ⟨0, 0, h, rfl⟩ with
      ⟨t, left, hleads, ⟨k, c, ht, -⟩, hqueue⟩
    exact ⟨t, EventScheduler.run_of_leads scheduler call hleads hqueue, hdone k c t ht hqueue⟩

end Runs

end BankSim
