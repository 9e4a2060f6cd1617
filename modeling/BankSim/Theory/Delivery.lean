import BankSim.Core.Ordering

/-!
# Deliveries of Whole Workflows

Lists of events that a processor may be given, and what can be said about
them without one.

`FullDelivery` is a delivery of whole workflows: every payment has one event
at each of the four positions, with one amount, and events arrive in the
order they are listed in. A payment is `Ready` after a part of the delivery
when all its events are in that part, which is when a processor can complete
it.

Payments become ready in one order, and their completions arrive in another.
`CompletionsInTurn` looks at one delivery and asks that the completion it
makes ready did not arrive before one that was ready earlier.
`InCompletionOrder` says the same about the delivery as a whole, without its
parts: of two payments, the one whose completion arrives first is ready
first. That the two agree is `completionsInTurn_iff`.

## Main definitions

* `Ready`: All events of a payment are there.
* `FullDelivery`: Whole workflows, one after another or interleaved.
* `CompletionsInTurn`: One delivery completes its payment in turn.
* `InCompletionOrder`: Payments are ready in the order of their completions.

## Theorems

* `FullDelivery.eq_of_position`: An event is known by payment and position.
* `FullDelivery.arrival_lt_iff`: Earlier arrival means earlier in the list.
* `completionsInTurn_iff`: The order of the whole is the order at each step.
-/

namespace BankSim

/-- The events of a payment at all four positions are there. -/
def Ready (events : List PaymentEvent) (paymentId : String) : Prop :=
  ∀ position ∈ ([1, 2, 3, 4] : List Int),
    ∃ event ∈ events, event.paymentId = paymentId ∧ event.sequence.value = position

instance (events : List PaymentEvent) (paymentId : String) : Decidable (Ready events paymentId) :=
  inferInstanceAs (Decidable (∀ position ∈ ([1, 2, 3, 4] : List Int), _))

theorem ready_iff (events : List PaymentEvent) (paymentId : String) :
    Ready events paymentId ↔ ∀ position, 1 ≤ position → position ≤ 4 →
      ∃ event ∈ events, event.paymentId = paymentId ∧ event.sequence.value = position := by
  refine forall_congr' fun position => ?_
  have hmem : position ∈ ([1, 2, 3, 4] : List Int) ↔ 1 ≤ position ∧ position ≤ 4 := by
    simp only [List.mem_cons, List.not_mem_nil, or_false]
    omega
  rw [hmem, and_imp]

/-- A delivery of whole workflows: events arrive in the order of the list,
    their identifiers differ, no position of a workflow is taken twice and
    none is missing, and a payment has one amount. -/
structure FullDelivery (events : List PaymentEvent) : Prop where
  positions : ∀ i (h : i < events.length), events[i].arrivalOrder = i + 1
  ids_nodup : (events.map (·.eventId)).Nodup
  distinct : (events.map fun event => (event.paymentId, event.sequence.value)).Nodup
  complete : ∀ event ∈ events, Ready events event.paymentId
  amounts : ∀ a ∈ events, ∀ b ∈ events, a.paymentId = b.paymentId → a.amount = b.amount

namespace FullDelivery

variable {events before later : List PaymentEvent} {event : PaymentEvent}

/-- An event is known by its payment and its position. -/
theorem eq_of_position (h : FullDelivery events) {a b : PaymentEvent} (ha : a ∈ events)
    (hb : b ∈ events) (hpayment : a.paymentId = b.paymentId)
    (hposition : a.sequence.value = b.sequence.value) : a = b :=
  List.inj_on_of_nodup_map h.distinct ha hb (by rw [hpayment, hposition])

theorem eq_of_completed (h : FullDelivery events) {a b : PaymentEvent} (ha : a ∈ events)
    (hb : b ∈ events) (hpayment : a.paymentId = b.paymentId) (hdone : a.eventType = .completed)
    (hdone' : b.eventType = .completed) : a = b := by
  rw [PaymentEvent.completed_iff] at hdone hdone'
  exact h.eq_of_position ha hb hpayment (hdone.trans hdone'.symm)

theorem arrivals_sorted (h : FullDelivery events) :
    events.Pairwise fun a b => a.arrivalOrder < b.arrivalOrder := by
  rw [List.pairwise_iff_getElem]
  intro i j hi hj hij
  rw [h.positions i hi, h.positions j hj]
  omega

/-- What arrives before an event is listed before it. -/
theorem arrival_lt_iff (h : FullDelivery (before ++ event :: later)) {other : PaymentEvent}
    (hother : other ∈ before ++ event :: later) :
    other.arrivalOrder < event.arrivalOrder ↔ other ∈ before := by
  have hsorted := h.arrivals_sorted
  rw [List.pairwise_append, List.pairwise_cons] at hsorted
  rcases hsorted with ⟨-, ⟨hlater, -⟩, hbefore⟩
  constructor
  · intro hlt
    rcases List.mem_append.mp hother with hmem | hmem
    · exact hmem
    rcases List.mem_cons.mp hmem with hsame | hmem
    · rw [hsame] at hlt
      omega
    · have := hlater other hmem
      omega
  · intro hmem
    exact hbefore other hmem event List.mem_cons_self

/-- An event that arrives no later is listed before, or is the event. -/
theorem mem_of_arrival_le (h : FullDelivery (before ++ event :: later)) {other : PaymentEvent}
    (hother : other ∈ before ++ event :: later) (hle : other.arrivalOrder ≤ event.arrivalOrder) :
    other ∈ before ∨ other = event := by
  rcases lt_or_eq_of_le hle with hlt | heq
  · exact Or.inl ((h.arrival_lt_iff hother).mp hlt)
  · right
    have hevent : event ∈ before ++ event :: later :=
      List.mem_append_right _ List.mem_cons_self
    have hnodup : ((before ++ event :: later).map (·.arrivalOrder)).Nodup := by
      rw [List.Nodup, List.pairwise_map]
      exact h.arrivals_sorted.imp fun hlt => ne_of_lt hlt
    exact List.inj_on_of_nodup_map hnodup hother hevent heq

end FullDelivery

/-- What holds at every place of a list holds at its head and at every place
    of its tail. -/
theorem forall_splits_cons_iff {α : Type} (P : List α → α → Prop) (before : List α) (a : α)
    (as : List α) :
    (∀ front b back, a :: as = front ++ b :: back → P (before ++ front) b) ↔
      P before a ∧ ∀ front b back, as = front ++ b :: back → P (before ++ [a] ++ front) b := by
  constructor
  · intro hall
    refine ⟨?_, fun front b back hsplit => ?_⟩
    · have hfirst := hall [] a as rfl
      rwa [List.append_nil] at hfirst
    · rw [← List.append_cons]
      exact hall (a :: front) b back (by rw [hsplit, List.cons_append])
  · rintro ⟨hfirst, hrest⟩ front b back hsplit
    cases front with
    | nil =>
        rw [List.nil_append, List.cons.injEq] at hsplit
        rwa [List.append_nil, ← hsplit.1]
    | cons first front =>
        rw [List.cons_append, List.cons.injEq] at hsplit
        rw [List.append_cons, ← hsplit.1]
        exact hrest front b back hsplit.2

/-- The payment an event makes ready, if it makes it ready, is completed in
    turn: no payment that was ready before has a completion that arrived
    later. -/
def CompletionsInTurn (before : List PaymentEvent) (event : PaymentEvent) : Prop :=
  Ready (before ++ [event]) event.paymentId →
    ∀ c ∈ before ++ [event], c.paymentId = event.paymentId → c.eventType = .completed →
      ∀ d ∈ before, d.eventType = .completed → Ready before d.paymentId →
        d.arrivalOrder ≤ c.arrivalOrder

/-- Of two payments, the one whose completion arrives first is ready first:
    some event of the other arrives after all of its events. -/
def InCompletionOrder (events : List PaymentEvent) : Prop :=
  ∀ c ∈ events, ∀ d ∈ events, c.eventType = .completed → d.eventType = .completed →
    c.arrivalOrder < d.arrivalOrder →
      ∃ f ∈ events, f.paymentId = d.paymentId ∧
        ∀ g ∈ events, g.paymentId = c.paymentId → g.arrivalOrder < f.arrivalOrder

instance (events : List PaymentEvent) : Decidable (InCompletionOrder events) :=
  inferInstanceAs (Decidable (∀ c ∈ events, ∀ d ∈ events, _))

/-- Payments are ready in the order of their completions exactly when every
    delivery completes its payment in turn. -/
theorem completionsInTurn_iff {events : List PaymentEvent} (h : FullDelivery events) :
    (∀ before event later, events = before ++ event :: later → CompletionsInTurn before event) ↔
      InCompletionOrder events := by
  constructor
  · intro hturn c hc d hd hdone hdone' hlt
    -- look at the delivery that makes the payment of `c` ready, its last one
    rcases (events.filter fun g => g.paymentId = c.paymentId).toFinset.exists_max_image
        (·.arrivalOrder) ⟨c, by simp [hc]⟩ with ⟨event, hevent, hlast⟩
    simp only [List.mem_toFinset, List.mem_filter, decide_eq_true_eq, and_imp] at hevent hlast
    rcases List.append_of_mem hevent.1 with ⟨before, later, hsplit⟩
    subst hsplit
    have hplace : ∀ g ∈ before ++ event :: later, g.paymentId = c.paymentId →
        g ∈ before ++ [event] := by
      intro g hg hpayment
      rcases h.mem_of_arrival_le hg (hlast g hg hpayment) with hmem | hsame
      · exact List.mem_append_left _ hmem
      · exact List.mem_append_right _ (List.mem_singleton.mpr hsame)
    have hready : Ready (before ++ [event]) event.paymentId := by
      intro position hposition
      rcases h.complete c hc position hposition with ⟨g, hg, hpayment, hsequence⟩
      exact ⟨g, hplace g hg hpayment, hpayment.trans hevent.2.symm, hsequence⟩
    by_contra hnone
    push Not at hnone
    -- were all of the other payment's events earlier, it would have been ready before
    have hearlier : ∀ f ∈ before ++ event :: later, f.paymentId = d.paymentId → f ∈ before := by
      intro f hf hpayment
      rcases hnone f hf hpayment with ⟨g, hg, hpayment', hle⟩
      rcases h.mem_of_arrival_le hf (hle.trans (hlast g hg hpayment')) with hmem | hsame
      · exact hmem
      · have hcd : c = d := h.eq_of_completed hc hd
          (hevent.2.symm.trans (hsame ▸ hpayment)) hdone hdone'
        rw [hcd] at hlt
        omega
    have hready' : Ready before d.paymentId := by
      intro position hposition
      rcases h.complete d hd position hposition with ⟨f, hf, hpayment, hsequence⟩
      exact ⟨f, hearlier f hf hpayment, hpayment, hsequence⟩
    have hle := hturn before event later rfl hready c (hplace c hc rfl) hevent.2.symm hdone d
      (hearlier d hd rfl) hdone' hready'
    omega
  · intro horder before event later hsplit hready c hc hpayment hdone d hd hdone' hready'
    subst hsplit
    have hmem : ∀ g ∈ before ++ [event], g ∈ before ++ event :: later := by
      intro g hg
      rw [List.append_cons]
      exact List.mem_append_left _ hg
    have hd' : d ∈ before ++ event :: later := List.mem_append_left _ hd
    by_contra hlt
    rcases horder c (hmem c hc) d hd' hdone hdone' (not_le.mp hlt) with ⟨f, hf, hpayment', hafter⟩
    -- the event of the other payment that should be last is among the earlier ones
    rcases (ready_iff before d.paymentId).mp hready' f.sequence.value
        (by have := f.sequence.value_pos; omega) f.sequence_le with ⟨f', hf', hpayment'', hsame⟩
    have heq : f' = f := h.eq_of_position (List.mem_append_left _ hf') hf
      (hpayment''.trans hpayment'.symm) hsame
    rw [heq] at hf'
    have hbefore := (h.arrival_lt_iff hf).mpr hf'
    have hevent := hafter event (List.mem_append_right _ List.mem_cons_self) hpayment.symm
    omega

end BankSim
