import BankSim.Theory.Delivery
import BankSim.Theory.OrderingAtomicity

/-!
# Ordering and Delivery

Whole workflows, interleaved in any way, should end in the same ledger. They
do when the payments become ready in the order in which their completions
arrived, and otherwise the processor raises on the way.

`Tracks` says where a processor stands after a part of a delivery: what has
arrived is applied or buffered, and what is applied or buffered has arrived.
While an event is being applied it is neither, and the invariant names it as
the one in hand. With nothing left to drain it follows that a payment has
completed exactly when all its events are there, and that the ledger holds
the settlements of these payments. So whether the next settlement is accepted
can be read off the delivery, and over the whole delivery it comes down to
the order of the completions.

## Main definitions

* `Tracks`: Where a processor stands after a part of a delivery.
* `SettlesEveryPayment`: The outcome every delivery should have.

## Theorems

* `tracks_received`: A delivery keeps the processor on track.
* `accepted_iff`: When the ledger accepts what a delivery sets off.
* `receiveAll_cases`: How a run over a delivery ends.
* `delivery_settles_iff`: When a delivery settles every payment.
* `delivery_settles_mixed`: One that does.
* `crossedDelivery_raises`: One that does not.
-/

namespace BankSim

open Exec

/-- Where a processor stands after the events in `seen`, of which one may be
    in hand: about to be applied and not in the buffer. -/
structure Tracks (seen : List PaymentEvent) (inHand : Option PaymentEvent) (v : OrderingView) :
    Prop where
  settled : ∃ settled, OrderingView.Consistent orderingLedger settled v ∧
    ∀ c ∈ settled, c ∈ seen ∧ c.eventType = .completed
  wellFormed : v.ledger.WellFormed
  buffered : ∀ paymentId position later, v.buffers paymentId position = some later →
    later ∈ seen ∧ v.last paymentId < position
  kept : ∀ event ∈ seen, inHand ≠ some event →
    event.sequence.value ≤ v.last event.paymentId ∨
      v.buffers event.paymentId event.sequence.value = some event
  reached : ∀ paymentId position, 1 ≤ position → position ≤ v.last paymentId →
    ∃ event ∈ seen, event.paymentId = paymentId ∧ event.sequence.value = position
  processed : ∀ eventId ∈ v.processed, ∃ event ∈ seen, event.eventId = eventId
  amounts : ∀ paymentId amount, (v.states paymentId).amount = some amount →
    ∃ event ∈ seen, event.paymentId = paymentId ∧ event.amount = amount

namespace Tracks

variable {seen : List PaymentEvent} {event : PaymentEvent} {owner : String} {v w : OrderingView}

theorem keyed {inHand : Option PaymentEvent} (h : Tracks seen inHand v) : v.Keyed := by
  rcases h.settled with ⟨settled, hconsistent, -⟩
  exact hconsistent.keyed

/-- What was seen and is not reached yet is in the buffer. -/
theorem buffered_of_lt (h : Tracks seen none v) (hevent : event ∈ seen)
    (hlt : v.last event.paymentId < event.sequence.value) :
    v.buffers event.paymentId event.sequence.value = some event := by
  rcases h.kept event hevent (by simp) with hle | hbuffer
  · omega
  · exact hbuffer

/-- An event with the amount of its payment is not in conflict. -/
theorem not_conflicts {inHand : Option PaymentEvent} (h : Tracks seen inHand v)
    (hamounts : ∀ f ∈ seen, f.paymentId = owner → f.amount = event.amount) :
    ¬ v.Conflicts event owner := by
  rw [OrderingView.conflicts_iff]
  rintro ⟨amount, hamount, hne⟩
  rcases h.amounts owner amount hamount with ⟨f, hf, hpayment, hamount'⟩
  exact hne (hamount' ▸ hamounts f hf hpayment)

/-- Applying an event without a conflict moves its payment and nothing
    else. -/
theorem states_applied (happlied : v.Applied event owner w)
    (hagree : ¬ v.Conflicts event owner) :
    w.states = (v.advanced event owner).states ∧ w.buffers = v.buffers ∧
      w.processed = insert event.eventId v.processed := by
  cases happlied with
  | conflict h => exact absurd h hagree
  | advanced => exact ⟨rfl, rfl, rfl⟩
  | settled => exact ⟨rfl, rfl, rfl⟩

/-- The event in hand is applied. -/
theorem applied (h : Tracks seen (some event) v) (hevent : event ∈ seen)
    (hamounts : ∀ a ∈ seen, ∀ b ∈ seen, a.paymentId = b.paymentId → a.amount = b.amount)
    (howner : event.paymentId = owner) (hnext : event.sequence.value = v.last owner + 1)
    (hfree : v.buffers owner event.sequence.value = none) (happlied : v.Applied event owner w) :
    Tracks seen none w := by
  have hagree : ¬ v.Conflicts event owner := h.not_conflicts fun f hf hpayment =>
    hamounts f hf event hevent (hpayment.trans howner.symm)
  rcases states_applied happlied hagree with ⟨hstates, hbuffers, hprocessed⟩
  have hlast : ∀ paymentId, w.last paymentId =
      if paymentId = owner then event.sequence.value else v.last paymentId := by
    intro paymentId
    rw [← OrderingView.last_advanced, OrderingView.last, OrderingView.last, hstates]
  refine ⟨?_, ?_, ?_, ?_, ?_, ?_, ?_⟩
  · -- a completion joins the settled ones, and it was seen
    rcases h.settled with ⟨settled, hconsistent, hmem⟩
    rcases OrderingView.consistent_applied hconsistent hnext howner happlied with
      hsame | ⟨hdone, hmore⟩
    · exact ⟨settled, hsame, hmem⟩
    · refine ⟨settled ++ [event], hmore, fun c hc => ?_⟩
      rcases List.mem_append.mp hc with hc | hc
      · exact hmem c hc
      · rw [List.mem_singleton.mp hc]
        exact ⟨hevent, hdone⟩
  · -- the ledger gets at most one entry, which it accepts
    cases happlied with
    | conflict => exact h.wellFormed
    | advanced => exact h.wellFormed
    | settled hagree hdone entry hsettles haccept =>
        exact Ledger.wellFormed_push v.ledger entry h.wellFormed haccept
  · -- what is buffered is ahead of the new position, whose place is free
    intro paymentId position later hlater
    rw [hbuffers] at hlater
    rcases h.buffered paymentId position later hlater with ⟨hseen, hlt⟩
    refine ⟨hseen, ?_⟩
    rw [hlast]
    split_ifs with hsame
    · have hne : position ≠ event.sequence.value := by
        intro heq
        rw [hsame, heq, hfree] at hlater
        cases hlater
      rw [hsame] at hlt
      omega
    · exact hlt
  · -- the event itself is reached now, and nothing else moved back
    intro f hf _
    rw [hlast, hbuffers]
    by_cases hsame : f = event
    · rw [hsame, if_pos howner]
      exact Or.inl le_rfl
    · rcases h.kept f hf (fun heq => hsame (Option.some.inj heq).symm) with hle | hbuffer
      · left
        split_ifs with howner'
        · rw [howner'] at hle
          omega
        · exact hle
      · exact Or.inr hbuffer
  · -- the payment has moved by one position, which is the event's own
    intro paymentId position hpos hle
    rw [hlast] at hle
    split_ifs at hle with hsame
    · by_cases hposition : position = event.sequence.value
      · exact ⟨event, hevent, howner.trans hsame.symm, hposition.symm⟩
      · rw [hsame]
        exact h.reached owner position hpos (by omega)
    · exact h.reached paymentId position hpos hle
  · intro eventId hid
    rw [hprocessed, Finset.mem_insert] at hid
    rcases hid with hsame | hid
    · exact ⟨event, hevent, hsame.symm⟩
    · exact h.processed eventId hid
  · intro paymentId amount hamount
    rw [hstates] at hamount
    simp only [OrderingView.advanced, Function.update_apply] at hamount
    split_ifs at hamount with hsame
    · exact ⟨event, hevent, howner.trans hsame.symm, Option.some.inj hamount⟩
    · exact h.amounts paymentId amount hamount

/-- The next event of a payment is taken in hand. -/
theorem popped (h : Tracks seen none v)
    (hevent : v.buffers owner (v.last owner + 1) = some event) :
    Tracks seen (some event) (v.buffering owner (v.last owner + 1) none) := by
  refine { h with settled := ?_, buffered := ?_, kept := ?_ }
  · rcases h.settled with ⟨settled, hconsistent, hmem⟩
    exact ⟨settled, hconsistent.buffering _ _ none (fun _ h => by cases h), hmem⟩
  · intro paymentId position later hlater
    rw [OrderingView.buffers_buffering] at hlater
    split_ifs at hlater
    exact h.buffered paymentId position later hlater
  · intro f hf hne
    rw [OrderingView.buffers_buffering]
    rcases h.kept f hf (by simp) with hle | hbuffer
    · exact Or.inl hle
    · -- another event is not in the place that is emptied
      rw [if_neg]
      · exact Or.inr hbuffer
      · rintro ⟨howner, hposition⟩
        rw [howner, hposition, hevent] at hbuffer
        exact hne hbuffer

/-- Draining keeps the processor on track: each step takes an event in hand
    and applies it. -/
theorem drained (h : Tracks seen none v)
    (hamounts : ∀ a ∈ seen, ∀ b ∈ seen, a.paymentId = b.paymentId → a.amount = b.amount)
    (hsteps : Relation.ReflTransGen (fun x y => x.DrainStep owner y) v w) :
    Tracks seen none w := by
  induction hsteps with
  | refl => exact h
  | @tail x y _ hstep ih =>
      rcases hstep with ⟨event, hevent, happlied⟩
      rcases ih.keyed owner _ event hevent with ⟨howner, hposition⟩
      have hseen := (ih.buffered owner _ event hevent).1
      refine (ih.popped hevent).applied hseen hamounts howner hposition ?_ happlied
      rw [OrderingView.buffers_buffering, if_pos ⟨rfl, hposition⟩]

/-- The position of an event that was not seen yet is ahead and free, and its
    identifier is new. -/
theorem ahead {before later : List PaymentEvent} (h : Tracks before none v)
    (hfull : FullDelivery (before ++ event :: later)) :
    event.eventId ∉ v.processed ∧ v.last event.paymentId < event.sequence.value ∧
      v.buffers event.paymentId event.sequence.value = none := by
  have hevent : event ∈ before ++ event :: later := List.mem_append_right _ List.mem_cons_self
  have hnew : event ∉ before := by
    rw [← hfull.arrival_lt_iff hevent]
    omega
  -- an event seen before that has its identifier or its position is the event itself
  refine ⟨fun hid => ?_, ?_, ?_⟩
  · rcases h.processed _ hid with ⟨f, hf, hsame⟩
    have heq := List.inj_on_of_nodup_map hfull.ids_nodup (List.mem_append_left _ hf) hevent hsame
    exact hnew (heq ▸ hf)
  · by_contra hle
    have hpos := event.sequence.value_pos
    rcases h.reached event.paymentId event.sequence.value (by omega) (by omega) with
      ⟨f, hf, hpayment, hposition⟩
    have heq := hfull.eq_of_position (List.mem_append_left _ hf) hevent hpayment hposition
    exact hnew (heq ▸ hf)
  · cases hbuffer : v.buffers event.paymentId event.sequence.value with
    | none => rfl
    | some f =>
        have hf := (h.buffered _ _ f hbuffer).1
        rcases h.keyed _ _ f hbuffer with ⟨hpayment, hposition⟩
        have heq := hfull.eq_of_position (List.mem_append_left _ hf) hevent hpayment hposition
        exact absurd (heq ▸ hf) hnew

/-- The next event arrives. -/
theorem arrived (h : Tracks seen none v) (event : PaymentEvent) :
    Tracks (seen ++ [event]) (some event) v := by
  have hmem : ∀ f ∈ seen, f ∈ seen ++ [event] := fun f hf => List.mem_append_left _ hf
  refine ⟨?_, h.wellFormed, ?_, ?_, ?_, ?_, ?_⟩
  · rcases h.settled with ⟨settled, hconsistent, hsettled⟩
    exact ⟨settled, hconsistent, fun c hc => ⟨hmem c (hsettled c hc).1, (hsettled c hc).2⟩⟩
  · intro paymentId position later hlater
    rcases h.buffered paymentId position later hlater with ⟨hseen, hlt⟩
    exact ⟨hmem later hseen, hlt⟩
  · -- of the events seen, only the new one is neither applied nor buffered
    intro f hf hne
    rcases List.mem_append.mp hf with hf | hf
    · exact h.kept f hf (by simp)
    · exact absurd (congrArg some (List.mem_singleton.mp hf).symm) hne
  · intro paymentId position hpos hle
    rcases h.reached paymentId position hpos hle with ⟨f, hf, hplace⟩
    exact ⟨f, hmem f hf, hplace⟩
  · intro eventId hid
    rcases h.processed eventId hid with ⟨f, hf, hsame⟩
    exact ⟨f, hmem f hf, hsame⟩
  · intro paymentId amount hamount
    rcases h.amounts paymentId amount hamount with ⟨f, hf, hplace⟩
    exact ⟨f, hmem f hf, hplace⟩

/-- The event in hand goes into the buffer. -/
theorem held (h : Tracks seen (some event) v) (hevent : event ∈ seen)
    (hlater : v.last event.paymentId < event.sequence.value)
    (hfree : v.buffers event.paymentId event.sequence.value = none) :
    Tracks seen none (v.buffering event.paymentId event.sequence.value (some event)) := by
  refine { h with settled := ?_, buffered := ?_, kept := ?_ }
  · rcases h.settled with ⟨settled, hconsistent, hmem⟩
    refine ⟨settled, hconsistent.buffering _ _ _ fun f hf => ?_, hmem⟩
    rw [← Option.some.inj hf]
    exact ⟨rfl, rfl⟩
  · intro paymentId position f hf
    rw [OrderingView.buffers_buffering] at hf
    split_ifs at hf with hplace
    · rw [← Option.some.inj hf, hplace.1, hplace.2]
      exact ⟨hevent, hlater⟩
    · exact h.buffered paymentId position f hf
  · intro f hf _
    rw [OrderingView.buffers_buffering]
    by_cases hsame : f = event
    · rw [hsame, if_pos ⟨rfl, rfl⟩]
      exact Or.inr rfl
    · rcases h.kept f hf (fun heq => hsame (Option.some.inj heq).symm) with hle | hbuffer
      · exact Or.inl hle
      · -- another event keeps its place, since this one was free
        rw [if_neg]
        · exact Or.inr hbuffer
        · rintro ⟨hpayment, hposition⟩
          rw [hpayment, hposition, hfree] at hbuffer
          cases hbuffer

end Tracks

section Delivery

variable {before later : List PaymentEvent} {event : PaymentEvent} {v w : OrderingView}

/-- A delivery that returns keeps the processor on track. -/
theorem tracks_received (hfull : FullDelivery (before ++ event :: later))
    (h : Tracks before none v) (hreceived : v.Received event w) :
    Tracks (before ++ [event]) none w := by
  rcases h.ahead hfull with ⟨hfresh, hahead, hfree⟩
  have hevent : event ∈ before ++ [event] := List.mem_append_right _ (List.mem_singleton_self _)
  have hamounts : ∀ a ∈ before ++ [event], ∀ b ∈ before ++ [event],
      a.paymentId = b.paymentId → a.amount = b.amount := by
    rw [List.append_cons] at hfull
    exact fun a ha b hb =>
      hfull.amounts a (List.mem_append_left _ ha) b (List.mem_append_left _ hb)
  cases hreceived with
  | ignored hold =>
      -- An event of a full delivery is new, ahead of its payment, and its place is free.
      rcases hold with hold | hold | hold
      · exact absurd hold hfresh
      · omega
      · exact absurd hfree hold
  | held hlater hfree' => exact (h.arrived event).held hevent hahead hfree
  | applied hfresh' hnext u w hfirst hrest hend =>
      exact ((h.arrived event).applied hevent hamounts rfl hnext hfree hfirst).drained hamounts
        hrest

end Delivery

/-- A payment has completed exactly when all its events are there. -/
theorem Tracks.last_eq_four_iff {seen : List PaymentEvent} {v : OrderingView}
    (h : Tracks seen none v) {paymentId : String} (hend : v.Exhausted paymentId) :
    v.last paymentId = 4 ↔ Ready seen paymentId := by
  rw [ready_iff]
  rcases h.settled with ⟨settled, hconsistent, -⟩
  have hcoherent := hconsistent.coherent paymentId
  have hle : v.last paymentId ≤ 4 := hcoherent.le_four
  have hpos : 0 ≤ v.last paymentId := hcoherent.nonneg
  constructor
  · intro hlast position hposition hposition'
    exact h.reached paymentId position hposition (by omega)
  · intro hready
    by_contra hne
    -- the next event was seen, so it would be waiting in the buffer
    rcases hready (v.last paymentId + 1) (by omega) (by omega) with ⟨f, hf, hpayment, hposition⟩
    have hbuffer := h.buffered_of_lt hf (by rw [hpayment]; omega)
    rw [hpayment, hposition, hend] at hbuffer
    cases hbuffer

/-- The completions settled so far are those of the payments that are
    ready. -/
theorem Tracks.mem_settled_iff {seen events settled : List PaymentEvent} {v : OrderingView}
    (h : Tracks seen none v) (hend : ∀ paymentId, v.Exhausted paymentId)
    (hfull : FullDelivery events) (hseen : ∀ event ∈ seen, event ∈ events)
    (hconsistent : OrderingView.Consistent orderingLedger settled v)
    (hsettled : ∀ c ∈ settled, c ∈ seen ∧ c.eventType = .completed) (d : PaymentEvent) :
    d ∈ settled ↔ d ∈ seen ∧ d.eventType = .completed ∧ Ready seen d.paymentId := by
  constructor
  · intro hd
    refine ⟨(hsettled d hd).1, (hsettled d hd).2, ?_⟩
    rw [← h.last_eq_four_iff (hend d.paymentId), ← hconsistent.settled_iff]
    exact List.mem_map_of_mem hd
  · rintro ⟨hd, hdone, hready⟩
    rw [← h.last_eq_four_iff (hend d.paymentId), ← hconsistent.settled_iff] at hready
    rcases List.mem_map.mp hready with ⟨c, hc, hpayment⟩
    rcases hsettled c hc with ⟨hc', hdone'⟩
    have heq := hfull.eq_of_completed (hseen c hc') (hseen d hd) hpayment hdone' hdone
    exact heq ▸ hc

/-- In lists that match item by item, every item has a partner. -/
theorem exists_of_forall₂ {α β : Type} {R : α → β → Prop} {as : List α} {bs : List β}
    (h : List.Forall₂ R as bs) {a : α} (ha : a ∈ as) : ∃ b ∈ bs, R a b := by
  induction h with
  | nil => exact absurd ha List.not_mem_nil
  | @cons first partner as bs hfirst _ ih =>
      rcases List.mem_cons.mp ha with hsame | ha
      · exact ⟨partner, List.mem_cons_self, hsame ▸ hfirst⟩
      · rcases ih ha with ⟨b, hb, hrelated⟩
        exact ⟨b, List.mem_cons_of_mem _ hb, hrelated⟩

section Settlements

variable {settled : List PaymentEvent} {entries : List LedgerEntry}

theorem exists_settlement (h : List.Forall₂ PaymentEvent.Settles settled entries)
    (c : PaymentEvent) (hc : c ∈ settled) : ∃ entry ∈ entries, c.Settles entry :=
  exists_of_forall₂ h hc

theorem exists_settled (h : List.Forall₂ PaymentEvent.Settles settled entries)
    (entry : LedgerEntry) (hentry : entry ∈ entries) : ∃ c ∈ settled, c.Settles entry :=
  exists_of_forall₂ (List.Forall₂.flip h) hentry

end Settlements

theorem orderingLedger_eq : orderingLedger = Ledger.new.push openingEntry := by
  decide

theorem orderingLedger_wellFormed : orderingLedger.WellFormed := by
  rw [orderingLedger_eq]
  exact Ledger.wellFormed_push _ _ Ledger.wellFormed_new (by decide)

/-- No settlement has the identifier of the opening balance. -/
theorem open_ne_settlement (paymentId : String) : "OPEN" ≠ paymentId ++ "-SETTLEMENT" := by
  intro heq
  have hlength := congrArg String.length heq
  have hsuffix : "-SETTLEMENT".length = 11 := by decide
  have hopen : "OPEN".length = 4 := by decide
  rw [String.length_append, hsuffix, hopen] at hlength
  omega

/-- The last posting time is the greatest one. -/
theorem Ledger.WellFormed.lastPostedAt_le_iff {ledger : Ledger} (hwf : ledger.WellFormed)
    {time : Int} (htime : 0 ≤ time) :
    ledger.lastPostedAt ≤ time ↔ ∀ entry ∈ ledger.entries, entry.postedAt ≤ time := by
  constructor
  · intro hle entry hentry
    exact (hwf.le_lastPostedAt entry hentry).trans hle
  · intro hall
    unfold Ledger.lastPostedAt
    cases hlast : ledger.entries.getLast? with
    | none => exact htime
    | some last => exact hall last (List.mem_of_getLast? hlast)

/-- A payment that has not completed has no settlement. -/
theorem OrderingView.Consistent.settlement_fresh {settled : List PaymentEvent} {v : OrderingView}
    (h : OrderingView.Consistent orderingLedger settled v) (hwf : v.ledger.WellFormed)
    {paymentId : String} (hopen : v.last paymentId ≠ 4) :
    paymentId ++ "-SETTLEMENT" ∉ v.ledger.entryIds := by
  rcases h.appended with ⟨entries, hentries, hforall⟩
  rw [orderingLedger_eq] at hentries
  rw [hwf.ids_eq, List.mem_toFinset, hentries]
  intro hid
  rcases List.mem_map.mp hid with ⟨entry, hentry, hsame⟩
  rcases List.mem_append.mp hentry with hentry | hentry
  · rw [List.mem_singleton.mp hentry] at hsame
    exact open_ne_settlement paymentId hsame
  · -- An entry with this identifier would be the settlement of the payment.
    rcases exists_settled hforall entry hentry with ⟨d, hd, hsettles⟩
    rw [hsettles.entryId, String.append_left_inj] at hsame
    rw [← hsame] at hopen
    exact hopen ((h.settled_iff d.paymentId).mp (List.mem_map_of_mem hd))

/-- The ledger accepts the settlement of a payment that has not completed when
    no payment that is ready has a completion that arrived later. -/
theorem Tracks.settleable_iff {seen events : List PaymentEvent} {v : OrderingView}
    (h : Tracks seen none v) (hend : ∀ paymentId, v.Exhausted paymentId)
    (hfull : FullDelivery events) (hseen : ∀ event ∈ seen, event ∈ events) {c : PaymentEvent}
    (hopen : v.last c.paymentId ≠ 4) :
    c.Settleable v.ledger ↔ ∀ d ∈ seen, d.eventType = .completed → Ready seen d.paymentId →
      d.arrivalOrder ≤ c.arrivalOrder := by
  rcases h.settled with ⟨settled, hconsistent, hsettled⟩
  have hmem := h.mem_settled_iff hend hfull hseen hconsistent hsettled
  rcases hconsistent.appended with ⟨entries, hentries, hforall⟩
  rw [orderingLedger_eq] at hentries
  have harrival := c.arrivalOrder_pos
  have hfresh := hconsistent.settlement_fresh h.wellFormed hopen
  -- Only the posting times are left, and settlements are posted at the arrivals.
  rw [PaymentEvent.Settleable, and_iff_right hfresh,
    h.wellFormed.lastPostedAt_le_iff (le_of_lt harrival), hentries]
  constructor
  · intro hall d hd hdone hready
    rcases exists_settlement hforall d ((hmem d).mpr ⟨hd, hdone, hready⟩) with
      ⟨entry, hentry, hsettles⟩
    rw [← hsettles.postedAt]
    exact hall entry (List.mem_append_right _ hentry)
  · intro hall entry hentry
    rcases List.mem_append.mp hentry with hentry | hentry
    · rw [List.mem_singleton.mp hentry]
      exact le_of_lt harrival
    · rcases exists_settled hforall entry hentry with ⟨d, hd, hsettles⟩
      rcases (hmem d).mp hd with ⟨hd', hdone, hready⟩
      rw [hsettles.postedAt]
      exact hall d hd' hdone hready

section Accepted

variable {before later : List PaymentEvent} {event c : PaymentEvent} {v : OrderingView}

/-- The event that makes its payment ready is the next one of its payment. -/
theorem Tracks.next_of_ready (h : Tracks before none v)
    (hfull : FullDelivery (before ++ event :: later)) (hend : v.Exhausted event.paymentId)
    (hready : Ready (before ++ [event]) event.paymentId) :
    event.sequence.value = v.last event.paymentId + 1 := by
  rcases h.ahead hfull with ⟨-, hahead, -⟩
  have hle := event.sequence_le
  rcases h.settled with ⟨settled, hconsistent, -⟩
  have hpos : 0 ≤ v.last event.paymentId := (hconsistent.coherent event.paymentId).nonneg
  by_contra hne
  -- The event at the next position has been seen too, and nothing held it back.
  rcases (ready_iff _ _).mp hready (v.last event.paymentId + 1) (by omega) (by omega) with
    ⟨f, hf, hpayment, hposition⟩
  rcases List.mem_append.mp hf with hf | hf
  · have hbuffer := h.buffered_of_lt hf (by rw [hpayment]; omega)
    rw [hpayment, hposition, hend] at hbuffer
    cases hbuffer
  · rw [List.mem_singleton.mp hf] at hposition
    exact hne hposition

/-- Once a payment is ready, its next event leads to its completion. -/
theorem Tracks.completes_of_ready (h : Tracks before none v)
    (hfull : FullDelivery (before ++ event :: later))
    (hnext : event.sequence.value = v.last event.paymentId + 1)
    (hready : Ready (before ++ [event]) event.paymentId) (hc : c ∈ before ++ [event])
    (hpayment : c.paymentId = event.paymentId) (hdone : c.eventType = .completed) :
    v.Completes event event.paymentId c := by
  have hevent : event ∈ before ++ event :: later := List.mem_append_right _ List.mem_cons_self
  have hmem : ∀ f ∈ before, f ∈ before ++ event :: later := fun f hf => List.mem_append_left _ hf
  -- what comes after the event in its workflow is in the buffer
  have hbuffer : ∀ f ∈ before ++ [event], f.paymentId = event.paymentId →
      event.sequence.value < f.sequence.value →
      f ∈ before ∧ v.buffers event.paymentId f.sequence.value = some f := by
    intro f hf hpayment' hlt
    rcases List.mem_append.mp hf with hf | hf
    · refine ⟨hf, ?_⟩
      rw [← hpayment']
      exact h.buffered_of_lt hf (by rw [hpayment']; omega)
    · rw [List.mem_singleton.mp hf] at hlt
      omega
  refine ⟨?_, fun position hlt hle => ?_, ?_⟩
  · exact h.not_conflicts fun f hf hpayment' =>
      hfull.amounts f (hmem f hf) event hevent hpayment'
  · have hpos := event.sequence.value_pos
    rcases (ready_iff _ _).mp hready position (by omega) hle with ⟨f, hf, hpayment', hposition⟩
    rcases hbuffer f hf hpayment' (by omega) with ⟨hf', hf''⟩
    exact ⟨f, hposition ▸ hf'', hfull.amounts f (hmem f hf') event hevent hpayment'⟩
  · have hfour := c.completed_iff.mp hdone
    split_ifs with hlast
    · have hc' : c ∈ before ++ event :: later := by
        rw [List.append_cons]
        exact List.mem_append_left _ hc
      exact hfull.eq_of_position hc' hevent hpayment (hfour.trans hlast.symm)
    · have hle := event.sequence_le
      have hc' := (hbuffer c hc hpayment (by omega)).2
      rwa [hfour] at hc'

/-- The completion an event leads to is there, and its payment is ready. -/
theorem Tracks.ready_of_completes (h : Tracks before none v)
    (hnext : event.sequence.value = v.last event.paymentId + 1)
    (hcompletes : v.Completes event event.paymentId c) :
    Ready (before ++ [event]) event.paymentId ∧ c ∈ before ++ [event] ∧
      c.paymentId = event.paymentId ∧ c.eventType = .completed := by
  rcases hcompletes with ⟨-, hchain, hend⟩
  have hevent : event ∈ before ++ [event] := List.mem_append_right _ (List.mem_singleton_self _)
  have hmem : ∀ f ∈ before, f ∈ before ++ [event] := fun f hf => List.mem_append_left _ hf
  constructor
  · rw [ready_iff]
    intro position hpos hle
    -- Earlier positions were reached, and later ones are buffered.
    rcases lt_trichotomy position event.sequence.value with hlt | heq | hgt
    · rcases h.reached event.paymentId position hpos (by omega) with ⟨f, hf, hplace⟩
      exact ⟨f, hmem f hf, hplace⟩
    · exact ⟨event, hevent, rfl, heq.symm⟩
    · rcases hchain position hgt hle with ⟨f, hf, -⟩
      exact ⟨f, hmem f (h.buffered _ _ f hf).1, h.keyed _ _ f hf⟩
  · rw [PaymentEvent.completed_iff]
    split_ifs at hend with hlast
    · rw [hend]
      exact ⟨hevent, rfl, hlast⟩
    · exact ⟨hmem c (h.buffered _ _ c hend).1, h.keyed _ _ c hend⟩

/-- The ledger accepts what a delivery sets off exactly when it completes its
    payment in turn. -/
theorem Tracks.accepted_iff (h : Tracks before none v)
    (hend : ∀ paymentId, v.Exhausted paymentId)
    (hfull : FullDelivery (before ++ event :: later)) :
    v.Accepted event ↔ CompletionsInTurn before event := by
  rcases h.ahead hfull with ⟨hfresh, hahead, -⟩
  have hle := event.sequence_le
  -- The payment of the event is not at its end, so its settlement is new.
  have hsettleable : ∀ c : PaymentEvent, c.paymentId = event.paymentId →
      (c.Settleable v.ledger ↔ ∀ d ∈ before, d.eventType = .completed →
        Ready before d.paymentId → d.arrivalOrder ≤ c.arrivalOrder) := by
    intro c hpayment
    refine h.settleable_iff hend hfull (fun f hf => List.mem_append_left _ hf) ?_
    rw [hpayment]
    omega
  constructor
  · intro haccepted hready c hc hpayment hdone
    have hnext := h.next_of_ready hfull (hend _) hready
    exact (hsettleable c hpayment).mp
      (haccepted hfresh hnext c (h.completes_of_ready hfull hnext hready hc hpayment hdone))
  · intro hturn _ hnext c hcompletes
    rcases h.ready_of_completes hnext hcompletes with ⟨hready, hc, hpayment, hdone⟩
    exact (hsettleable c hpayment).mpr (hturn hready c hc hpayment hdone)

end Accepted

/-- A run over what is left of a delivery. It returns, on track, exactly when
    every delivery completes its payment in turn. -/
theorem receiveAll_cases (before later : List PaymentEvent) (s : OrderedEventProcessor)
    (hfull : FullDelivery (before ++ later)) (h : Tracks before none s.view)
    (hsteady : s.view.Steady orderingLedger) :
    ((∀ front event back, later = front ++ event :: back →
          CompletionsInTurn (before ++ front) event) ∧
        ∃ t, (OrderedEventProcessor.receiveAll later).run s = .ok () t ∧
          Tracks (before ++ later) none t.view ∧ t.view.Steady orderingLedger) ∨
      (¬ (∀ front event back, later = front ++ event :: back →
          CompletionsInTurn (before ++ front) event) ∧
        ∃ e t, (OrderedEventProcessor.receiveAll later).run s = .error e t) := by
  induction later generalizing before s with
  | nil =>
      refine Or.inl ⟨fun front event back hsplit => ?_, s, rfl, ?_, hsteady⟩
      · exact absurd hsplit (by simp)
      · rwa [List.append_nil]
  | cons event later ih =>
      have haccepted := h.accepted_iff hsteady.2 hfull
      rw [OrderedEventProcessor.receiveAll]
      by_cases hturn : CompletionsInTurn before event
      · rcases receive_of_accepted hsteady (haccepted.mpr hturn) with
          ⟨results, t, hrun, hreceived, hsteady'⟩
        have htracks := tracks_received hfull h hreceived
        rw [run_bind_of_ok hrun, forall_splits_cons_iff CompletionsInTurn, and_iff_right hturn]
        have hcons : before ++ event :: later = before ++ [event] ++ later :=
          List.append_cons before event later
        rw [hcons] at hfull ⊢
        exact ih (before ++ [event]) t hfull htracks hsteady'
      · rcases receive_of_refused hsteady ((not_congr haccepted).mpr hturn) with ⟨e, t, hrun, -⟩
        rw [forall_splits_cons_iff CompletionsInTurn]
        exact Or.inr ⟨fun hall => hturn hall.1, e, t, run_bind_of_error hrun⟩

/-- A new processor is on track. -/
theorem tracks_new : Tracks [] none (OrderedEventProcessor.new orderingLedger).view where
  settled := ⟨[], OrderingView.consistent_new orderingLedger,
    fun c hc => absurd hc List.not_mem_nil⟩
  wellFormed := orderingLedger_wellFormed
  buffered := fun _ _ _ h => by cases h
  kept := fun event hevent => absurd hevent List.not_mem_nil
  reached := fun paymentId position hpos hle => by
    change position ≤ 0 at hle
    omega
  processed := fun eventId h => absurd h (Finset.notMem_empty eventId)
  amounts := fun _ _ h => by cases h

/-- What identifies a settlement: its identifier, account, amount and
    direction. -/
def LedgerEntry.settlementTerms (entry : LedgerEntry) : String × String × Money × EntryType :=
  (entry.entryId, entry.accountId, entry.amount, entry.entryType)

def PaymentEvent.settlementTerms (event : PaymentEvent) : String × String × Money × EntryType :=
  (event.paymentId ++ "-SETTLEMENT", "HCCU-DEMO-001", event.amount, .debit)

/-- The completions of a delivery, one for each payment. -/
def completions (events : List PaymentEvent) : List PaymentEvent :=
  events.filter fun event => event.eventType = .completed

theorem mem_completions (events : List PaymentEvent) (event : PaymentEvent) :
    event ∈ completions events ↔ event ∈ events ∧ event.eventType = .completed := by
  simp only [completions, List.mem_filter, decide_eq_true_eq]

/-- Every delivery returns, every payment has completed, the ledger has one
    settlement for each of them after the opening balance and nothing else,
    and the balance is what the amounts of the payments leave. -/
def SettlesEveryPayment (events : List PaymentEvent) : Prop :=
  ∃ processor, processEvents events = .ok processor ∧
    (∀ event ∈ events, processor.paymentState event.paymentId = "PaymentCompleted") ∧
    (∃ settlements, processor.ledger.entries = openingEntry :: settlements ∧
      (settlements.map (·.settlementTerms)).Perm
        ((completions events).map (·.settlementTerms))) ∧
    replay processor.ledger.entries
      = .ok (100_000 - ((completions events).map (·.amount.cents)).sum)

theorem map_settlementTerms {settled : List PaymentEvent} {entries : List LedgerEntry}
    (h : List.Forall₂ PaymentEvent.Settles settled entries) :
    entries.map (·.settlementTerms) = settled.map (·.settlementTerms) := by
  induction h with
  | nil => rfl
  | cons hsettles _ ih =>
      rw [List.map_cons, List.map_cons, ih, LedgerEntry.settlementTerms, hsettles.entryId,
        hsettles.accountId, hsettles.amount, hsettles.entryType, PaymentEvent.settlementTerms]

/-- Settlements take the amounts of their payments from the balance. -/
theorem totalCents_settlements {settled : List PaymentEvent} {entries : List LedgerEntry}
    (h : List.Forall₂ PaymentEvent.Settles settled entries) :
    totalCents entries = -(settled.map (·.amount.cents)).sum := by
  induction h with
  | nil => rfl
  | @cons event entry settled entries hsettles _ ih =>
      have hsigned : entry.signedCents = -event.amount.cents := by
        rw [LedgerEntry.signedCents, hsettles.entryType, hsettles.amount,
          if_neg EntryType.debit_ne_credit]
        omega
      unfold totalCents at ih ⊢
      rw [List.map_cons, List.sum_cons, ih, hsigned, List.map_cons, List.sum_cons]
      omega

/-- A processor that is on track after a whole delivery has settled every
    payment. -/
theorem Tracks.outcome {events : List PaymentEvent} {processor : OrderedEventProcessor}
    (hfull : FullDelivery events) (h : Tracks events none processor.view)
    (hend : ∀ paymentId, processor.view.Exhausted paymentId) :
    (∀ event ∈ events, processor.paymentState event.paymentId = "PaymentCompleted") ∧
    (∃ settlements, processor.ledger.entries = openingEntry :: settlements ∧
      (settlements.map (·.settlementTerms)).Perm
        ((completions events).map (·.settlementTerms))) ∧
    replay processor.ledger.entries
      = .ok (100_000 - ((completions events).map (·.amount.cents)).sum) := by
  rcases h.settled with ⟨settled, hconsistent, hsettled⟩
  have hmem := h.mem_settled_iff hend hfull (fun _ hevent => hevent) hconsistent hsettled
  have hnodup : settled.Nodup := List.Nodup.of_map _ hconsistent.settled_nodup
  have hnodup' : (completions events).Nodup := (List.Nodup.of_map _ hfull.ids_nodup).filter _
  -- Every payment is ready by now, so all the completions have been settled.
  have hperm : settled.Perm (completions events) := by
    refine (List.perm_ext_iff_of_nodup hnodup hnodup').mpr fun d => ?_
    rw [hmem, mem_completions]
    exact ⟨fun ⟨hd, hdone, _⟩ => ⟨hd, hdone⟩, fun ⟨hd, hdone⟩ => ⟨hd, hdone, hfull.complete d hd⟩⟩
  rcases hconsistent.appended with ⟨entries, hentries, hforall⟩
  rw [orderingLedger_eq] at hentries
  change processor.ledger.entries = openingEntry :: entries at hentries
  refine ⟨fun event hevent => ?_, ⟨entries, hentries, ?_⟩, ?_⟩
  · rw [processor.paymentState_eq]
    refine (hconsistent.coherent event.paymentId).completed.mpr ?_
    exact (h.last_eq_four_iff (hend event.paymentId)).mpr (hfull.complete event hevent)
  · rw [map_settlementTerms hforall]
    exact hperm.map _
  · have hopening : openingEntry.signedCents = 100_000 := by decide
    have htotal := totalCents_settlements hforall
    rw [(hperm.map _).sum_eq] at htotal
    have hreplay := replay_eq_sum h.wellFormed
    change replay processor.ledger.entries = .ok (totalCents processor.ledger.entries) at hreplay
    rw [hreplay, hentries]
    unfold totalCents at htotal ⊢
    rw [List.map_cons, List.sum_cons, hopening, htotal, sub_eq_add_neg]

/-- A delivery of whole workflows settles every payment exactly when the
    payments are ready in the order in which their completions arrive. -/
theorem delivery_settles_iff (events : List PaymentEvent) (hfull : FullDelivery events) :
    SettlesEveryPayment events ↔ InCompletionOrder events := by
  have hstart := OrderingView.steady_new orderingLedger
  rw [← completionsInTurn_iff hfull]
  rcases receiveAll_cases [] events (OrderedEventProcessor.new orderingLedger) hfull tracks_new
      hstart with ⟨hall, processor, hrun, htracks, hsteady⟩ | ⟨hnot, e, t, hrun⟩
  · refine iff_of_true ⟨processor, ?_, htracks.outcome hfull hsteady.2⟩ hall
    rw [processEvents, hrun]
  · refine iff_of_false ?_ hnot
    rintro ⟨processor, hok, -⟩
    rw [processEvents, hrun] at hok
    cases hok

/-- Two payments whose completions arrive in the order in which the payments
    are ready. -/
def mixedDelivery : List PaymentEvent :=
  [ workflowEvent "PAY-A" .queued 1,
    workflowEvent "PAY-B" .received 2,
    workflowEvent "PAY-A" .received 3,
    workflowEvent "PAY-B" .validated 4,
    workflowEvent "PAY-B" .queued 5,
    workflowEvent "PAY-B" .completed 6,
    workflowEvent "PAY-A" .validated 7,
    workflowEvent "PAY-A" .completed 8 ]

theorem mixedDelivery_full : FullDelivery mixedDelivery :=
  ⟨by decide, by decide, by decide, by decide, by decide⟩

theorem delivery_settles_mixed :
    FullDelivery mixedDelivery ∧ SettlesEveryPayment mixedDelivery :=
  ⟨mixedDelivery_full, (delivery_settles_iff mixedDelivery mixedDelivery_full).mpr (by decide)⟩

/-- A delivery of the same events in another order raises. -/
theorem crossedDelivery_raises :
    FullDelivery crossedDelivery ∧
      processEvents crossedDelivery
        = .error (ledgerError "posting time cannot move backward") ∧
      ¬ SettlesEveryPayment crossedDelivery := by
  have hraises : processEvents crossedDelivery
      = .error (ledgerError "posting time cannot move backward") := by
    rfl
  refine ⟨⟨by decide, by decide, by decide, by decide, by decide⟩, hraises, ?_⟩
  rintro ⟨processor, hok, -⟩
  rw [hraises] at hok
  cases hok

end BankSim
