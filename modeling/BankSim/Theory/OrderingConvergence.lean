import BankSim.Theory.OrderingDelivery

/-!
# One Payment Converges

The events of a single payment, delivered in any order, with omissions,
duplicates and late redeliveries. A processor that sees nothing else never
raises: its payment settles at most once, and until then the ledger holds the
opening balance only, so there is nothing that could refuse the settlement.

Where it ends is a function of the positions that were delivered. Of all the
deliveries some count, one for each position: the first one that is not known
as processed, behind its payment, or at a taken place. With respect to these
the processor is on track in the sense of `Tracks`, and nothing else matters.
So the payment has reached the end of the unbroken row of positions that
begins with the first one, and it is settled exactly when that row has all
four.

## Main definitions

* `Alone`: A processor that has only seen events of one payment.
* `OnePayment`: Events of one payment and one amount.
* `Delivered`: A position was delivered.
* `reachedState`: The state of a payment that has reached a position.

## Theorems

* `alone_accepted`: The ledger accepts whatever a delivery sets off.
* `receiveAll_alone`: No delivery raises.
* `tracking_received`: A delivery keeps the processor on track.
* `ordering_converges`: Where the processor ends.
-/

namespace BankSim

open Exec

namespace OrderingView

variable {v w : OrderingView} {event : PaymentEvent} {owner : String}

theorem wellFormed_applied (h : v.ledger.WellFormed) (happlied : v.Applied event owner w) :
    w.ledger.WellFormed := by
  cases happlied with
  | conflict => exact h
  | advanced => exact h
  | settled hagree hdone entry hsettles haccept =>
      exact Ledger.wellFormed_push v.ledger entry h haccept

/-- What applying an event keeps, a drain keeps. -/
theorem drained_induction {I : OrderingView → Prop}
    (happly : ∀ v w event, I v → v.buffers owner (v.last owner + 1) = some event →
      (v.buffering owner (v.last owner + 1) none).Applied event owner w → I w)
    (hsteps : Relation.ReflTransGen (fun x y => x.DrainStep owner y) v w) (h : I v) : I w := by
  induction hsteps with
  | refl => exact h
  | tail _ hstep ih =>
      rcases hstep with ⟨event, hevent, happlied⟩
      exact happly _ _ event ih hevent happlied

theorem wellFormed_received (h : v.ledger.WellFormed) (hreceived : v.Received event w) :
    w.ledger.WellFormed := by
  cases hreceived with
  | ignored => exact h
  | held => exact h
  | applied hfresh hnext u w hfirst hrest hend =>
      refine drained_induction (I := fun v => v.ledger.WellFormed)
        (fun v w later hv _ happlied => ?_)
        hrest (wellFormed_applied h hfirst)
      exact wellFormed_applied (v := v.buffering event.paymentId _ none) hv happlied

/-- A delivery touches the payment of its event only. -/
theorem onlyChanges_received (hreceived : v.Received event w) :
    OnlyChanges event.paymentId v w := by
  cases hreceived with
  | ignored => exact fun _ _ => ⟨rfl, rfl⟩
  | held hlater hfree => exact fun paymentId hne => ⟨rfl, Function.update_of_ne hne _ _⟩
  | applied hfresh hnext u w hfirst hrest hend =>
      intro paymentId hne
      have happlied := onlyChanges_applied hfirst paymentId hne
      have hdrained := onlyChanges_drained hrest paymentId hne
      exact ⟨hdrained.1.trans happlied.1, hdrained.2.trans happlied.2⟩

end OrderingView

/-- A processor on the opening balance that has only seen events of one
    payment. -/
structure Alone (paymentId : String) (v : OrderingView) : Prop where
  steady : v.Steady orderingLedger
  wellFormed : v.ledger.WellFormed
  others : ∀ other, other ≠ paymentId → v.states other = .new

section Alone

variable {paymentId : String} {v w : OrderingView} {event : PaymentEvent}

theorem alone_new (paymentId : String) :
    Alone paymentId (OrderedEventProcessor.new orderingLedger).view :=
  ⟨OrderingView.steady_new orderingLedger, orderingLedger_wellFormed, fun _ _ => rfl⟩

theorem Alone.received (h : Alone paymentId v) (howner : event.paymentId = paymentId)
    (hreceived : v.Received event w) : Alone paymentId w := by
  refine ⟨OrderingView.steady_received h.steady hreceived,
    OrderingView.wellFormed_received h.wellFormed hreceived, fun other hne => ?_⟩
  have hchanges := OrderingView.onlyChanges_received hreceived other (howner.symm ▸ hne)
  rw [hchanges.1]
  exact h.others other hne

/-- Until the payment settles, the ledger holds the opening balance only, and
    so it accepts any settlement. -/
theorem alone_accepted (h : Alone paymentId v) (howner : event.paymentId = paymentId) :
    v.Accepted event := by
  rcases h.steady with ⟨⟨settled, hconsistent⟩, -⟩
  intro _ hnext c hcompletes
  have hle := event.sequence_le
  have hopen : v.last event.paymentId ≠ 4 := by omega
  -- The completion is one of the same payment.
  have hpayment : c.paymentId = event.paymentId := by
    have hend := hcompletes.2.2
    split_ifs at hend with hlast
    · rw [hend]
    · exact (hconsistent.keyed _ _ c hend).1
  have hnone : settled = [] := by
    rw [List.eq_nil_iff_forall_not_mem]
    intro d hd
    have hfour := (hconsistent.settled_iff d.paymentId).mp (List.mem_map_of_mem hd)
    by_cases hsame : d.paymentId = paymentId
    · rw [hsame, ← howner] at hfour
      exact hopen hfour
    · rw [OrderingView.last, h.others d.paymentId hsame] at hfour
      cases hfour
  rcases hconsistent.appended with ⟨entries, hentries, hforall⟩
  rw [hnone, List.forall₂_nil_left_iff] at hforall
  rw [hforall, List.append_nil, orderingLedger_eq] at hentries
  have harrival := c.arrivalOrder_pos
  refine ⟨hpayment ▸ hconsistent.settlement_fresh h.wellFormed hopen, ?_⟩
  rw [h.wellFormed.lastPostedAt_le_iff (le_of_lt harrival), hentries]
  intro entry hentry
  rw [List.mem_singleton.mp hentry]
  exact le_of_lt harrival

/-- Deliveries of a single payment never raise. What each of them keeps holds
    at the end. -/
theorem receiveAll_alone {I : List PaymentEvent → OrderingView → Prop}
    (hstep : ∀ seen v w event, event.paymentId = paymentId → Alone paymentId v → I seen v →
      v.Received event w → I (seen ++ [event]) w)
    (before later : List PaymentEvent) (hlater : ∀ event ∈ later, event.paymentId = paymentId)
    (s : OrderedEventProcessor) (h : Alone paymentId s.view) (hI : I before s.view) :
    ∃ t, (OrderedEventProcessor.receiveAll later).run s = .ok () t ∧ Alone paymentId t.view ∧
      I (before ++ later) t.view := by
  induction later generalizing before s with
  | nil => exact ⟨s, rfl, h, by rwa [List.append_nil]⟩
  | cons event later ih =>
      have howner := hlater event List.mem_cons_self
      rcases receive_of_accepted h.steady (alone_accepted h howner) with
        ⟨results, t, hrun, hreceived, -⟩
      rw [OrderedEventProcessor.receiveAll, run_bind_of_ok hrun, List.append_cons]
      exact ih (before ++ [event]) (fun f hf => hlater f (List.mem_cons_of_mem event hf)) t
        (h.received howner hreceived) (hstep before _ _ event howner h hI hreceived)

end Alone

/-- The state of a payment of a given amount that has reached a position. -/
def reachedState (amount : Money) (position : Int) : PaymentOrderingState :=
  match eventForSequence position with
  | some eventType => ⟨position, position, eventType.value, some amount⟩
  | none => .new

/-- An event of the amount takes its payment to the state of its position. -/
theorem reachedState_eq {amount : Money} {event : PaymentEvent} (h : event.amount = amount) :
    reachedState amount event.sequence.value =
      { lastSequence := event.sequence.value
        lastRevision := event.revision.value
        finalState := event.eventType.value
        amount := some event.amount } := by
  rw [reachedState, event.eventType_of_sequence, event.revision_eq_sequence, h]

/-- Events of one payment and one amount, in which an identifier belongs to
    one position. -/
structure OnePayment (paymentId : String) (amount : Money) (events : List PaymentEvent) :
    Prop where
  payment : ∀ event ∈ events, event.paymentId = paymentId
  amount : ∀ event ∈ events, event.amount = amount
  ids : ∀ a ∈ events, ∀ b ∈ events, a.eventId = b.eventId → a.sequence.value = b.sequence.value

/-- An event at a position was delivered. -/
def Delivered (events : List PaymentEvent) (position : Int) : Prop :=
  ∃ event ∈ events, event.sequence.value = position

/-- Some of the events seen, one for each position, keep the processor on
    track, and the payment is in the state of the position it has reached. -/
def Tracking (paymentId : String) (amount : Money) (seen : List PaymentEvent) (v : OrderingView) :
    Prop :=
  (∃ counted, Tracks counted none v ∧ (∀ event ∈ counted, event ∈ seen) ∧
      ∀ event ∈ seen, Delivered counted event.sequence.value) ∧
    v.states paymentId = reachedState amount (v.last paymentId)

section Convergence

variable {paymentId : String} {amount : Money} {seen counted : List PaymentEvent}
  {event : PaymentEvent} {v w : OrderingView}

/-- A position that is behind its payment or taken was delivered before, and
    so was one whose event is known. -/
theorem delivered_of_ignored (htracks : Tracks counted none v)
    (hone : OnePayment paymentId amount (counted ++ [event]))
    (h : event.eventId ∈ v.processed ∨ event.sequence.value ≤ v.last event.paymentId ∨
      v.buffers event.paymentId event.sequence.value ≠ none) :
    Delivered counted event.sequence.value := by
  have hevent : event ∈ counted ++ [event] := List.mem_append_right _ (List.mem_singleton_self _)
  rcases h with hknown | hbehind | htaken
  · rcases htracks.processed _ hknown with ⟨f, hf, hsame⟩
    exact ⟨f, hf, hone.ids f (List.mem_append_left _ hf) event hevent hsame⟩
  · have hpos := event.sequence.value_pos
    rcases htracks.reached event.paymentId event.sequence.value (by omega) hbehind with
      ⟨f, hf, -, hposition⟩
    exact ⟨f, hf, hposition⟩
  · rcases Option.ne_none_iff_exists'.mp htaken with ⟨f, hf⟩
    exact ⟨f, (htracks.buffered _ _ f hf).1, (htracks.keyed _ _ f hf).2⟩

/-- Applying an event of the amount takes the payment to its position. -/
theorem state_applied {inHand : Option PaymentEvent} (htracks : Tracks counted inHand v)
    (hamounts : ∀ f ∈ counted, f.amount = amount) (hevent : event ∈ counted)
    (happlied : v.Applied event paymentId w) :
    w.states paymentId = reachedState amount (w.last paymentId) := by
  have hamount := hamounts event hevent
  have hagree : ¬ v.Conflicts event paymentId :=
    htracks.not_conflicts fun f hf _ => (hamounts f hf).trans hamount.symm
  rcases Tracks.states_applied happlied hagree with ⟨hstates, -, -⟩
  have hstate : w.states paymentId = reachedState amount event.sequence.value := by
    rw [hstates, reachedState_eq hamount]
    exact Function.update_self _ _ _
  have hlast : w.last paymentId = event.sequence.value := by
    rw [OrderingView.last, hstates]
    exact (OrderingView.last_advanced paymentId).trans (if_pos rfl)
  rw [hlast, hstate]

/-- So does draining, one event after the other. -/
theorem state_drained (htracks : Tracks counted none v) (hone : OnePayment paymentId amount counted)
    (hstate : v.states paymentId = reachedState amount (v.last paymentId))
    (hsteps : Relation.ReflTransGen (fun x y => x.DrainStep paymentId y) v w) :
    Tracks counted none w ∧ w.states paymentId = reachedState amount (w.last paymentId) := by
  have hamounts : ∀ a ∈ counted, ∀ b ∈ counted, a.paymentId = b.paymentId → a.amount = b.amount :=
    fun a ha b hb _ => (hone.amount a ha).trans (hone.amount b hb).symm
  refine OrderingView.drained_induction
    (I := fun v => Tracks counted none v ∧
      v.states paymentId = reachedState amount (v.last paymentId))
    (fun v w later hv hlater happlied => ?_) hsteps ⟨htracks, hstate⟩
  have hposition := (hv.1.keyed paymentId _ later hlater).2
  have hseen := (hv.1.buffered paymentId _ later hlater).1
  refine ⟨(hv.1.popped hlater).applied hseen hamounts (hone.payment later hseen) hposition ?_
    happlied, state_applied (hv.1.popped hlater) hone.amount hseen happlied⟩
  rw [OrderingView.buffers_buffering, if_pos ⟨rfl, hposition⟩]

/-- A delivery counts if nothing was delivered at its position before, and
    keeps the processor on track. -/
theorem tracking_received (hend : v.Exhausted paymentId) (h : Tracking paymentId amount seen v)
    (hone : OnePayment paymentId amount (seen ++ [event])) (hreceived : v.Received event w) :
    Tracking paymentId amount (seen ++ [event]) w := by
  rcases h with ⟨⟨counted, htracks, hcounted, hcovers⟩, hstate⟩
  have hevent : event ∈ seen ++ [event] := List.mem_append_right _ (List.mem_singleton_self _)
  have howner : event.paymentId = paymentId := hone.payment event hevent
  have hkept : ∀ f ∈ counted ++ [event], f ∈ seen ++ [event] := fun f hf => by
    rcases List.mem_append.mp hf with hf | hf
    · exact List.mem_append_left _ (hcounted f hf)
    · exact List.mem_append_right _ hf
  have hone' : OnePayment paymentId amount (counted ++ [event]) :=
    ⟨fun f hf => hone.payment f (hkept f hf), fun f hf => hone.amount f (hkept f hf),
      fun a ha b hb => hone.ids a (hkept a ha) b (hkept b hb)⟩
  have hin : event ∈ counted ++ [event] := List.mem_append_right _ (List.mem_singleton_self _)
  -- An event that counts covers its own position.
  have hcovers' : ∀ f ∈ seen ++ [event], Delivered (counted ++ [event]) f.sequence.value := by
    intro f hf
    rcases List.mem_append.mp hf with hf | hf
    · rcases hcovers f hf with ⟨g, hg, hposition⟩
      exact ⟨g, List.mem_append_left _ hg, hposition⟩
    · rw [List.mem_singleton.mp hf]
      exact ⟨event, hin, rfl⟩
  cases hreceived with
  | ignored hold =>
      refine ⟨⟨counted, htracks, fun f hf => List.mem_append_left _ (hcounted f hf),
          fun f hf => ?_⟩,
        hstate⟩
      rcases List.mem_append.mp hf with hf | hf
      · exact hcovers f hf
      · rw [List.mem_singleton.mp hf]
        exact delivered_of_ignored htracks hone' hold
  | held hlater hfree =>
      exact ⟨⟨counted ++ [event], (htracks.arrived event).held hin (by omega) hfree, hkept,
        hcovers'⟩, hstate⟩
  | applied hfresh hnext u w hfirst hrest hend' =>
      have hamounts : ∀ a ∈ counted ++ [event], ∀ b ∈ counted ++ [event],
          a.paymentId = b.paymentId → a.amount = b.amount :=
        fun a ha b hb _ => (hone'.amount a ha).trans (hone'.amount b hb).symm
      have hfree : v.buffers event.paymentId event.sequence.value = none := by
        rw [hnext, howner]
        exact hend
      have happlied := (htracks.arrived event).applied hin hamounts rfl hnext hfree hfirst
      rw [howner] at hfirst hrest
      have hmoved := state_applied (htracks.arrived event) hone'.amount hin hfirst
      rcases state_drained happlied hone' hmoved hrest with ⟨hdrained, hstate'⟩
      exact ⟨⟨counted ++ [event], hdrained, hkept, hcovers'⟩, hstate'⟩

end Convergence

/-- The ends of the unbroken rows of delivered positions that begin with the
    first one. -/
def Unbroken (events : List PaymentEvent) : Set Int :=
  {k | 0 ≤ k ∧ ∀ n, 1 ≤ n → n ≤ k → Delivered events n}

/-- Where a processor ends after the events of one payment: the payment has
    reached the end of the longest unbroken row of positions, and it is settled
    once if that is the last position, and otherwise not at all. -/
structure Converged (paymentId : String) (amount : Money) (events : List PaymentEvent)
    (processor : OrderedEventProcessor) : Prop where
  greatest : IsGreatest (Unbroken events) (processor.stateOf paymentId).lastSequence
  state : processor.stateOf paymentId
    = reachedState amount (processor.stateOf paymentId).lastSequence
  settlements : ∃ settlements, processor.ledger.entries = openingEntry :: settlements ∧
    settlements.map (·.settlementTerms) =
      if (processor.stateOf paymentId).lastSequence = 4 then
        [(paymentId ++ "-SETTLEMENT", "HCCU-DEMO-001", amount, .debit)]
      else []
  balance : replay processor.ledger.entries = .ok (100_000 -
    if (processor.stateOf paymentId).lastSequence = 4 then amount.cents else 0)

section Converged

variable {paymentId : String} {amount : Money} {events : List PaymentEvent}
  {processor : OrderedEventProcessor}

/-- The row ends where the next position was not delivered: an event there
    would not have stayed in the buffer. -/
theorem greatest_of_tracking (h : Alone paymentId processor.view)
    (htracking : Tracking paymentId amount events processor.view)
    (hone : OnePayment paymentId amount events) :
    IsGreatest (Unbroken events) (processor.stateOf paymentId).lastSequence := by
  rcases htracking with ⟨⟨counted, htracks, hcounted, hcovers⟩, -⟩
  rcases h.steady with ⟨⟨settled, hconsistent⟩, hend⟩
  refine ⟨⟨(hconsistent.coherent paymentId).nonneg, fun n hn hle => ?_⟩, fun k hk => ?_⟩
  · rcases htracks.reached paymentId n hn hle with ⟨f, hf, -, hposition⟩
    exact ⟨f, hcounted f hf, hposition⟩
  · by_contra hlt
    change ¬ k ≤ processor.view.last paymentId at hlt
    have hnonneg : 0 ≤ processor.view.last paymentId := (hconsistent.coherent paymentId).nonneg
    rcases hk.2 (processor.view.last paymentId + 1) (by omega) (by omega) with ⟨f, hf, hposition⟩
    rcases hcovers f hf with ⟨g, hg, hsame⟩
    have howner : g.paymentId = paymentId := hone.payment g (hcounted g hg)
    have hbuffer := htracks.buffered_of_lt hg (by rw [howner]; omega)
    rw [howner, hsame, hposition, hend paymentId] at hbuffer
    cases hbuffer

/-- The completions settled are that of the payment, or none. -/
theorem settled_of_tracks {counted settled : List PaymentEvent}
    (hone : OnePayment paymentId amount counted)
    (hconsistent : OrderingView.Consistent orderingLedger settled processor.view)
    (hsettled : ∀ c ∈ settled, c ∈ counted ∧ c.eventType = .completed) :
    settled.map (·.settlementTerms) =
        (if (processor.stateOf paymentId).lastSequence = 4 then
          [(paymentId ++ "-SETTLEMENT", "HCCU-DEMO-001", amount, .debit)] else []) ∧
      (settled.map (·.amount.cents)).sum =
        if (processor.stateOf paymentId).lastSequence = 4 then amount.cents else 0 := by
  have hfour := hconsistent.settled_iff paymentId
  change _ ↔ (processor.stateOf paymentId).lastSequence = 4 at hfour
  have hpayment : ∀ c ∈ settled, c.paymentId = paymentId := fun c hc =>
    hone.payment c (hsettled c hc).1
  rcases settled with _ | ⟨c, _ | ⟨d, rest⟩⟩
  · have hopen : (processor.stateOf paymentId).lastSequence ≠ 4 :=
      hfour.not.mp List.not_mem_nil
    rw [if_neg hopen, if_neg hopen]
    exact ⟨rfl, rfl⟩
  · have hc := hpayment c List.mem_cons_self
    have hamount := hone.amount c (hsettled c List.mem_cons_self).1
    have hdone := hfour.mp (List.mem_map.mpr ⟨c, List.mem_cons_self, hc⟩)
    rw [if_pos hdone, if_pos hdone]
    simp [hc, hamount, PaymentEvent.settlementTerms]
  · -- A payment settles only once.
    have hnodup := hconsistent.settled_nodup
    have hc := hpayment c List.mem_cons_self
    have hd := hpayment d (List.mem_cons_of_mem c List.mem_cons_self)
    rw [List.map_cons, List.map_cons, hc, hd, List.nodup_cons] at hnodup
    exact absurd List.mem_cons_self hnodup.1

theorem converged_of_tracking (h : Alone paymentId processor.view)
    (htracking : Tracking paymentId amount events processor.view)
    (hone : OnePayment paymentId amount events) :
    Converged paymentId amount events processor := by
  have hgreatest := greatest_of_tracking h htracking hone
  rcases htracking with ⟨⟨counted, htracks, hcounted, -⟩, hstate⟩
  rcases htracks.settled with ⟨settled, hconsistent, hsettled⟩
  have hone' : OnePayment paymentId amount counted :=
    ⟨fun f hf => hone.payment f (hcounted f hf), fun f hf => hone.amount f (hcounted f hf),
      fun a ha b hb => hone.ids a (hcounted a ha) b (hcounted b hb)⟩
  rcases settled_of_tracks hone' hconsistent hsettled with ⟨hterms, hcents⟩
  rcases hconsistent.appended with ⟨entries, hentries, hforall⟩
  rw [orderingLedger_eq] at hentries
  change processor.ledger.entries = openingEntry :: entries at hentries
  refine ⟨hgreatest, hstate, ⟨entries, hentries, ?_⟩, ?_⟩
  · rw [map_settlementTerms hforall]
    exact hterms
  · have hopening : openingEntry.signedCents = 100_000 := by decide
    have htotal := totalCents_settlements hforall
    have hreplay := replay_eq_sum h.wellFormed
    change replay processor.ledger.entries = .ok (totalCents processor.ledger.entries) at hreplay
    rw [hcents] at htotal
    rw [hreplay, hentries]
    unfold totalCents at htotal ⊢
    rw [List.map_cons, List.sum_cons, hopening, htotal, sub_eq_add_neg]

/-- The deliveries of a payment return, and lead where they should. -/
theorem processEvents_converges (hone : OnePayment paymentId amount events) :
    ∃ processor, processEvents events = .ok processor ∧
      Converged paymentId amount events processor := by
  have hstart : Tracking paymentId amount [] (OrderedEventProcessor.new orderingLedger).view :=
    ⟨⟨[], tracks_new, fun f hf => absurd hf List.not_mem_nil,
      fun f hf => absurd hf List.not_mem_nil⟩, rfl⟩
  rcases receiveAll_alone
      (I := fun seen v => OnePayment paymentId amount seen → Tracking paymentId amount seen v)
      (fun seen v w event _ halone htracking hreceived hseen => by
        have hbefore : OnePayment paymentId amount seen :=
          ⟨fun f hf => hseen.payment f (List.mem_append_left _ hf),
            fun f hf => hseen.amount f (List.mem_append_left _ hf),
            fun a ha b hb => hseen.ids a (List.mem_append_left _ ha) b (List.mem_append_left _ hb)⟩
        exact tracking_received (halone.steady.2 paymentId) (htracking hbefore) hseen hreceived)
      [] events hone.payment (OrderedEventProcessor.new orderingLedger) (alone_new paymentId)
      (fun _ => hstart) with ⟨processor, hrun, halone, htracking⟩
  refine ⟨processor, ?_, converged_of_tracking halone (htracking hone) hone⟩
  rw [processEvents, hrun]

end Converged

/-- The events of one payment of one amount, in any order, with omissions,
    duplicates and late redeliveries: no delivery raises, the payment reaches
    the end of the longest unbroken row of delivered positions, it is settled
    once exactly if all four were delivered, and its state and the balance
    depend on nothing but which positions were. -/
theorem ordering_converges (paymentId : String) (amount : Money) (events : List PaymentEvent)
    (hone : OnePayment paymentId amount events) :
    ∃ processor, processEvents events = .ok processor ∧
      Converged paymentId amount events processor ∧
      ∀ events', OnePayment paymentId amount events' →
        (∀ position, Delivered events' position ↔ Delivered events position) →
          ∃ processor', processEvents events' = .ok processor' ∧
            processor'.stateOf paymentId = processor.stateOf paymentId ∧
            replay processor'.ledger.entries = replay processor.ledger.entries := by
  rcases processEvents_converges hone with ⟨processor, hrun, hconverged⟩
  refine ⟨processor, hrun, hconverged, fun events' hone' hsame => ?_⟩
  rcases processEvents_converges hone' with ⟨processor', hrun', hconverged'⟩
  have hunbroken : Unbroken events' = Unbroken events := by
    ext k
    simp only [Unbroken, Set.mem_ofPred_eq, hsame]
  have hgreatest := hconverged'.greatest
  rw [hunbroken] at hgreatest
  have hlast := hgreatest.unique hconverged.greatest
  refine ⟨processor', hrun', ?_, ?_⟩
  · rw [hconverged'.state, hconverged.state, hlast]
  · rw [hconverged'.balance, hconverged.balance, hlast]

/-- A payment whose third event is missing: it stays at the second position,
    whatever was delivered twice or beyond. -/
def gappedDelivery : List PaymentEvent :=
  [ workflowEvent "PAY-A" .completed 1,
    workflowEvent "PAY-A" .validated 2,
    workflowEvent "PAY-A" .received 3,
    workflowEvent "PAY-A" .received 4,
    workflowEvent "PAY-A" .completed 5 ]

theorem ordering_converges_gapped :
    OnePayment "PAY-A" ⟨10_000, by decide⟩ gappedDelivery ∧
      ∃ processor, processEvents gappedDelivery = .ok processor ∧
        IsGreatest (Unbroken gappedDelivery) (processor.stateOf "PAY-A").lastSequence := by
  have hone : OnePayment "PAY-A" ⟨10_000, by decide⟩ gappedDelivery :=
    ⟨by decide, by decide, by decide⟩
  rcases ordering_converges "PAY-A" ⟨10_000, by decide⟩ gappedDelivery hone with
    ⟨processor, hrun, hconverged, -⟩
  exact ⟨hone, processor, hrun, hconverged.greatest⟩

end BankSim
