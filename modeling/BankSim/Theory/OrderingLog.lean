import BankSim.Theory.OrderingDelivery

/-!
# The Log of an Ordered Processor

Every delivery a processor receives ends up in one of three places: in the log
as processed, in the log as rejected, or in a buffer where it waits for an
earlier event. While one is being dealt with it is in hand. `Logged` says that
these add up, and that the processed events of a payment are its positions in
order, of one amount. It is kept by each of the decisions the processor can
make and by each round of the loop that drains a buffer.

The settlements are not followed again. `Steady` already ties them to the
payments that have reached the end of their workflow, and what is added here is
that the processor's own count of them is right.

## Main definitions

* `OrderedEventProcessor.processedOf`: What the log has processed for a payment.
* `OrderedEventProcessor.heldCount`: The events waiting in buffers.
* `OrderedEventProcessor.Logged`: The invariant, with some events in hand.
* `OrderedEventProcessor.InOrder`: What the log and the counts should say.

## Theorems

* `logged_apply`, `logged_drainRounds`, `logged_hold`: One decision at a time.
* `logged_receive`: A delivery that returns keeps the invariant.
* `processEvents_inOrder`: So does a run of deliveries.
-/

namespace BankSim

open Exec

namespace OrderedEventProcessor

/-- The results that say an event of this payment was processed, in log
    order. -/
def processedOf (self : OrderedEventProcessor) (paymentId : String) :
    List EventProcessingResult :=
  self.results.filter fun result =>
    result.decision = .processed ∧ result.event.paymentId = paymentId

/-- The number of events that are buffered. -/
def heldCount (self : OrderedEventProcessor) : Nat :=
  (self.buffers.values.map fun buffer => buffer.items.length).sum

/-- The positions 1 to `last`. -/
def positions (last : Int) : List Int :=
  (List.range last.toNat).map fun i : Nat => (i : Int) + 1

theorem positions_succ {last : Int} (h : 0 ≤ last) :
    positions (last + 1) = positions last ++ [last + 1] := by
  have hlast : (last + 1).toNat = last.toNat + 1 := by omega
  have hsame : ((last.toNat : Nat) : Int) = last := by omega
  rw [positions, positions, hlast, List.range_succ, List.map_append, List.map_singleton, hsame]

/-- Log, states, buffers and counts agree after some deliveries, with some of them
    in hand that are neither logged nor buffered. -/
structure Logged (opened received inHand : Nat) (processor : OrderedEventProcessor) : Prop where
  keyed : processor.view.Keyed
  nonneg : ∀ paymentId, 0 ≤ (processor.stateOf paymentId).lastSequence
  sequences : ∀ paymentId, (processor.processedOf paymentId).map (·.event.sequence.value)
    = positions (processor.stateOf paymentId).lastSequence
  amounts : ∀ paymentId, ∀ result ∈ processor.processedOf paymentId,
    (processor.stateOf paymentId).amount = some result.event.amount
  waiting : ∀ paymentId position event,
    (processor.bufferOf paymentId).get? position = some event →
      (processor.stateOf paymentId).lastSequence < position
  counted : processor.eventsReceived = processor.statistics.eventsProcessed
    + processor.statistics.rejectedEvents + processor.heldCount + inHand
  created : processor.ledger.entries.length = opened + processor.ledgerEntriesCreated
  received : processor.eventsReceived = received

section Decisions

variable {opened received inHand : Nat} {s : OrderedEventProcessor} {event : PaymentEvent}
  {owner : String}

/-- A rejected delivery is in the log and nowhere else. -/
theorem logged_rejected (h : Logged opened received (inHand + 1) s) (decision : ProcessingDecision)
    (hdecision : decision = .stale ∨ decision = .duplicate ∨ decision = .rejected)
    (expected : Int) :
    Logged opened received inHand
      { s with results := s.results ++ [⟨event, decision, expected⟩] } := by
  -- The new line of the log is not one of those that were processed.
  have hprocessed : ∀ paymentId,
      processedOf { s with results := s.results ++ [⟨event, decision, expected⟩] } paymentId
        = s.processedOf paymentId := by
    intro paymentId
    unfold processedOf
    rw [List.filter_append, List.filter_cons_of_neg, List.filter_nil, List.append_nil]
    rcases hdecision with rfl | rfl | rfl <;> simp
  refine ⟨h.keyed, h.nonneg, fun paymentId => ?_, fun paymentId => ?_, h.waiting, ?_, h.created,
    h.received⟩
  · rw [hprocessed]
    exact h.sequences paymentId
  · rw [hprocessed]
    exact h.amounts paymentId
  · have hcounted := h.counted
    simp only [statistics, List.countP_append, heldCount] at hcounted ⊢
    rcases hdecision with rfl | rfl | rfl <;> simp <;> omega

/-- A processed delivery takes its payment one position further. The ledger
    and the count of its entries may change with it. -/
theorem logged_processed (h : Logged opened received (inHand + 1) s)
    (hnext : event.sequence.value = (s.stateOf owner).lastSequence + 1)
    (howner : event.paymentId = owner) (hagree : ¬ s.view.Conflicts event owner)
    (hfree : (s.bufferOf owner).get? event.sequence.value = none) (expected : Int)
    (ledger : Ledger) (ledgerEntriesCreated : Nat)
    (hcreated : ledger.entries.length = opened + ledgerEntriesCreated) :
    Logged opened received inHand
      { s.advanced event owner with
        ledger, ledgerEntriesCreated
        results := s.results ++ [⟨event, .processed, expected⟩] } := by
  have hstate : ∀ paymentId, stateOf { s.advanced event owner with
      ledger, ledgerEntriesCreated
      results := s.results ++ [⟨event, .processed, expected⟩] } paymentId
        = (s.view.advanced event owner).states paymentId :=
    fun paymentId => congrFun (congrArg OrderingView.states (s.view_advanced event owner)) paymentId
  -- The new line of the log is the owner's and no other payment's.
  have hprocessed : ∀ paymentId, processedOf { s.advanced event owner with
      ledger, ledgerEntriesCreated
      results := s.results ++ [⟨event, .processed, expected⟩] } paymentId
        = s.processedOf paymentId ++
          if paymentId = owner then [⟨event, .processed, expected⟩] else [] := by
    intro paymentId
    unfold processedOf
    rw [List.filter_append]
    split_ifs with hsame
    · rw [hsame, List.filter_cons_of_pos (by simpa using howner), List.filter_nil]
    · rw [List.filter_cons_of_neg, List.filter_nil]
      rw [howner]
      simpa using Ne.symm hsame
  refine ⟨h.keyed, fun paymentId => ?_, fun paymentId => ?_, fun paymentId result hmem => ?_,
    fun paymentId position later hlater => ?_, ?_, hcreated,
    h.received⟩
  · rw [hstate]
    change 0 ≤ (s.view.advanced event owner).last paymentId
    rw [OrderingView.last_advanced]
    split_ifs
    · exact le_of_lt event.sequence.value_pos
    · exact h.nonneg paymentId
  · -- The positions of the owner get one more, which is the next one.
    rw [hprocessed, List.map_append, h.sequences, hstate]
    change _ = positions ((s.view.advanced event owner).last paymentId)
    rw [OrderingView.last_advanced]
    split_ifs with hsame
    · rw [hsame, hnext, positions_succ (h.nonneg owner), List.map_singleton, hnext]
    · exact List.append_nil _
  · rw [hstate]
    rw [hprocessed] at hmem
    simp only [OrderingView.advanced, Function.update_apply]
    split_ifs at hmem ⊢ with hsame
    · -- What was processed before has the amount the payment had, which is not in conflict.
      rcases List.mem_append.mp hmem with hmem | hmem
      · have hamount := h.amounts paymentId result hmem
        rw [hsame] at hamount
        refine congrArg some ?_
        by_contra hne
        exact hagree (OrderingView.conflicts_iff.mpr ⟨_, hamount, Ne.symm hne⟩)
      · rw [List.mem_singleton.mp hmem]
    · rw [List.append_nil] at hmem
      exact h.amounts paymentId result hmem
  · rw [hstate]
    change (s.view.advanced event owner).last paymentId < position
    change (s.bufferOf paymentId).get? position = some later at hlater
    have hwaiting := h.waiting paymentId position later hlater
    rw [OrderingView.last_advanced]
    split_ifs with hsame
    · -- The position of the event itself is free.
      have hne : position ≠ event.sequence.value := by
        rintro rfl
        rw [hsame, hfree] at hlater
        cases hlater
      rw [hsame] at hwaiting
      omega
    · exact hwaiting
  · -- One more is processed, and one fewer is in hand.
    have hcounted := h.counted
    simp only [statistics, List.countP_append, heldCount, advanced] at hcounted ⊢
    simp
    omega

/-- Applying the next event of a payment moves it from the hand to the log. -/
theorem logged_apply (h : Logged opened received (inHand + 1) s)
    (hnext : event.sequence.value = (s.stateOf owner).lastSequence + 1)
    (howner : event.paymentId = owner)
    (hfree : (s.bufferOf owner).get? event.sequence.value = none) {t : OrderedEventProcessor}
    (hrun : (apply event owner).run s = .ok () t) :
    Logged opened received inHand t ∧ t.buffers = s.buffers := by
  by_cases hconflict : s.view.Conflicts event owner
  · rw [apply_of_conflict hconflict] at hrun
    cases hrun
    exact ⟨logged_rejected h _ (.inr (.inr rfl)) _, rfl⟩
  by_cases hdone : event.eventType = .completed
  · -- A completion that returned has posted its entry and counted it.
    rw [apply_of_completed hconflict hdone, settle_eq] at hrun
    rcases run_bind_ok_iff.mp hrun with ⟨_, settled, hsettle, hrecord⟩
    rcases run_bind_ok_iff.mp hsettle with ⟨_, posted, hpost, hcount⟩
    cases hcount
    cases hrecord
    rw [Component.zoom_run] at hpost
    cases hledger : event.settlementPosting.post.run (s.advanced event owner).ledger with
    | error e ledger =>
        simp only [ledgerOf, hledger] at hpost
        cases hpost
    | ok _ ledger =>
        simp only [ledgerOf, hledger] at hpost
        cases hpost
        rcases Posting.post_ok hledger with ⟨hfits, rfl⟩
        refine ⟨logged_processed h hnext howner hconflict hfree _ _ _ ?_, rfl⟩
        rw [Ledger.push_entries, List.length_append, List.length_singleton]
        change s.ledger.entries.length + 1 = opened + (s.ledgerEntriesCreated + 1)
        rw [h.created, Nat.add_assoc]
  · rw [apply_of_open hconflict hdone] at hrun
    cases hrun
    exact ⟨logged_processed h hnext howner hconflict hfree _ s.ledger _ h.created, rfl⟩

/-- Replacing a buffer changes the number of buffered events by the
    difference. -/
theorem heldCount_withBuffer (s : OrderedEventProcessor) (owner : String)
    (buffer : Dict Int PaymentEvent) :
    (s.withBuffer owner buffer).heldCount + (s.bufferOf owner).items.length
      = s.heldCount + buffer.items.length := by
  unfold heldCount
  zify
  simp only [withBuffer, bufferOf, List.map_map]
  cases hget : s.buffers.get? owner with
  | none =>
      rw [Dict.sum_set_of_none _ owner buffer _ hget]
      simp [Dict.empty]
  | some held =>
      rw [Dict.sum_set_of_get? _ owner held buffer _ hget, Option.getD_some]
      simp only [Function.comp_apply]
      omega

theorem heldCount_setdefault (s : OrderedEventProcessor) (owner : String) :
    ({ s with buffers := s.buffers.setdefault owner Dict.empty } :
      OrderedEventProcessor).heldCount = s.heldCount := by
  cases hget : s.buffers.get? owner with
  | some held =>
      unfold heldCount Dict.setdefault
      simp only [hget]
  | none =>
      have hcount := heldCount_withBuffer s owner Dict.empty
      have hbuffer : s.bufferOf owner = Dict.empty := by
        rw [bufferOf, hget, Option.getD_none]
      have hset : s.buffers.setdefault owner Dict.empty = s.buffers.set owner Dict.empty := by
        unfold Dict.setdefault
        simp only [hget]
      rw [hbuffer] at hcount
      rw [hset]
      exact Nat.add_right_cancel hcount

/-- A buffer that was asked for is there, and nothing else is new. -/
theorem logged_setdefault (h : Logged opened received inHand s) (owner : String) :
    Logged opened received inHand { s with buffers := s.buffers.setdefault owner Dict.empty } := by
  have hview := s.view_setdefault_buffers owner
  refine ⟨?_, h.nonneg, h.sequences, h.amounts, fun paymentId position later hlater => ?_, ?_,
    h.created, h.received⟩
  · rw [hview]
    exact h.keyed
  · rw [bufferOf_setdefault] at hlater
    exact h.waiting paymentId position later hlater
  · rw [heldCount_setdefault]
    exact h.counted

/-- An event taken out of a buffer is in hand. -/
theorem logged_popped (h : Logged opened received inHand s) {position : Int}
    (hevent : (s.bufferOf owner).get? position = some event) :
    Logged opened received (inHand + 1)
      (s.withBuffer owner ((s.bufferOf owner).erase position)) := by
  have hview := s.view_erase owner position
  refine ⟨?_, h.nonneg, h.sequences, h.amounts, fun paymentId n later hlater => ?_, ?_, h.created,
    h.received⟩
  · rw [hview]
    exact OrderingView.keyed_buffering h.keyed owner position none fun _ hnone => by cases hnone
  · -- What still waits has waited before.
    have hold : (s.bufferOf paymentId).get? n = some later := by
      have hbuffers := congrFun (congrFun (congrArg OrderingView.buffers hview) paymentId) n
      rw [OrderingView.buffers_buffering] at hbuffers
      change (OrderedEventProcessor.view _).buffers paymentId n = some later at hlater
      rw [hbuffers] at hlater
      split_ifs at hlater
      exact hlater
    exact h.waiting paymentId n later hold
  · -- One fewer is buffered, and one more is in hand.
    have hcount := heldCount_withBuffer s owner ((s.bufferOf owner).erase position)
    have herase := Dict.length_erase_of_mem _ _ ((Dict.mem_iff _ _).mpr ⟨event, hevent⟩)
    have hcounted := h.counted
    simp only [statistics, withBuffer] at hcounted hcount ⊢
    omega

/-- An event put into a free place of its buffer waits there. -/
theorem logged_held (h : Logged opened received (inHand + 1) s)
    (hlater : (s.stateOf event.paymentId).lastSequence + 1 < event.sequence.value)
    (hfree : (s.bufferOf event.paymentId).get? event.sequence.value = none) (expected : Int) :
    Logged opened received inHand
      { s.withBuffer event.paymentId
          ((s.bufferOf event.paymentId).set event.sequence.value event) with
        outOfOrder := s.outOfOrder + 1
        buffered := s.buffered + 1
        results := s.results ++ [⟨event, .buffered, expected⟩] } := by
  have hview := s.view_set event.paymentId event.sequence.value event
  -- The log has one more line, which is not one of those that were processed.
  have hprocessed : ∀ paymentId,
      processedOf { s.withBuffer event.paymentId
          ((s.bufferOf event.paymentId).set event.sequence.value event) with
        outOfOrder := s.outOfOrder + 1
        buffered := s.buffered + 1
        results := s.results ++ [⟨event, .buffered, expected⟩] } paymentId
          = s.processedOf paymentId := by
    intro paymentId
    unfold processedOf
    rw [List.filter_append, List.filter_cons_of_neg (by simp), List.filter_nil, List.append_nil]
  refine ⟨?_, h.nonneg, fun paymentId => ?_, fun paymentId => ?_,
    fun paymentId n later hheld => ?_, ?_, h.created, h.received⟩
  · change (OrderedEventProcessor.view (s.withBuffer event.paymentId _)).Keyed
    rw [hview]
    refine OrderingView.keyed_buffering h.keyed _ _ _ fun other hother => ?_
    rw [← Option.some.inj hother]
    exact ⟨rfl, rfl⟩
  · rw [hprocessed]
    exact h.sequences paymentId
  · rw [hprocessed]
    exact h.amounts paymentId
  · -- The event itself is ahead of its payment, and so are those before it.
    have hbuffers := congrFun (congrFun (congrArg OrderingView.buffers hview) paymentId) n
    rw [OrderingView.buffers_buffering] at hbuffers
    change (OrderedEventProcessor.view (s.withBuffer event.paymentId _)).buffers paymentId n
      = some later at hheld
    rw [hbuffers] at hheld
    change (s.stateOf paymentId).lastSequence < n
    split_ifs at hheld with hplace
    · rw [hplace.1, hplace.2]
      omega
    · exact h.waiting paymentId n later hheld
  · -- One more is buffered, and one fewer is in hand.
    have hcount := heldCount_withBuffer s event.paymentId
      ((s.bufferOf event.paymentId).set event.sequence.value event)
    rw [Dict.length_set_of_none _ _ _ hfree] at hcount
    have hcounted := h.counted
    simp only [statistics, withBuffer, heldCount, List.countP_append] at hcounted hcount ⊢
    simp
    omega

/-- Draining a buffer keeps the invariant, since an event is never in hand for
    longer than a round. -/
theorem logged_drainRounds (rounds : Nat) (h : Logged opened received inHand s)
    {t : OrderedEventProcessor} (hrun : (drainRounds owner rounds).run s = .ok () t) :
    Logged opened received inHand t := by
  induction rounds generalizing s with
  | zero =>
      cases hrun
      exact h
  | succ rounds ih =>
      cases hget : (s.bufferOf owner).get? ((s.stateOf owner).lastSequence + 1) with
      | none =>
          rw [drainRounds_of_none _ hget] at hrun
          cases hrun
          exact h
      | some event =>
          rw [drainRounds_of_some rounds hget] at hrun
          rcases run_bind_ok_iff.mp hrun with ⟨_, u, happly, hrest⟩
          rcases h.keyed owner _ event hget with ⟨howner, hposition⟩
          have hpopped := logged_popped h hget
          -- The place it was taken from is free when it is applied.
          have hfree : ((s.withBuffer owner ((s.bufferOf owner).erase
              ((s.stateOf owner).lastSequence + 1))).bufferOf owner).get? event.sequence.value
                = none := by
            rw [buffers_withBuffer, if_pos rfl, Dict.get?_erase, if_pos hposition]
          exact ih (logged_apply hpopped hposition howner hfree happly).1 hrest

theorem logged_drain (h : Logged opened received inHand s) {t : OrderedEventProcessor}
    (hrun : (drain owner).run s = .ok () t) : Logged opened received inHand t :=
  logged_drainRounds _ (logged_setdefault h owner) hrun

theorem logged_hold (h : Logged opened received (inHand + 1) s)
    (hlater : (s.stateOf event.paymentId).lastSequence + 1 < event.sequence.value)
    {expected : Int} {t : OrderedEventProcessor}
    (hrun : (hold event expected).run s = .ok () t) : Logged opened received inHand t := by
  have hdefault := logged_setdefault h event.paymentId
  have hstate : ({ s with buffers := s.buffers.setdefault event.paymentId Dict.empty } :
    OrderedEventProcessor).stateOf event.paymentId = s.stateOf event.paymentId := rfl
  rw [hold, run_bind_modify, run_bind_get] at hrun
  generalize ({ s with buffers := s.buffers.setdefault event.paymentId Dict.empty } :
    OrderedEventProcessor) = s' at hdefault hrun hstate
  rw [← hstate] at hlater
  by_cases htaken : event.sequence.value ∈ s'.bufferOf event.paymentId
  · rw [if_pos htaken] at hrun
    cases hrun
    exact logged_rejected hdefault _ (.inr (.inr rfl)) _
  · rw [if_neg htaken] at hrun
    cases hrun
    exact logged_held hdefault hlater ((Dict.not_mem_iff _ _).mp htaken) _

theorem logged_dispatch (h : Logged opened received (inHand + 1) s)
    (hend : s.view.Exhausted event.paymentId) {t : OrderedEventProcessor}
    (hrun : (dispatch event).run s = .ok () t) : Logged opened received inHand t := by
  rw [dispatch, run_bind_get] at hrun
  by_cases hdone : event.eventId ∈ s.processedEventIds
  · rw [if_pos hdone] at hrun
    cases hrun
    exact logged_rejected h _ (.inr (.inl rfl)) _
  rw [if_neg hdone] at hrun
  by_cases hstale : event.sequence.value ≤ (s.stateOf event.paymentId).lastSequence ∨
      event.revision.value ≤ (s.stateOf event.paymentId).lastRevision
  · rw [if_pos hstale] at hrun
    cases hrun
    exact logged_rejected h _ (.inl rfl) _
  rw [if_neg hstale] at hrun
  by_cases hlater : event.sequence.value > (s.stateOf event.paymentId).lastSequence + 1
  · rw [if_pos hlater] at hrun
    exact logged_hold h hlater hrun
  rw [if_neg hlater] at hrun
  -- What is left is the event the payment is waiting for.
  have hnext : event.sequence.value = (s.stateOf event.paymentId).lastSequence + 1 := by omega
  rcases run_bind_ok_iff.mp hrun with ⟨_, u, happly, hdrain⟩
  have hfree : (s.bufferOf event.paymentId).get? event.sequence.value = none := hnext ▸ hend
  exact logged_drain (logged_apply h hnext rfl hfree happly).1 hdrain

/-- A delivery that returns leaves nothing in hand. -/
theorem logged_receive (h : Logged opened received 0 s) (hend : s.view.Exhausted event.paymentId)
    {results : List EventProcessingResult} {t : OrderedEventProcessor}
    (hrun : (receive event).run s = .ok results t) : Logged opened (received + 1) 0 t := by
  have hview : ({ s with
      eventsReceived := s.eventsReceived + 1
      states := s.states.setdefault event.paymentId PaymentOrderingState.new } :
        OrderedEventProcessor).view = s.view := s.view_setdefault_states event.paymentId
  have hstate : ∀ paymentId, ({ s with
      eventsReceived := s.eventsReceived + 1
      states := s.states.setdefault event.paymentId PaymentOrderingState.new } :
        OrderedEventProcessor).stateOf paymentId = s.stateOf paymentId :=
    fun paymentId => congrFun (congrArg OrderingView.states hview) paymentId
  -- The delivery is counted before anything is decided about it.
  have hcounted : Logged opened (received + 1) 1 { s with
      eventsReceived := s.eventsReceived + 1
      states := s.states.setdefault event.paymentId PaymentOrderingState.new } := by
    refine ⟨hview ▸ h.keyed, fun paymentId => ?_, fun paymentId => ?_, fun paymentId => ?_,
      fun paymentId => ?_, ?_, h.created, congrArg (· + 1) h.received⟩
    · rw [hstate]
      exact h.nonneg paymentId
    · rw [hstate]
      exact h.sequences paymentId
    · rw [hstate]
      exact h.amounts paymentId
    · rw [hstate]
      exact h.waiting paymentId
    · have := h.counted
      simp only [statistics, heldCount] at this ⊢
      omega
  rw [receive, run_bind_modify, run_bind_get, run_bind_modify] at hrun
  rcases run_bind_ok_iff.mp hrun with ⟨_, u, hdispatch, hreturn⟩
  cases hreturn
  exact logged_dispatch hcounted (hview ▸ hend) hdispatch

end Decisions

/-- What the log, the buffers, the counts and the ledger of a processor on the
    opening balance say after some events when no delivery raised. -/
structure InOrder (events : List PaymentEvent) (processor : OrderedEventProcessor) : Prop where
  /-- The processed events of a payment are its positions, in order. -/
  sequences : ∀ paymentId, (processor.processedOf paymentId).map (·.event.sequence.value)
    = positions (processor.stateOf paymentId).lastSequence
  amounts : ∀ paymentId, ∀ a ∈ processor.processedOf paymentId,
    ∀ b ∈ processor.processedOf paymentId, a.event.amount = b.event.amount
  /-- What is buffered waits for an event that has not come. -/
  waiting : ∀ paymentId position event,
    (processor.bufferOf paymentId).get? position = some event →
      event.sequence.value = position ∧ (processor.stateOf paymentId).lastSequence + 1 < position
  /-- Every delivery is counted, and is in the log or buffered. -/
  received : processor.statistics.eventsReceived = events.length
  counted : processor.statistics.eventsReceived = processor.statistics.eventsProcessed
    + processor.statistics.rejectedEvents + processor.heldCount
  /-- A payment is settled once when it has reached its last position, and
      otherwise not at all. -/
  settled : ∀ paymentId, (processor.ledger.entries.filter fun entry =>
      entry.entryId = paymentId ++ "-SETTLEMENT").length
    = if (processor.stateOf paymentId).lastSequence = 4 then 1 else 0
  created : processor.statistics.ledgerEntriesCreated
    = (processor.states.keys.filter fun paymentId =>
        (processor.stateOf paymentId).lastSequence = 4).length
  entries : processor.ledger.entries.length = 1 + processor.statistics.ledgerEntriesCreated

theorem logged_new : Logged 1 0 0 (new orderingLedger) where
  keyed := fun _ _ _ h => by cases h
  nonneg _ := le_rfl
  sequences _ := rfl
  amounts _ _ h := absurd h List.not_mem_nil
  waiting := fun _ _ _ h => by cases h
  counted := rfl
  created := by
    rw [orderingLedger_eq]
    rfl
  received := rfl

/-- The invariant of the log and that of the ledger say what they should. -/
theorem inOrder_of_logged {events : List PaymentEvent} {s : OrderedEventProcessor}
    (h : Logged 1 events.length 0 s) (hsteady : s.view.Steady orderingLedger) :
    InOrder events s := by
  rcases hsteady with ⟨⟨settled, hconsistent⟩, hend⟩
  rcases hconsistent.appended with ⟨entries, hentries, hforall⟩
  rw [orderingLedger_eq] at hentries
  change s.ledger.entries = [openingEntry] ++ entries at hentries
  have hlast : ∀ paymentId, paymentId ∈ settled.map (·.paymentId) ↔
      (s.stateOf paymentId).lastSequence = 4 := hconsistent.settled_iff
  refine ⟨h.sequences, fun paymentId a ha b hb => ?_, fun paymentId position event hevent => ?_,
    h.received, h.counted, fun paymentId => ?_, ?_, h.created⟩
  · have hsame := (h.amounts paymentId a ha).symm.trans (h.amounts paymentId b hb)
    exact Option.some.inj hsame
  · -- Nothing waits at the next position, for that would have been drained.
    have hwaiting := h.waiting paymentId position event hevent
    have hne : position ≠ (s.stateOf paymentId).lastSequence + 1 := by
      rintro rfl
      have hnone := hend paymentId
      change (s.bufferOf paymentId).get? ((s.stateOf paymentId).lastSequence + 1) = none at hnone
      rw [hnone] at hevent
      cases hevent
    exact ⟨(h.keyed paymentId position event hevent).2, by omega⟩
  · -- The opening entry is no settlement, and every payment settled once.
    rw [hentries, List.filter_append, List.length_append, length_filter_settles hforall,
      hconsistent.settled_nodup.count]
    have hopening : ([openingEntry].filter fun entry =>
        entry.entryId = paymentId ++ "-SETTLEMENT") = [] := by
      rw [List.filter_cons_of_neg, List.filter_nil]
      exact fun hsame => open_ne_settlement paymentId (of_decide_eq_true hsame)
    rw [hopening, List.length_nil, Nat.zero_add]
    exact if_congr (hlast paymentId) rfl rfl
  · -- Both lists have the payments at their last position, each once.
    have hperm : (settled.map (·.paymentId)).Perm
        (s.states.keys.filter fun paymentId => (s.stateOf paymentId).lastSequence = 4) := by
      refine (List.perm_ext_iff_of_nodup hconsistent.settled_nodup
        (s.states.keys_nodup.filter _)).mpr fun paymentId => ?_
      rw [hlast, List.mem_filter, decide_eq_true_iff]
      refine ⟨fun hfour => ⟨?_, hfour⟩, fun hmem => hmem.2⟩
      by_contra hnew
      have hnone := (Dict.not_mem_iff s.states paymentId).mp hnew
      rw [stateOf, hnone, Option.getD_none] at hfour
      exact absurd hfour (by decide)
    have hlength := hperm.length_eq
    have hcreated := h.created
    rw [hentries, List.length_append, List.length_singleton, ← hforall.length_eq] at hcreated
    rw [List.length_map] at hlength
    change s.ledgerEntriesCreated = _
    omega

theorem logged_receiveAll {received : Nat} (events : List PaymentEvent)
    {s t : OrderedEventProcessor} (h : Logged 1 received 0 s)
    (hsteady : s.view.Steady orderingLedger) (hrun : (receiveAll events).run s = .ok () t) :
    Logged 1 (received + events.length) 0 t ∧ t.view.Steady orderingLedger := by
  induction events generalizing received s with
  | nil =>
      cases hrun
      exact ⟨h, hsteady⟩
  | cons event events ih =>
      rcases run_bind_ok_iff.mp hrun with ⟨results, u, hreceive, hrest⟩
      by_cases haccepted : s.view.Accepted event
      · rcases receive_of_accepted hsteady haccepted with ⟨results', u', hrun', -, hsteady'⟩
        rw [hreceive, EStateM.Result.ok.injEq] at hrun'
        rw [← hrun'.2] at hsteady'
        rw [List.length_cons, ← Nat.succ_add_eq_add_succ]
        exact ih (logged_receive h (hsteady.2 event.paymentId) hreceive) hsteady' hrest
      · rcases receive_of_refused hsteady haccepted with ⟨e, u', hrun', -⟩
        rw [hreceive] at hrun'
        cases hrun'

end OrderedEventProcessor

/-- Whatever is delivered to a processor on the opening balance, if no
    delivery raises, then the events of each payment were applied in order and
    every delivery is accounted for. -/
theorem processEvents_inOrder (events : List PaymentEvent) (processor : OrderedEventProcessor)
    (h : processEvents events = .ok processor) : processor.InOrder events := by
  unfold processEvents at h
  cases hrun : (OrderedEventProcessor.receiveAll events).run (.new orderingLedger) with
  | error e t =>
      rw [hrun] at h
      cases h
  | ok _ t =>
      rw [hrun] at h
      cases h
      have hkept := OrderedEventProcessor.logged_receiveAll events
        OrderedEventProcessor.logged_new (OrderingView.steady_new orderingLedger) hrun
      rw [Nat.zero_add] at hkept
      exact OrderedEventProcessor.inOrder_of_logged hkept.1 hkept.2

theorem processEvents_inOrder_mixed :
    ∃ processor, processEvents mixedDelivery = .ok processor ∧ processor.InOrder mixedDelivery :=
  ⟨_, rfl, processEvents_inOrder mixedDelivery _ rfl⟩

end BankSim
