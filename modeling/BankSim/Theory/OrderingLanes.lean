import BankSim.Theory.Lanes
import BankSim.Theory.OrderingModel

/-!
# Deliveries Act on Lanes

The ordered processor as a family of lanes, one for each payment. A program
`Carries` a lane if it leaves behind what the function on lanes says and
touches no other payment, whether it returns or raises. The programs of the
processor are shown to do so one after the other, from recording a decision
to receiving an event.

The one place where code and function part is a completion that the ledger
refuses. The code raises there and the function goes on. But the payment is
then at its last position, where nothing is left to drain, so going on
changes nothing.

## Main definitions

* `OrderedEventProcessor.Shows`: A lane is what the processor keeps.
* `OrderedEventProcessor.Carries`: A program acts on one lane.
* `OrderedEventProcessor.lane`: The lane a delivery begins with.

## Theorems

* `apply_carries`, `drainRounds_carries`, `hold_carries`: One step at a time.
* `receive_carries`: A delivery acts on the lane of its payment.
* `receive_processed`: The events it records as processed.
-/

namespace BankSim

open Exec

namespace OrderedEventProcessor

/-- Whether the ledger takes the settlement of a completion. -/
def accepts (self : OrderedEventProcessor) (event : PaymentEvent) : Bool :=
  decide (event.Settleable self.ledger)

/-- A lane is what the processor keeps for a payment, after some results
    recorded before. -/
structure Shows (processor : OrderedEventProcessor) (owner : String)
    (base : List EventProcessingResult) (lane : Lane) : Prop where
  state : processor.stateOf owner = lane.state
  buffer : processor.bufferOf owner = lane.buffer
  results : processor.results = base ++ lane.log

/-- A program acts on the lane of one payment: it leaves a given lane behind
    and the other payments alone, the events it moved the payment to become
    known, and it returns exactly when the ledger accepts the completion among
    them. -/
structure Carries {α : Type} (m : Action OrderedEventProcessor α) (owner : String)
    (base : List EventProcessingResult) (s : OrderedEventProcessor) (lane : Lane)
    (moved : List PaymentEvent) : Prop where
  shows : (after m s).Shows owner base lane
  others : ∀ paymentId, paymentId ≠ owner →
    (after m s).stateOf paymentId = s.stateOf paymentId ∧
      (after m s).bufferOf paymentId = s.bufferOf paymentId
  processed : (after m s).processedEventIds
    = s.processedEventIds ∪ (moved.map (·.eventId)).toFinset
  returns : ¬ Raises m s ↔
    ∀ c ∈ moved, c.eventType = .completed → s.accepts c = true

section Programs

variable {owner : String} {base : List EventProcessingResult} {s : OrderedEventProcessor}
  {lane : Lane} {event : PaymentEvent}

/-- A program that returns without moving the payment. -/
theorem carries_of_ok {α : Type} {m : Action OrderedEventProcessor α} {a : α}
    {t : OrderedEventProcessor} (hrun : m.run s = .ok a t) (hshows : t.Shows owner base lane)
    (hothers : ∀ paymentId, paymentId ≠ owner → t.stateOf paymentId = s.stateOf paymentId ∧
      t.bufferOf paymentId = s.bufferOf paymentId)
    (hprocessed : t.processedEventIds = s.processedEventIds) :
    Carries m owner base s lane [] := by
  refine ⟨?_, ?_, ?_, ?_⟩
  · rw [after_of_ok hrun]
    exact hshows
  · rw [after_of_ok hrun]
    exact hothers
  · rw [after_of_ok hrun, hprocessed, List.map_nil, List.toFinset_nil, Finset.union_empty]
  · refine iff_of_true ?_ fun c hc => absurd hc List.not_mem_nil
    rintro ⟨e, u, herror⟩
    rw [hrun] at herror
    cases herror

theorem insert_eq_union (event : PaymentEvent) (ids : Finset String) :
    insert event.eventId ids = ids ∪ ([event].map (·.eventId)).toFinset := by
  rw [List.map_singleton, List.toFinset_cons, List.toFinset_nil, insert_empty_eq,
    Finset.union_comm, Finset.insert_eq]

/-- A program that returns once the payment has moved to an event. -/
theorem carries_of_moved {α : Type} {m : Action OrderedEventProcessor α} {a : α}
    {t : OrderedEventProcessor} (hrun : m.run s = .ok a t) (hshows : t.Shows owner base lane)
    (hothers : ∀ paymentId, paymentId ≠ owner → t.stateOf paymentId = s.stateOf paymentId ∧
      t.bufferOf paymentId = s.bufferOf paymentId)
    (hprocessed : t.processedEventIds = insert event.eventId s.processedEventIds)
    (haccepted : event.eventType = .completed → s.accepts event = true) :
    Carries m owner base s lane [event] := by
  refine ⟨?_, ?_, ?_, iff_of_true ?_ fun c hc => ?_⟩
  · rw [after_of_ok hrun]
    exact hshows
  · rw [after_of_ok hrun]
    exact hothers
  · rw [after_of_ok hrun, hprocessed, insert_eq_union]
  · rintro ⟨e, u, herror⟩
    rw [hrun] at herror
    cases herror
  · rw [List.mem_singleton.mp hc]
    exact haccepted

/-- Recording a decision about an event. -/
theorem record_carries (event : PaymentEvent) (decision : ProcessingDecision)
    (h : s.Shows owner base lane) :
    Carries (record event decision lane.expected) owner base s (lane.note event decision) [] := by
  refine carries_of_ok (a := ()) (t := { s with
    results := s.results ++ [⟨event, decision, lane.expected⟩] }) rfl ?_ (fun _ _ => ⟨rfl, rfl⟩) rfl
  refine ⟨h.state, h.buffer, ?_⟩
  change s.results ++ _ = base ++ (lane.log ++ _)
  rw [h.results, List.append_assoc]

theorem Shows.expected_eq (h : s.Shows owner base lane) :
    (s.stateOf owner).lastSequence + 1 = lane.expected := by
  rw [h.state, Lane.expected]

theorem Shows.conflicts_iff (h : s.Shows owner base lane) :
    s.view.Conflicts event owner ↔ lane.Conflicts event := by
  rw [OrderedEventProcessor.conflicts_iff, h.state, Lane.Conflicts]

/-- The payment moves, and the ledger and its count may have changed with
    it. -/
theorem Shows.advanced (h : s.Shows owner base lane) :
    (s.advanced event owner).Shows owner base (lane.advance event) ∧
      ∀ paymentId, paymentId ≠ owner →
        (s.advanced event owner).stateOf paymentId = s.stateOf paymentId ∧
          (s.advanced event owner).bufferOf paymentId = s.bufferOf paymentId := by
  have hstates := congrArg OrderingView.states (s.view_advanced event owner)
  refine ⟨⟨?_, h.buffer, h.results⟩, fun paymentId hne => ⟨?_, rfl⟩⟩
  · refine (congrFun hstates owner).trans ?_
    simp only [OrderingView.advanced, Function.update_self, Lane.advance]
  · refine (congrFun hstates paymentId).trans ?_
    simp only [OrderingView.advanced, Function.update_of_ne hne]
    rfl

/-- What else a program starts from does not matter: not the dictionaries as
    such, nor the counters. -/
theorem Carries.congr {α : Type} {m n : Action OrderedEventProcessor α}
    {moved : List PaymentEvent} {s' : OrderedEventProcessor}
    (h : Carries n owner base s' lane moved) (hrun : m.run s = n.run s')
    (hothers : ∀ paymentId, paymentId ≠ owner → s'.stateOf paymentId = s.stateOf paymentId ∧
      s'.bufferOf paymentId = s.bufferOf paymentId)
    (hprocessed : s'.processedEventIds = s.processedEventIds) (hledger : s'.ledger = s.ledger) :
    Carries m owner base s lane moved := by
  have hafter : after m s = after n s' := by
    unfold after
    rw [hrun]
  have hraises : Raises m s ↔ Raises n s' := by
    unfold Raises
    rw [hrun]
  have haccepts : s'.accepts = s.accepts := by
    unfold accepts
    rw [hledger]
  refine ⟨?_, fun paymentId hne => ?_, ?_, ?_⟩
  · rw [hafter]
    exact h.shows
  · rw [hafter, (h.others paymentId hne).1, (h.others paymentId hne).2]
    exact hothers paymentId hne
  · rw [hafter, h.processed, hprocessed]
  · rw [hraises, h.returns, haccepts]

/-- One program after another, if the first returns and the ledger goes on
    accepting what it accepted. -/
theorem Carries.bind {α β : Type} {m : Action OrderedEventProcessor α}
    {f : α → Action OrderedEventProcessor β} {lane' : Lane} {moved moved' : List PaymentEvent}
    (h : Carries m owner base s lane moved) {a : α} {t : OrderedEventProcessor}
    (hrun : m.run s = .ok a t) (haccepts : ∀ c ∈ moved', t.accepts c = s.accepts c)
    (hf : Carries (f a) owner base t lane' moved') :
    Carries (m >>= f) owner base s lane' (moved ++ moved') := by
  have hafter : after m s = t := after_of_ok hrun
  have hraises : Raises (m >>= f) s ↔ Raises (f a) t := by
    unfold Raises
    rw [run_bind_of_ok hrun]
  have hfirst : ∀ c ∈ moved, c.eventType = .completed → s.accepts c = true := by
    refine h.returns.mp ?_
    rintro ⟨e, u, herror⟩
    rw [hrun] at herror
    cases herror
  refine ⟨?_, fun paymentId hne => ?_, ?_, ?_⟩
  · rw [after_bind_ok hrun]
    exact hf.shows
  · have hothers := h.others paymentId hne
    rw [hafter] at hothers
    rw [after_bind_ok hrun, (hf.others paymentId hne).1, (hf.others paymentId hne).2]
    exact hothers
  · have hprocessed := h.processed
    rw [hafter] at hprocessed
    rw [after_bind_ok hrun, hf.processed, hprocessed, Finset.union_assoc, List.map_append,
      List.toFinset_append]
  · rw [hraises, hf.returns]
    simp only [List.mem_append]
    constructor
    · intro h c hc hdone
      rcases hc with hc | hc
      · exact hfirst c hc hdone
      · rw [← haccepts c hc]
        exact h c hc hdone
    · intro h c hc hdone
      rw [haccepts c hc]
      exact h c (Or.inr hc) hdone

/-- Applying an event acts on the lane of its payment. -/
theorem apply_carries (event : PaymentEvent) (h : s.Shows owner base lane) :
    Carries (apply event owner) owner base s (lane.apply s.accepts event) (lane.moves event) := by
  by_cases hconflict : lane.Conflicts event
  · -- A conflict is recorded, and that is all.
    have hrun := apply_of_conflict (h.conflicts_iff.mpr hconflict)
    rw [h.expected_eq] at hrun
    rw [Lane.apply_of_conflicts hconflict, Lane.moves, if_pos hconflict]
    exact (record_carries event .rejected h).congr hrun (fun _ _ => ⟨rfl, rfl⟩) rfl rfl
  have hagree := (not_congr h.conflicts_iff).mpr hconflict
  have hadvanced : ∀ ledger ledgerEntriesCreated,
      Shows { s.advanced event owner with
        ledger, ledgerEntriesCreated
        results := s.results ++ [⟨event, .processed, lane.expected⟩] }
        owner base ((lane.note event .processed).advance event) := fun _ _ => by
    refine ⟨h.advanced.1.state, h.buffer, ?_⟩
    rw [h.results, List.append_assoc]
    rfl
  rw [Lane.moves, if_neg hconflict]
  by_cases hdone : event.eventType = .completed
  · have hrun := apply_of_completed hagree hdone
    rw [h.expected_eq] at hrun
    by_cases hsettleable : event.Settleable s.ledger
    · rcases settle_of_settleable (s := s.advanced event owner) hsettleable with
        ⟨entry, -, -, hsettle⟩
      rw [run_bind_of_ok hsettle] at hrun
      have haccepted : s.accepts event = true := decide_eq_true hsettleable
      rw [Lane.apply_of_accepted hconflict fun _ => haccepted]
      exact carries_of_moved hrun (hadvanced _ _) h.advanced.2 rfl fun _ => haccepted
    · -- The payment has moved by the time the ledger refuses.
      rcases settle_of_refused (s := s.advanced event owner) hsettleable with ⟨e, hsettle⟩
      rw [run_bind_of_error hsettle] at hrun
      have hrefused : s.accepts event = false := decide_eq_false hsettleable
      rw [Lane.apply_of_refused hconflict hdone hrefused]
      refine ⟨?_, ?_, ?_, iff_of_false (not_not.mpr ⟨e, _, hrun⟩) fun hall => ?_⟩
      · rw [after_of_error hrun]
        exact h.advanced.1
      · rw [after_of_error hrun]
        exact h.advanced.2
      · rw [after_of_error hrun]
        exact insert_eq_union event s.processedEventIds
      · have haccepted := hall event (List.mem_singleton_self event) hdone
        rw [hrefused] at haccepted
        cases haccepted
  · have hrun := apply_of_open hagree hdone
    rw [h.expected_eq] at hrun
    rw [Lane.apply_of_accepted hconflict fun hcompleted => absurd hcompleted hdone]
    exact carries_of_moved hrun (hadvanced _ _) h.advanced.2 rfl
      fun hcompleted => absurd hcompleted hdone

/-- Applying an event leaves the ledger alone and returns, or the payment has
    moved to its last position. -/
theorem apply_cases (event : PaymentEvent) (h : s.Shows owner base lane) :
    (∃ t, (apply event owner).run s = .ok () t ∧ t.ledger = s.ledger) ∨
      (lane.apply s.accepts event).state.lastSequence = 4 := by
  by_cases hconflict : lane.Conflicts event
  · exact Or.inl ⟨_, apply_of_conflict (h.conflicts_iff.mpr hconflict), rfl⟩
  by_cases hdone : event.eventType = .completed
  · right
    rw [Lane.apply_state, if_neg hconflict]
    exact event.completed_iff.mp hdone
  · exact Or.inl ⟨_, apply_of_open ((not_congr h.conflicts_iff).mpr hconflict) hdone, rfl⟩

/-- A payment with an empty place at its next position is not drained. -/
theorem drainRounds_of_shown (h : s.Shows owner base lane)
    (hnone : lane.buffer.get? lane.expected = none) (rounds : Nat) :
    (drainRounds owner rounds).run s = .ok () s := by
  refine drainRounds_of_none rounds ?_
  rw [h.buffer, h.expected_eq]
  exact hnone

/-- Applying an event and draining after it. At the last position of the
    payment there is nothing left to drain, whether or not the ledger has
    accepted the completion. -/
theorem apply_then_carries (event : PaymentEvent) (rest : Action OrderedEventProcessor Unit)
    (rounds : Nat) (h : s.Shows owner base lane) (hkeyed : lane.Keyed owner)
    (hrest : ∀ t : OrderedEventProcessor, t.Shows owner base (lane.apply s.accepts event) →
      Carries rest owner base t ((lane.apply s.accepts event).drain t.accepts rounds)
        ((lane.apply s.accepts event).drained t.accepts rounds)) :
    Carries (do apply event owner; rest) owner base s
      ((lane.apply s.accepts event).drain s.accepts rounds)
      (lane.moves event ++ (lane.apply s.accepts event).drained s.accepts rounds) := by
  have happly := apply_carries event h
  rcases apply_cases event h with ⟨t, hrun, hledger⟩ | hlast
  · have hshows := happly.shows
    rw [after_of_ok hrun] at hshows
    have haccepts : t.accepts = s.accepts := by
      unfold accepts
      rw [hledger]
    have hdrain := hrest t hshows
    rw [haccepts] at hdrain
    exact happly.bind hrun (fun _ _ => by rw [haccepts]) hdrain
  · have hnone := Lane.none_of_four (Lane.holds_apply hkeyed) hlast
    have hstays := fun accepts : PaymentEvent → Bool => Lane.drain_of_none accepts rounds hnone
    rw [(hstays s.accepts).1, (hstays s.accepts).2]
    cases hrun : (apply event owner).run s with
    | ok a t =>
        have hshows := happly.shows
        rw [after_of_ok hrun] at hshows
        have hdrain := hrest t hshows
        rw [(hstays t.accepts).1, (hstays t.accepts).2] at hdrain
        exact happly.bind hrun (fun c hc => absurd hc List.not_mem_nil) hdrain
    | error e t =>
        rw [List.append_nil]
        exact happly.congr ((run_bind_of_error hrun).trans hrun.symm) (fun _ _ => ⟨rfl, rfl⟩) rfl
          rfl

/-- The loop acts on the lane as the function does. -/
theorem drainRounds_carries (rounds : Nat) (h : s.Shows owner base lane)
    (hkeyed : lane.Keyed owner) :
    Carries (drainRounds owner rounds) owner base s (lane.drain s.accepts rounds)
      (lane.drained s.accepts rounds) := by
  induction rounds generalizing s lane with
  | zero => exact carries_of_ok rfl h (fun _ _ => ⟨rfl, rfl⟩) rfl
  | succ rounds ih =>
      cases hget : lane.buffer.get? lane.expected with
      | none =>
          rw [(Lane.drain_of_none _ _ hget).1, (Lane.drain_of_none _ _ hget).2]
          exact carries_of_ok (drainRounds_of_shown h hget _) h (fun _ _ => ⟨rfl, rfl⟩) rfl
      | some event =>
          rw [(Lane.drain_of_some _ _ hget).1, (Lane.drain_of_some _ _ hget).2]
          have hget' : (s.bufferOf owner).get? ((s.stateOf owner).lastSequence + 1)
              = some event := by
            rw [h.buffer, h.expected_eq]
            exact hget
          have hbuffers := s.buffers_withBuffer owner
            ((s.bufferOf owner).erase ((s.stateOf owner).lastSequence + 1))
          -- The event in hand is no longer in the buffer.
          have hpopped : (s.withBuffer owner ((s.bufferOf owner).erase
              ((s.stateOf owner).lastSequence + 1))).Shows owner base lane.take := by
            refine ⟨h.state, ?_, h.results⟩
            rw [hbuffers, if_pos rfl, h.buffer, h.expected_eq]
            rfl
          have hrest := apply_then_carries event _ rounds hpopped
            (Lane.holds_take hkeyed) fun t hshows =>
              ih hshows (Lane.holds_apply (Lane.holds_take hkeyed))
          refine hrest.congr (drainRounds_of_some rounds hget') (fun paymentId hne => ⟨rfl, ?_⟩) rfl
            rfl
          rw [hbuffers, if_neg hne]

/-- A default in the dictionary of buffers is not seen. -/
theorem Shows.setdefault (h : s.Shows owner base lane) (paymentId : String) :
    ({ s with buffers := s.buffers.setdefault paymentId Dict.empty } :
      OrderedEventProcessor).Shows owner base lane :=
  ⟨h.state, (s.bufferOf_setdefault paymentId owner).trans h.buffer, h.results⟩

theorem drain_carries (h : s.Shows owner base lane) (hkeyed : lane.Keyed owner) :
    Carries (drain owner) owner base s (lane.drain s.accepts lane.buffer.items.length)
      (lane.drained s.accepts lane.buffer.items.length) := by
  have hshows := h.setdefault owner
  have hrun : (drain owner).run s = (drainRounds owner lane.buffer.items.length).run
      { s with buffers := s.buffers.setdefault owner Dict.empty } := by
    rw [← hshows.buffer]
    rfl
  exact (drainRounds_carries _ hshows hkeyed).congr hrun
    (fun paymentId _ => ⟨rfl, s.bufferOf_setdefault owner paymentId⟩) rfl rfl

/-- Keeping an event for later moves no payment. -/
theorem hold_carries (h : s.Shows event.paymentId base lane) :
    Carries (hold event lane.expected) event.paymentId base s (lane.hold event) [] := by
  have hshows := h.setdefault event.paymentId
  have hstart : (hold event lane.expected).run s = (do
      let self ← get
      if event.sequence.value ∈ self.bufferOf event.paymentId then
        record event .rejected lane.expected
      else do
        modify fun self =>
          { self.withBuffer event.paymentId
              ((self.bufferOf event.paymentId).set event.sequence.value event) with
            outOfOrder := self.outOfOrder + 1
            buffered := self.buffered + 1 }
        record event .buffered lane.expected : Action OrderedEventProcessor Unit).run
      { s with buffers := s.buffers.setdefault event.paymentId Dict.empty } := rfl
  refine Carries.congr ?_ hstart
    (fun paymentId _ => ⟨rfl, s.bufferOf_setdefault event.paymentId paymentId⟩) rfl rfl
  generalize ({ s with buffers := s.buffers.setdefault event.paymentId Dict.empty } :
    OrderedEventProcessor) = s' at hshows ⊢
  by_cases htaken : event.sequence.value ∈ lane.buffer
  · rw [Lane.hold, if_pos htaken]
    rw [← hshows.buffer] at htaken
    refine (record_carries event .rejected hshows).congr ?_ (fun _ _ => ⟨rfl, rfl⟩) rfl rfl
    rw [run_bind_get, if_pos htaken]
  · rw [Lane.hold, if_neg htaken]
    rw [← hshows.buffer] at htaken
    have hbuffers := s'.buffers_withBuffer event.paymentId
      ((s'.bufferOf event.paymentId).set event.sequence.value event)
    -- The event is put into the buffer before the decision is recorded.
    have hset : Shows { s'.withBuffer event.paymentId
          ((s'.bufferOf event.paymentId).set event.sequence.value event) with
        outOfOrder := s'.outOfOrder + 1
        buffered := s'.buffered + 1 } event.paymentId base
          { lane with buffer := lane.buffer.set event.sequence.value event } := by
      refine ⟨hshows.state, ?_, hshows.results⟩
      refine (hbuffers event.paymentId).trans ?_
      rw [if_pos rfl, hshows.buffer]
    have hrecord := record_carries event .buffered hset
    refine hrecord.congr ?_ (fun paymentId hne => ⟨rfl, ?_⟩) rfl rfl
    · rw [run_bind_get, if_neg htaken, run_bind_modify]
      rfl
    · exact (hbuffers paymentId).trans (if_neg hne)

/-- The decision about a delivery, and what follows from it. -/
theorem dispatch_carries (h : s.Shows event.paymentId base lane)
    (hkeyed : lane.Keyed event.paymentId) :
    Carries (dispatch event) event.paymentId base s
      (lane.deliver s.accepts (decide (event.eventId ∈ s.processedEventIds)) event)
      (lane.movedBy s.accepts (decide (event.eventId ∈ s.processedEventIds)) event) := by
  have hexpected := h.expected_eq
  have hrevision : (s.stateOf event.paymentId).lastRevision = lane.state.lastRevision := by
    rw [h.state]
  rw [Lane.deliver, Lane.movedBy, Lane.drainedBy]
  by_cases hknown : event.eventId ∈ s.processedEventIds
  · rw [if_pos (decide_eq_true hknown), if_neg fun hexpects => ?_, if_neg fun hexpects => ?_]
    · refine (record_carries event .duplicate h).congr ?_ (fun _ _ => ⟨rfl, rfl⟩) rfl rfl
      rw [dispatch, run_bind_get, if_pos hknown, hexpected]
    all_goals exact absurd hknown (of_decide_eq_false hexpects.1)
  rw [if_neg (by simpa using hknown)]
  by_cases hstale : event.sequence.value ≤ lane.state.lastSequence ∨
      event.revision.value ≤ lane.state.lastRevision
  · rw [if_pos hstale, if_neg fun hexpects => ?_, if_neg fun hexpects => ?_]
    · refine (record_carries event .stale h).congr ?_ (fun _ _ => ⟨rfl, rfl⟩) rfl rfl
      rw [← h.state] at hstale
      rw [dispatch, run_bind_get, if_neg hknown, if_pos hstale, hexpected]
    all_goals
      rcases hexpects with ⟨-, hsequence, hrevised, -⟩
      omega
  rw [if_neg hstale]
  by_cases hlater : event.sequence.value > lane.expected
  · rw [if_pos hlater, if_neg fun hexpects => ?_, if_neg fun hexpects => ?_]
    · refine (hold_carries h).congr ?_ (fun _ _ => ⟨rfl, rfl⟩) rfl rfl
      rw [← h.state] at hstale
      rw [← hexpected] at hlater
      rw [dispatch, run_bind_get, if_neg hknown, if_neg hstale, if_pos hlater, hexpected]
    all_goals
      rcases hexpects with ⟨-, -, -, hle⟩
      omega
  · -- What is left is the event the payment is waiting for.
    have hexpects : lane.Expects (decide (event.eventId ∈ s.processedEventIds)) event :=
      ⟨decide_eq_false hknown, by omega, by omega, by omega⟩
    rw [if_neg hlater, if_pos hexpects, if_pos hexpects]
    have hrest := apply_then_carries event (drain event.paymentId)
      lane.buffer.items.length h hkeyed fun t hshows => by
        have hdrain := drain_carries hshows (Lane.holds_apply hkeyed)
        rwa [Lane.apply_buffer] at hdrain
    refine hrest.congr ?_ (fun _ _ => ⟨rfl, rfl⟩) rfl rfl
    rw [← h.state] at hstale
    rw [← hexpected] at hlater
    rw [dispatch, run_bind_get, if_neg hknown, if_neg hstale, if_neg hlater]

/-- Reading from the state afterwards changes nothing. -/
theorem Carries.returning {α : Type} {m : Action OrderedEventProcessor Unit}
    {moved : List PaymentEvent} (h : Carries m owner base s lane moved)
    (f : OrderedEventProcessor → α) :
    Carries (do m; return f (← get)) owner base s lane moved := by
  cases hrun : m.run s with
  | ok a t =>
      have hread : Carries (do return f (← get)) owner base t lane [] := by
        have hshows := h.shows
        rw [after_of_ok hrun] at hshows
        exact carries_of_ok rfl hshows (fun _ _ => ⟨rfl, rfl⟩) rfl
      have hboth := h.bind (f := fun _ => do return f (← get)) hrun
        (fun c hc => absurd hc List.not_mem_nil) hread
      rwa [List.append_nil] at hboth
  | error e t =>
      have hboth : (do m; return f (← get)).run s = .error e t := run_bind_of_error hrun
      refine ⟨?_, ?_, ?_, ?_⟩
      · rw [after_of_error hboth, ← after_of_error hrun]
        exact h.shows
      · rw [after_of_error hboth, ← after_of_error hrun]
        exact h.others
      · rw [after_of_error hboth, ← after_of_error hrun]
        exact h.processed
      · rw [← h.returns]
        exact iff_of_false (not_not.mpr ⟨e, t, hboth⟩) (not_not.mpr ⟨e, t, hrun⟩)

end Programs

/-- What the processor keeps for a payment when a delivery begins. -/
def lane (self : OrderedEventProcessor) (paymentId : String) : Lane :=
  ⟨self.stateOf paymentId, self.bufferOf paymentId, []⟩

/-- Whether the identifier of an event is known. -/
def knows (self : OrderedEventProcessor) (event : PaymentEvent) : Bool :=
  decide (event.eventId ∈ self.processedEventIds)

/-- A delivery acts on the lane of its payment. -/
theorem receive_carries (event : PaymentEvent) (s : OrderedEventProcessor)
    (hkeyed : (s.lane event.paymentId).Keyed event.paymentId) :
    Carries (receive event) event.paymentId s.results s
      ((s.lane event.paymentId).deliver s.accepts (s.knows event) event)
      ((s.lane event.paymentId).movedBy s.accepts (s.knows event) event) := by
  have hrun : (receive event).run s = (do
      dispatch event
      return (← get).results.drop s.results.length :
        Action OrderedEventProcessor (List EventProcessingResult)).run
      { s with
        eventsReceived := s.eventsReceived + 1
        states := s.states.setdefault event.paymentId PaymentOrderingState.new } := rfl
  have hstates : ({ s with
      eventsReceived := s.eventsReceived + 1
      states := s.states.setdefault event.paymentId PaymentOrderingState.new } :
        OrderedEventProcessor).stateOf = s.stateOf :=
    congrArg OrderingView.states (s.view_setdefault_states event.paymentId)
  -- A fresh state for a new payment is what reading shows anyway.
  have hshows : ({ s with
      eventsReceived := s.eventsReceived + 1
      states := s.states.setdefault event.paymentId PaymentOrderingState.new } :
        OrderedEventProcessor).Shows event.paymentId s.results (s.lane event.paymentId) :=
    ⟨congrFun hstates event.paymentId, rfl, (List.append_nil _).symm⟩
  have hdispatch := (dispatch_carries hshows hkeyed).returning
    fun self => self.results.drop s.results.length
  exact hdispatch.congr hrun (fun paymentId _ => ⟨congrFun hstates paymentId, rfl⟩) rfl rfl

/-- Between deliveries every buffer holds the events of its payment by their
    positions, and nothing is left to drain. -/
def Resting (self : OrderedEventProcessor) : Prop :=
  ∀ paymentId, (self.lane paymentId).Keyed paymentId ∧ (self.lane paymentId).Exhausted

theorem resting_new (ledger : Ledger) : (new ledger).Resting := by
  intro paymentId
  exact ⟨fun position event hget => (nomatch hget), rfl⟩

/-- Whether a delivery returns or raises, it leaves things that way. -/
theorem resting_receive (event : PaymentEvent) {s : OrderedEventProcessor} (h : s.Resting) :
    (after (receive event) s).Resting := by
  have hcarries := receive_carries event s (h event.paymentId).1
  intro paymentId
  by_cases howner : paymentId = event.paymentId
  · rw [howner]
    have hkeyed := Lane.holds_deliver s.accepts (s.knows event)
      (h event.paymentId).1 ⟨rfl, rfl⟩
    have hend := Lane.exhausted_deliver s.accepts event (s.knows event)
      (h event.paymentId).1 (h event.paymentId).2
    unfold Lane.Holds Lane.Exhausted Lane.expected at *
    rw [lane, hcarries.shows.state, hcarries.shows.buffer]
    exact ⟨hkeyed, hend⟩
  · rw [lane, (hcarries.others paymentId howner).1, (hcarries.others paymentId howner).2]
    exact h paymentId

/-- A delivery records as processed the events it moves its payment to, but
    for a completion that the ledger refuses. -/
theorem receive_processed (event : PaymentEvent) {s : OrderedEventProcessor} (h : s.Resting) :
    processedEvents (after (receive event) s).results = processedEvents s.results
      ++ ((s.lane event.paymentId).movedBy s.accepts (s.knows event) event).filter
        (recorded s.accepts) := by
  have hcarries := receive_carries event s (h event.paymentId).1
  rw [hcarries.shows.results, processedEvents_append, Lane.deliver_processed]
  rfl

end OrderedEventProcessor

end BankSim
