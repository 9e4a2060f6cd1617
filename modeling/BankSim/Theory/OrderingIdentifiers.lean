import BankSim.Theory.OrderingAtomicity
import BankSim.Theory.OrderingLanes
import BankSim.Library.Run

/-!
# How Often an Identifier Is Applied

An event whose identifier was processed before is a duplicate, and a delivery
checks that. What it drains from the buffer afterwards it does not check: an
event that waits there may carry the identifier of the one that lets it go,
of another that waited with it, or of one that was processed in the meantime.

Which events those are can be told from what is there before the delivery. The
delivered one has to be the next of its payment, under a new identifier and with
the amount of the payment. Then the buffer lets go what it leads to from there
without a gap in amount or position, except for a completion that the ledger
refuses.

So an identifier is applied at most once exactly when these events have new
identifiers. The direction that matters says that this is the only way out:
whatever is delivered, in whichever order and over any ledger, as long as every
delivery lets go new identifiers, no identifier is in the log as processed
twice. Conversely the first delivery that lets go an old one leaves it in the
log twice.

## Main definitions

* `OrderedEventProcessor.AppliesOnce`: No identifier is applied twice.
* `OrderedEventProcessor.Moves`: The delivered event is the next of its payment.
* `OrderedEventProcessor.LetsGo`: A buffered event that it leads to.
* `OrderedEventProcessor.LetsGoNew`: These events have new identifiers.

## Theorems

* `mem_drainedEvents_iff`: What is drained, told from the buffer before.
* `appliesOnce_receive_iff`: One delivery.
* `eventIds_applied_once_iff`: A run of deliveries.
* `heldTwin_applied_twice`: An identifier that is applied twice.
-/

namespace BankSim

open Exec

namespace OrderedEventProcessor

/-- Every identifier occurs in at most one result that says an event was
    processed. -/
def AppliesOnce (self : OrderedEventProcessor) : Prop :=
  ∀ eventId, (self.results.countP fun result =>
    result.decision = .processed ∧ result.event.eventId = eventId) ≤ 1

theorem appliesOnce_iff (self : OrderedEventProcessor) :
    self.AppliesOnce ↔ ((processedEvents self.results).map (·.eventId)).Nodup := by
  rw [AppliesOnce, List.nodup_iff_count_le_one]
  refine forall_congr' fun eventId => ?_
  rw [processedEvents, List.map_map, List.count, List.countP_map, List.countP_filter]
  have hsame : ∀ result : EventProcessingResult,
      (decide (result.decision = .processed ∧ result.event.eventId = eventId))
        = (((fun x => x == eventId) ∘ (·.eventId) ∘ (·.event)) result
            && decide (result.decision = .processed)) := by
    intro result
    simp [Bool.and_comm, beq_eq_decide]
  simp only [hsame]

/-- The events that a delivery drains from the buffer and records. -/
def drainedEvents (self : OrderedEventProcessor) (event : PaymentEvent) : List PaymentEvent :=
  ((self.lane event.paymentId).drainedBy self.accepts (self.knows event) event).filter
    (recorded self.accepts)

/-- The delivered event is the next of its payment: its identifier is not known,
    its position is the expected one, and the payment has no other amount. -/
def Moves (self : OrderedEventProcessor) (event : PaymentEvent) : Prop :=
  event.eventId ∉ self.processedEventIds ∧
    event.sequence.value = (self.stateOf event.paymentId).lastSequence + 1 ∧
    ∀ amount ∈ (self.stateOf event.paymentId).amount, amount = event.amount

instance (self : OrderedEventProcessor) (event : PaymentEvent) : Decidable (self.Moves event) :=
  inferInstanceAs (Decidable (_ ∧ _ ∧ _))

/-- The buffer leads from the delivered event to a later one, and if that is a
    completion, the ledger takes its settlement. -/
def LetsGo (self : OrderedEventProcessor) (event later : PaymentEvent) : Prop :=
  Lane.LeadsTo (self.bufferOf event.paymentId) event.sequence.value event.amount later ∧
    (later.eventType = .completed → later.Settleable self.ledger)

instance (self : OrderedEventProcessor) (event later : PaymentEvent) :
    Decidable (self.LetsGo event later) :=
  inferInstanceAs (Decidable (_ ∧ _))

/-- If the delivered event moves its payment, the buffered events that it lets go
    have new identifiers: they differ from its own, from all that were processed
    and from one another. -/
def LetsGoNew (self : OrderedEventProcessor) (event : PaymentEvent) : Prop :=
  self.Moves event → ∀ later ∈ (self.bufferOf event.paymentId).values, self.LetsGo event later →
    later.eventId ≠ event.eventId ∧
      later.eventId ∉ (processedEvents self.results).map (·.eventId) ∧
      ∀ other ∈ (self.bufferOf event.paymentId).values, self.LetsGo event other →
        other.eventId = later.eventId → other = later

instance (self : OrderedEventProcessor) (event : PaymentEvent) :
    Decidable (self.LetsGoNew event) :=
  inferInstanceAs (Decidable (_ → _))

/-- Between deliveries nothing is left to drain, positions and revisions agree, and
    what is in the log as processed is known. -/
structure Recording (processor : OrderedEventProcessor) : Prop where
  resting : processor.Resting
  revised : ∀ paymentId, (processor.stateOf paymentId).lastRevision
    = (processor.stateOf paymentId).lastSequence
  known : ∀ event ∈ processedEvents processor.results,
    event.eventId ∈ processor.processedEventIds

theorem recording_new (ledger : Ledger) : (new ledger).Recording :=
  ⟨resting_new ledger, fun _ => rfl, fun _ hevent => absurd hevent List.not_mem_nil⟩

variable {s : OrderedEventProcessor}

theorem Recording.receive (h : s.Recording) (event : PaymentEvent) :
    (after (OrderedEventProcessor.receive event) s).Recording := by
  have hcarries := receive_carries event s (h.resting event.paymentId).1
  refine ⟨resting_receive event h.resting, fun paymentId => ?_, fun later hlater => ?_⟩
  · by_cases howner : paymentId = event.paymentId
    · rw [howner, hcarries.shows.state]
      exact Lane.revision_deliver _ (h.revised event.paymentId)
    · rw [(hcarries.others paymentId howner).1]
      exact h.revised paymentId
  · rw [receive_processed event h.resting, List.mem_append] at hlater
    rw [hcarries.processed, Finset.mem_union, List.mem_toFinset]
    rcases hlater with hlater | hlater
    · exact Or.inl (h.known later hlater)
    · exact Or.inr (List.mem_map_of_mem (List.mem_of_mem_filter hlater))

/-- The next event of a payment is the one that the code applies. -/
theorem moves_iff (h : s.Recording) (event : PaymentEvent) : s.Moves event ↔
    (s.lane event.paymentId).Expects (s.knows event) event ∧
      ¬ (s.lane event.paymentId).Conflicts event := by
  have hrevised := h.revised event.paymentId
  have hrevision := event.revision_eq_sequence
  have hamount : (∀ amount ∈ (s.stateOf event.paymentId).amount, amount = event.amount) ↔
      ¬ (s.lane event.paymentId).Conflicts event := by
    unfold Lane.Conflicts lane
    cases (s.stateOf event.paymentId).amount with
    | none => simp
    | some amount => simp
  have hexpects : (s.lane event.paymentId).Expects (s.knows event) event ↔
      event.eventId ∉ s.processedEventIds ∧
        (s.stateOf event.paymentId).lastSequence < event.sequence.value ∧
        (s.stateOf event.paymentId).lastRevision < event.revision.value ∧
        event.sequence.value ≤ (s.stateOf event.paymentId).lastSequence + 1 :=
    and_congr_left' decide_eq_false_iff_not
  rw [Moves, hamount, hexpects, ← and_assoc]
  refine and_congr_left' (and_congr_right' ?_)
  constructor
  · intro hnext
    omega
  · intro hnext
    omega

/-- A delivery that moves its payment drains, once each, the events that the
    buffer lets go. -/
theorem mem_drainedEvents_iff (h : s.Recording) {event : PaymentEvent} (hmoves : s.Moves event) :
    (s.drainedEvents event).Nodup ∧
      ∀ later, later ∈ s.drainedEvents event ↔ s.LetsGo event later := by
  rcases (moves_iff h event).mp hmoves with ⟨hexpects, hagree⟩
  have hbuffer : ((s.lane event.paymentId).apply s.accepts event).buffer
      = s.bufferOf event.paymentId := Lane.apply_buffer _ _ _
  have hstate : ((s.lane event.paymentId).apply s.accepts event).state
      = ((s.lane event.paymentId).advance event).state := by
    rw [Lane.apply_state, if_neg hagree]
  have hdrained := @Lane.drained_spec s.accepts event.paymentId
    ((s.lane event.paymentId).apply s.accepts event) event.amount
    (s.lane event.paymentId).buffer.items.length
    (Lane.holds_apply (h.resting event.paymentId).1) (by rw [hbuffer]; exact le_rfl)
    (by rw [hstate]; rfl)
  rw [hbuffer, hstate] at hdrained
  unfold drainedEvents Lane.drainedBy
  rw [if_pos hexpects]
  refine ⟨hdrained.1.filter _, fun later => ?_⟩
  rw [List.mem_filter, hdrained.2 later, recorded, decide_eq_true_iff]
  refine and_congr_right' (forall_congr' fun hdone => ?_)
  exact decide_eq_true_iff

/-- Only a delivery that moves its payment drains the buffer. -/
theorem drainedEvents_of_not_moves (h : s.Recording) {event : PaymentEvent}
    (hmoves : ¬ s.Moves event) : s.drainedEvents event = [] := by
  have hresting := h.resting event.paymentId
  rw [moves_iff h, not_and_or, not_not] at hmoves
  unfold drainedEvents
  rcases hmoves with hexpects | hconflict
  · rw [Lane.drainedBy, if_neg hexpects, List.filter_nil]
  · rw [Lane.drainedBy_eq_nil _ hresting.1 hresting.2 (Or.inl hconflict), List.filter_nil]

/-- What the buffer lets go is new exactly when what is drained is. -/
theorem letsGoNew_iff (h : s.Recording) (event : PaymentEvent) : s.LetsGoNew event ↔
    ((s.drainedEvents event).map (·.eventId)).Nodup ∧
      ∀ later ∈ s.drainedEvents event, later.eventId ≠ event.eventId ∧
        later.eventId ∉ (processedEvents s.results).map (·.eventId) := by
  by_cases hmoves : s.Moves event
  · rcases mem_drainedEvents_iff h hmoves with ⟨hnodup, hmem⟩
    have hvalue : ∀ later, s.LetsGo event later → later ∈ (s.bufferOf event.paymentId).values :=
      fun later hlets => (Dict.mem_values_iff _ _).mpr ⟨_, hlets.1.2.1⟩
    rw [List.nodup_map_iff_inj_on hnodup]
    simp only [hmem]
    constructor
    · intro hnew
      refine ⟨fun a ha b hb hsame => ?_, fun later hlets => ?_⟩
      · exact (hnew hmoves b (hvalue b hb) hb).2.2 a (hvalue a ha) ha hsame
      · rcases hnew hmoves later (hvalue later hlets) hlets with ⟨hown, hold, -⟩
        exact ⟨hown, hold⟩
    · rintro ⟨hapart, hnew⟩ - later - hlets
      exact ⟨(hnew later hlets).1, (hnew later hlets).2,
        fun other _ hother hsame => hapart other hother later hlets hsame⟩
  · rw [drainedEvents_of_not_moves h hmoves]
    simp [LetsGoNew, hmoves]

/-- The events that a delivery records are the delivered one, if it is the
    next, and the drained ones. -/
theorem recorded_cases (h : s.Recording) (event : PaymentEvent) :
    (((s.lane event.paymentId).movedBy s.accepts (s.knows event) event).filter
          (recorded s.accepts) = event :: s.drainedEvents event ∧
        event.eventId ∉ s.processedEventIds) ∨
      (((s.lane event.paymentId).movedBy s.accepts (s.knows event) event).filter
          (recorded s.accepts) = [] ∧ s.drainedEvents event = []) := by
  have hresting := h.resting event.paymentId
  rw [drainedEvents, Lane.movedBy, List.filter_append]
  by_cases hexpects : (s.lane event.paymentId).Expects (s.knows event) event
  · rw [if_pos hexpects, Lane.moves]
    by_cases hconflict : (s.lane event.paymentId).Conflicts event
    · rw [if_pos hconflict, Lane.drainedBy_eq_nil _ hresting.1 hresting.2 (Or.inl hconflict)]
      exact Or.inr ⟨rfl, rfl⟩
    rw [if_neg hconflict]
    by_cases hrecorded : recorded s.accepts event = true
    · rw [List.filter_cons_of_pos hrecorded]
      exact Or.inl ⟨rfl, of_decide_eq_false hexpects.1⟩
    · -- An event that is not recorded is a completion, and nothing follows it.
      have hdone : event.eventType = .completed := by
        by_contra hopen
        exact hrecorded (decide_eq_true fun hcompleted => absurd hcompleted hopen)
      rw [List.filter_cons_of_neg hrecorded,
        Lane.drainedBy_eq_nil _ hresting.1 hresting.2 (Or.inr hdone)]
      exact Or.inr ⟨rfl, rfl⟩
  · rw [if_neg hexpects, Lane.drainedBy, if_neg hexpects]
    exact Or.inr ⟨rfl, rfl⟩

/-- A delivery keeps identifiers from being applied twice exactly when it lets go
    new ones. -/
theorem appliesOnce_receive_iff (h : s.Recording) (honce : s.AppliesOnce) (event : PaymentEvent) :
    (after (OrderedEventProcessor.receive event) s).AppliesOnce ↔ s.LetsGoNew event := by
  rw [appliesOnce_iff] at honce ⊢
  rw [letsGoNew_iff h, receive_processed event h.resting, List.map_append, List.nodup_append',
    and_iff_right honce]
  rcases recorded_cases h event with ⟨hrecorded, hfresh⟩ | ⟨hrecorded, hnone⟩
  · -- The delivered event was checked, so only the drained ones are in question.
    have hnew : event.eventId ∉ (processedEvents s.results).map (·.eventId) := by
      intro hmem
      rcases List.mem_map.mp hmem with ⟨later, hlater, hsame⟩
      exact hfresh (hsame ▸ h.known later hlater)
    rw [hrecorded, List.map_cons, List.nodup_cons, List.disjoint_cons_right]
    constructor
    · rintro ⟨⟨hdistinct, hnodup⟩, -, hdisjoint⟩
      refine ⟨hnodup, fun later hlater => ⟨fun hsame => hdistinct ?_, fun hmem => ?_⟩⟩
      · rw [← hsame]
        exact List.mem_map_of_mem hlater
      · exact hdisjoint hmem (List.mem_map_of_mem hlater)
    · rintro ⟨hnodup, hall⟩
      refine ⟨⟨fun hmem => ?_, hnodup⟩, hnew, fun eventId hold hmem => ?_⟩
      · rcases List.mem_map.mp hmem with ⟨later, hlater, hsame⟩
        exact (hall later hlater).1 hsame
      · rcases List.mem_map.mp hmem with ⟨later, hlater, rfl⟩
        exact (hall later hlater).2 hold
  · rw [hrecorded, hnone]
    simp

end OrderedEventProcessor

/-- Over any deliveries to a processor on any ledger, no identifier is ever
    applied twice exactly when every delivery lets go new ones. -/
theorem eventIds_applied_once_iff (ledger : Ledger) (events : List PaymentEvent) :
    AllStates OrderedEventProcessor.receive OrderedEventProcessor.AppliesOnce
        (OrderedEventProcessor.new ledger) events ↔
      AllSteps OrderedEventProcessor.receive OrderedEventProcessor.LetsGoNew
        (OrderedEventProcessor.new ledger) events := by
  have hstart : (OrderedEventProcessor.new ledger).AppliesOnce := fun _ => Nat.zero_le 1
  rw [allStates_iff_after, and_iff_right hstart]
  refine allSteps_congr (I := fun s => s.Recording ∧ s.AppliesOnce) (fun s event hs hnew => ?_)
    (fun s event hs => OrderedEventProcessor.appliesOnce_receive_iff hs.1 hs.2 event)
    ⟨OrderedEventProcessor.recording_new ledger, hstart⟩ events
  exact ⟨hs.1.receive event,
    (OrderedEventProcessor.appliesOnce_receive_iff hs.1 hs.2 event).mpr hnew⟩

/-- A second event under the identifier of the first of its workflow. -/
def heldTwin : List PaymentEvent :=
  [ { workflowEvent "PAY-A" .validated 1 with
      eventId := "EVENT-X", eventId_nonblank := Eq.refl false },
    { workflowEvent "PAY-A" .received 2 with
      eventId := "EVENT-X", eventId_nonblank := Eq.refl false } ]

/-- The second event waits for the first, and is let go by it under the same
    identifier. -/
theorem heldTwin_applied_twice :
    ((processedEvents (finalState OrderedEventProcessor.receive
        (OrderedEventProcessor.new orderingLedger) heldTwin).results).map (·.eventId))
        = ["EVENT-X", "EVENT-X"] ∧
      ¬ AllStates OrderedEventProcessor.receive OrderedEventProcessor.AppliesOnce
        (OrderedEventProcessor.new orderingLedger) heldTwin := by
  have hlog : ((processedEvents (finalState OrderedEventProcessor.receive
      (OrderedEventProcessor.new orderingLedger) heldTwin).results).map (·.eventId))
        = ["EVENT-X", "EVENT-X"] := by
    decide +kernel
  refine ⟨hlog, fun hstates => ?_⟩
  have hlast := (OrderedEventProcessor.appliesOnce_iff _).mp (allStates_finalState hstates)
  rw [hlog] at hlast
  exact absurd hlast (by decide)

end BankSim
