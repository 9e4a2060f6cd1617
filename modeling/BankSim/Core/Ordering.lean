import BankSim.Core.Ledger
import BankSim.Library.Dict

/-!
# Ordered Payment Events

`ordering.py`: events of payments that may arrive in any order, applied in
the order of their sequence numbers.

The processor keeps, for every payment, how far its workflow has come and the
events that arrived too early. An event at the expected position is applied,
and after it every buffered event that is now expected. The last position of
a workflow has the financial effect, one debit on the shared ledger, and it
comes after the state of the payment has moved on and the identifier of the
event has been recorded.

States are mutable objects that are created in their dictionary and never
leave it, so a reference to one is the payment it is kept under. A buffer is
read the same way. `_drain` runs as long as the next event is buffered and
takes it out each time; the loop is given as many rounds as there are events
in the buffer.

## Main definitions

* `PaymentEvent`: One event of one payment.
* `OrderedEventProcessor`: Ledger, states, buffers and what was processed.
* `OrderedEventProcessor.receive`: Receive one delivery.
* `OrderedEventProcessor.apply`: Apply the expected event.
* `OrderedEventProcessor.drain`: Apply what the buffer has ready.
* `orderingLedger`: The ledger the scenarios start from.
* `processEvents`: Deliver events to a new processor.
-/

namespace BankSim

open Exec

/-- Position of an event in one payment's workflow. -/
@[ext]
structure EventSequence where
  value : Int
  value_pos : 0 < value := by exact numeral_pos passes
  deriving Repr

instance : DecidableEq EventSequence :=
  fun _ _ => decidable_of_iff _ EventSequence.ext_iff.symm

def EventSequence.new (value : Int) : Except Raised EventSequence :=
  if h : value < 1 then
    .error (valueError "event sequence must be a positive integer")
  else
    .ok ⟨value, pos_of_not_lt h⟩

/-- Version used to prevent older facts from replacing newer state. -/
@[ext]
structure EventRevision where
  value : Int
  value_pos : 0 < value := by exact numeral_pos passes
  deriving Repr

instance : DecidableEq EventRevision :=
  fun _ _ => decidable_of_iff _ EventRevision.ext_iff.symm

def EventRevision.new (value : Int) : Except Raised EventRevision :=
  if h : value < 1 then
    .error (valueError "event revision must be a positive integer")
  else
    .ok ⟨value, pos_of_not_lt h⟩

inductive PaymentEventType
  | received
  | validated
  | queued
  | completed
  deriving DecidableEq, Repr

def PaymentEventType.value : PaymentEventType → String
  | .received => "PaymentReceived"
  | .validated => "PaymentValidated"
  | .queued => "PaymentQueued"
  | .completed => "PaymentCompleted"

/-- `_EVENT_FOR_SEQUENCE.get`. -/
def eventForSequence (sequence : Int) : Option PaymentEventType :=
  if sequence = 1 then some .received
  else if sequence = 2 then some .validated
  else if sequence = 3 then some .queued
  else if sequence = 4 then some .completed
  else none

/-- One scripted event with distinct creation and delivery positions. -/
@[ext]
structure PaymentEvent where
  paymentId : String
  eventId : String
  sequence : EventSequence
  revision : EventRevision
  eventType : PaymentEventType
  creationOrder : Int
  arrivalOrder : Int
  amount : Money
  paymentId_nonblank : isBlank paymentId = false := by exact Eq.refl false
  eventId_nonblank : isBlank eventId = false := by exact Eq.refl false
  creationOrder_pos : 0 < creationOrder := by exact numeral_pos passes
  arrivalOrder_pos : 0 < arrivalOrder := by exact numeral_pos passes
  revision_eq_sequence : revision.value = sequence.value := by decide
  eventType_of_sequence : eventForSequence sequence.value = some eventType := by decide
  deriving Repr

instance : DecidableEq PaymentEvent :=
  fun _ _ => decidable_of_iff _ PaymentEvent.ext_iff.symm

/-- The constructor, with the checks of `__post_init__` in their order. -/
def PaymentEvent.new (paymentId eventId : String) (sequence : EventSequence)
    (revision : EventRevision) (eventType : PaymentEventType) (creationOrder arrivalOrder : Int)
    (amount : Money) : Except Raised PaymentEvent :=
  if hid : isBlank paymentId ∨ isBlank eventId then
    .error (valueError "payment and event identifiers cannot be blank")
  else if hor : creationOrder < 1 ∨ arrivalOrder < 1 then
    .error (valueError "creation and arrival order must be positive")
  else if hre : sequence.value ≠ revision.value then
    .error (valueError "the teaching workflow uses matching sequence and revision")
  else if hty : eventForSequence sequence.value ≠ some eventType then
    .error (valueError "event type does not match its workflow sequence")
  else
    .ok
      { paymentId, eventId, sequence, revision, eventType, creationOrder, arrivalOrder, amount
        paymentId_nonblank := by simpa using (not_or.mp hid).1
        eventId_nonblank := by simpa using (not_or.mp hid).2
        creationOrder_pos := by omega
        arrivalOrder_pos := by omega
        revision_eq_sequence := (not_not.mp hre).symm
        eventType_of_sequence := not_not.mp hty }

/-- An event is at one of the four positions of its workflow. -/
theorem PaymentEvent.sequence_le (event : PaymentEvent) : event.sequence.value ≤ 4 := by
  have h := event.eventType_of_sequence
  unfold eventForSequence at h
  split_ifs at h <;> omega

/-- The completion is the event at the fourth position. -/
theorem PaymentEvent.completed_iff (event : PaymentEvent) :
    event.eventType = .completed ↔ event.sequence.value = 4 := by
  have h := event.eventType_of_sequence
  unfold eventForSequence at h
  split_ifs at h with h1 h2 h3 h4 <;> rw [← Option.some.inj h]
  · exact iff_of_false (by decide) (by omega)
  · exact iff_of_false (by decide) (by omega)
  · exact iff_of_false (by decide) (by omega)
  · exact iff_of_true rfl h4

inductive ProcessingDecision
  | processed
  | buffered
  | stale
  | duplicate
  | rejected
  deriving DecidableEq, Repr

def ProcessingDecision.value : ProcessingDecision → String
  | .processed => "processed"
  | .buffered => "buffered: waiting for an earlier event"
  | .stale => "rejected: stale revision"
  | .duplicate => "rejected: event already processed"
  | .rejected => "rejected: conflicting buffered event"

structure EventProcessingResult where
  event : PaymentEvent
  decision : ProcessingDecision
  expectedSequence : Int
  deriving DecidableEq, Repr

/-- `_PaymentOrderingState`. -/
structure PaymentOrderingState where
  lastSequence : Int
  lastRevision : Int
  finalState : String
  amount : Option Money
  deriving DecidableEq, Repr

def PaymentOrderingState.new : PaymentOrderingState :=
  ⟨0, 0, "Not started", none⟩

structure OrderingStatistics where
  eventsReceived : Nat
  eventsProcessed : Nat
  staleEvents : Nat
  outOfOrderEvents : Nat
  bufferedEvents : Nat
  rejectedEvents : Nat
  duplicateEvents : Nat
  ledgerEntriesCreated : Nat
  deriving DecidableEq, Repr

/-- Buffer future events and apply only the next fresh workflow fact. -/
structure OrderedEventProcessor where
  ledger : Ledger
  states : Dict String PaymentOrderingState
  buffers : Dict String (Dict Int PaymentEvent)
  processedEventIds : Finset String
  results : List EventProcessingResult
  eventsReceived : Nat
  outOfOrder : Nat
  buffered : Nat
  ledgerEntriesCreated : Nat
  deriving DecidableEq

namespace OrderedEventProcessor

def new (ledger : Ledger) : OrderedEventProcessor :=
  ⟨ledger, Dict.empty, Dict.empty, ∅, [], 0, 0, 0, 0⟩

def ledgerOf : Component OrderedEventProcessor Ledger where
  get self := self.ledger
  set ledger self := { self with ledger }
  get_set _ _ := rfl
  set_get _ := rfl
  set_set _ _ _ := rfl

/-- The state kept for a payment. One that is not there yet is new. -/
def stateOf (self : OrderedEventProcessor) (paymentId : String) : PaymentOrderingState :=
  (self.states.get? paymentId).getD PaymentOrderingState.new

/-- The buffer kept for a payment. One that is not there yet is empty. -/
def bufferOf (self : OrderedEventProcessor) (paymentId : String) : Dict Int PaymentEvent :=
  (self.buffers.get? paymentId).getD Dict.empty

/-- The processor with one buffer replaced. -/
def withBuffer (self : OrderedEventProcessor) (paymentId : String)
    (buffer : Dict Int PaymentEvent) : OrderedEventProcessor :=
  { self with buffers := self.buffers.set paymentId buffer }

/-- The processor once a payment has moved to an event: the five assignments
    `_apply` makes before it looks at the ledger. -/
def advanced (self : OrderedEventProcessor) (event : PaymentEvent) (owner : String) :
    OrderedEventProcessor :=
  { self with
    states := self.states.set owner
      { lastSequence := event.sequence.value
        lastRevision := event.revision.value
        finalState := event.eventType.value
        amount := some event.amount }
    processedEventIds := insert event.eventId self.processedEventIds }

/-- `_record`. -/
def record (event : PaymentEvent) (decision : ProcessingDecision) (expected : Int) :
    Action OrderedEventProcessor Unit :=
  modify fun self => { self with results := self.results ++ [⟨event, decision, expected⟩] }

/-- The financial effect of a completion. -/
def settle (event : PaymentEvent) : Action OrderedEventProcessor Unit := do
  let self ← get
  let entry ← LedgerEntry.new (event.paymentId ++ "-SETTLEMENT") "HCCU-DEMO-001" event.amount
    .debit "Ordered payment settlement" (self.ledger.entries.length + 1) event.arrivalOrder
  ledgerOf.zoom (Ledger.append entry)
  modify fun self => { self with ledgerEntriesCreated := self.ledgerEntriesCreated + 1 }

/-- `_apply`. The state is the one kept for `owner`. -/
def apply (event : PaymentEvent) (owner : String) : Action OrderedEventProcessor Unit := do
  let self ← get
  let expected := (self.stateOf owner).lastSequence + 1
  if (self.stateOf owner).amount.any fun amount => amount ≠ event.amount then
    record event .rejected expected
  else do
    modify fun self => self.advanced event owner
    if event.eventType = .completed then
      settle event
    record event .processed expected

/-- The loop of `_drain`, for a number of rounds. -/
def drainRounds (paymentId : String) : Nat → Action OrderedEventProcessor Unit
  | 0 => pure ()
  | rounds + 1 => do
      let self ← get
      let expected := (self.stateOf paymentId).lastSequence + 1
      match (self.bufferOf paymentId).get? expected with
      | none => pure ()
      | some event =>
          modify fun self =>
            self.withBuffer paymentId ((self.bufferOf paymentId).erase expected)
          apply event paymentId
          drainRounds paymentId rounds

/-- `_drain`. -/
def drain (paymentId : String) : Action OrderedEventProcessor Unit := do
  modify fun self =>
    { self with buffers := self.buffers.setdefault paymentId Dict.empty }
  let self ← get
  drainRounds paymentId (self.bufferOf paymentId).items.length

/-- Keep an event for later, unless its position is taken. -/
def hold (event : PaymentEvent) (expected : Int) : Action OrderedEventProcessor Unit := do
  modify fun self =>
    { self with buffers := self.buffers.setdefault event.paymentId Dict.empty }
  let self ← get
  if event.sequence.value ∈ self.bufferOf event.paymentId then
    record event .rejected expected
  else do
    modify fun self =>
      { self.withBuffer event.paymentId
          ((self.bufferOf event.paymentId).set event.sequence.value event) with
        outOfOrder := self.outOfOrder + 1
        buffered := self.buffered + 1 }
    record event .buffered expected

/-- Decide about a delivery and act on the decision. -/
def dispatch (event : PaymentEvent) : Action OrderedEventProcessor Unit := do
  let self ← get
  let state := self.stateOf event.paymentId
  let expected := state.lastSequence + 1
  if event.eventId ∈ self.processedEventIds then
    record event .duplicate expected
  else if event.sequence.value ≤ state.lastSequence ∨ event.revision.value ≤ state.lastRevision then
    record event .stale expected
  else if event.sequence.value > expected then
    hold event expected
  else do
    apply event event.paymentId
    drain event.paymentId

/-- Receive one delivery, recording its decision and any deterministic
    drain. -/
def receive (event : PaymentEvent) :
    Action OrderedEventProcessor (List EventProcessingResult) := do
  modify fun self => { self with eventsReceived := self.eventsReceived + 1 }
  let before := (← get).results.length
  modify fun self =>
    { self with states := self.states.setdefault event.paymentId PaymentOrderingState.new }
  dispatch event
  return (← get).results.drop before

def paymentState (self : OrderedEventProcessor) (paymentId : String) : String :=
  match self.states.get? paymentId with
  | some state => state.finalState
  | none => "Not started"

def statistics (self : OrderedEventProcessor) : OrderingStatistics :=
  let count (decision : ProcessingDecision) : Nat :=
    self.results.countP fun result => result.decision = decision
  { eventsReceived := self.eventsReceived
    eventsProcessed := count .processed
    staleEvents := count .stale
    outOfOrderEvents := self.outOfOrder
    bufferedEvents := self.buffered
    rejectedEvents := count .stale + count .duplicate + count .rejected
    duplicateEvents := count .duplicate
    ledgerEntriesCreated := self.ledgerEntriesCreated }

/-- Deliver events one after the other, up to the first that raises. -/
def receiveAll : List PaymentEvent → Action OrderedEventProcessor Unit
  | [] => pure ()
  | event :: events => do
      let _ ← receive event
      receiveAll events

end OrderedEventProcessor

/-- The opening balance of the ordering scenarios. -/
def openingEntry : LedgerEntry where
  entryId := "OPEN"
  accountId := "HCCU-DEMO-001"
  amount := { cents := 100_000 }
  entryType := .credit
  description := "Opening balance"
  sequence := 1
  postedAt := 0

def orderingLedger : Ledger :=
  after (Ledger.append openingEntry) Ledger.new

def processEvents (events : List PaymentEvent) : Except Raised OrderedEventProcessor :=
  match (OrderedEventProcessor.receiveAll events).run (.new orderingLedger) with
  | .ok _ processor => .ok processor
  | .error e _ => .error e

/-- One workflow in the requested delivery order. -/
def paymentEvents (paymentId : String := "PAY-ORDER-001") (amountCents : Int := 25_000)
    (arrival : List Int := [1, 2, 3, 4]) : Except Raised (List PaymentEvent) :=
  (arrival.zipIdx 1).mapM fun (sequence, arrivalOrder) => do
    let position ← EventSequence.new sequence
    let revision ← EventRevision.new sequence
    match eventForSequence sequence with
    | none => throw ⟨.keyError, toString sequence⟩
    | some eventType =>
        let amount ← Money.new amountCents
        PaymentEvent.new paymentId s!"{paymentId}-EVENT-{sequence}" position revision eventType
          sequence arrivalOrder amount

end BankSim
