import BankSim.Core.Ledger
import BankSim.Library.Dict

/-!
# Idempotent Payment Processing

`idempotency.py`, with the deliveries of `duplicates.py`: a payment may be
delivered more than once, and a key that the client supplies says which
deliveries mean the same operation.

The processor asks its store before it touches the ledger. A key that is
stored answers with the stored result and counts the delivery as a duplicate,
provided the delivery asks for the same payment. A new key appends one debit,
posted one unit after the delivery arrived, and the result is stored.

Records are mutable objects that stay under the key they were stored with, so
counting a duplicate is an assignment under that key.

## Main definitions

* `PaymentDelivery`: One arrival of a payment request.
* `IdempotencyKey`: The identity of one intended operation.
* `IdempotencyRecord`: What is remembered under a key.
* `IdempotencyStore`: The records by key.
* `IdempotentPaymentProcessor.process`: Answer one delivery.
* `idempotencyKeyFor`: The key of a scripted delivery.
* `processAll`: Answer deliveries in order, each under its own key.
-/

namespace BankSim

open Exec

/-- One scripted arrival of an original payment request. -/
@[ext]
structure PaymentDelivery where
  originalRequestId : String
  amount : Money
  deliveryNumber : Int
  arrivedAt : Int
  deliveryOrder : Int
  originalRequestId_nonblank : isBlank originalRequestId = false := by exact Eq.refl false
  deliveryNumber_pos : 0 < deliveryNumber := by exact numeral_pos passes
  arrivedAt_nonneg : 0 ≤ arrivedAt := by exact numeral_nonneg
  deliveryOrder_pos : 0 < deliveryOrder := by exact numeral_pos passes
  deriving Repr

instance : DecidableEq PaymentDelivery :=
  fun _ _ => decidable_of_iff _ PaymentDelivery.ext_iff.symm

/-- The constructor, with the checks of `__post_init__` in their order. -/
def PaymentDelivery.new (originalRequestId : String) (amount : Money)
    (deliveryNumber arrivedAt deliveryOrder : Int) : Except Raised PaymentDelivery :=
  if hid : isBlank originalRequestId then
    .error (valueError "original request identifier cannot be blank")
  else if hnu : deliveryNumber ≤ 0 then
    .error (valueError "delivery number must be a positive integer")
  else if har : arrivedAt < 0 then
    .error (valueError "arrival time must be a nonnegative integer")
  else if hor : deliveryOrder ≤ 0 then
    .error (valueError "delivery order must be a positive integer")
  else
    .ok
      { originalRequestId, amount, deliveryNumber, arrivedAt, deliveryOrder
        originalRequestId_nonblank := nonblank_of_not hid
        deliveryNumber_pos := pos_of_not_le hnu
        arrivedAt_nonneg := nonneg_of_not_lt har
        deliveryOrder_pos := pos_of_not_le hor }

/-- Client-supplied identity for one intended business operation. -/
@[ext]
structure IdempotencyKey where
  value : String
  value_nonblank : isBlank value = false := by exact Eq.refl false
  deriving Repr

instance : DecidableEq IdempotencyKey :=
  fun _ _ => decidable_of_iff _ IdempotencyKey.ext_iff.symm

def IdempotencyKey.new (value : String) : Except Raised IdempotencyKey :=
  if h : isBlank value then
    .error (valueError "idempotency key cannot be blank")
  else
    .ok ⟨value, nonblank_of_not h⟩

/-- Terminal state retained by the teaching store. -/
inductive CompletionStatus
  | completed
  deriving DecidableEq, Repr

/-- Stable business result returned for original and duplicate deliveries. -/
structure PaymentProcessingResult where
  originalRequestId : String
  ledgerEntryId : String
  amount : Money
  processedAt : Int
  deriving DecidableEq, Repr

/-- Completed operation and duplicate count remembered under one key. -/
structure IdempotencyRecord where
  key : IdempotencyKey
  originalRequestId : String
  firstProcessedAt : Int
  completionStatus : CompletionStatus
  result : PaymentProcessingResult
  duplicateDeliveryCount : Nat := 0
  deriving DecidableEq, Repr

/-- Process-local store with no expiration. -/
structure IdempotencyStore where
  records : Dict IdempotencyKey IdempotencyRecord
  deriving DecidableEq

namespace IdempotencyStore

def new : IdempotencyStore :=
  ⟨Dict.empty⟩

/-- The completed record for a key, if one exists. -/
def get? (self : IdempotencyStore) (key : IdempotencyKey) : Option IdempotencyRecord :=
  self.records.get? key

/-- Remember a newly completed operation exactly once. -/
def remember (record : IdempotencyRecord) : Action IdempotencyStore Unit := do
  let self ← get
  if record.key ∈ self.records then
    throw (valueError "idempotency record already exists")
  modify fun self => { self with records := self.records.set record.key record }

end IdempotencyStore

/-- One response, including whether an earlier result was reused. -/
structure IdempotentAcknowledgement where
  delivery : PaymentDelivery
  key : IdempotencyKey
  result : PaymentProcessingResult
  duplicate : Bool
  deriving DecidableEq, Repr

/-- Measurements separating transport deliveries from business effects. -/
structure IdempotencyStatistics where
  totalRequestsReceived : Nat
  uniqueBusinessOperations : Nat
  duplicateDeliveries : Nat
  duplicateRequestsPrevented : Nat
  storedIdempotencyRecords : Nat
  ledgerEntriesCreated : Nat
  deriving DecidableEq, Repr

/-- Resolve business identity before appending a financial ledger fact. -/
structure IdempotentPaymentProcessor where
  ledger : Ledger
  store : IdempotencyStore
  acknowledgements : List IdempotentAcknowledgement
  ledgerEntriesCreated : Nat
  deriving DecidableEq

namespace IdempotentPaymentProcessor

def new (ledger : Ledger) (store : IdempotencyStore := IdempotencyStore.new) :
    IdempotentPaymentProcessor :=
  ⟨ledger, store, [], 0⟩

def ledgerOf : Component IdempotentPaymentProcessor Ledger where
  get self := self.ledger
  set ledger self := { self with ledger }
  get_set _ _ := rfl
  set_get _ := rfl
  set_set _ _ _ := rfl

def storeOf : Component IdempotentPaymentProcessor IdempotencyStore where
  get self := self.store
  set store self := { self with store }
  get_set _ _ := rfl
  set_get _ := rfl
  set_set _ _ _ := rfl

/-- Note and return an acknowledgement. -/
def acknowledge (acknowledgement : IdempotentAcknowledgement) :
    Action IdempotentPaymentProcessor IdempotentAcknowledgement := do
  modify fun self =>
    { self with acknowledgements := self.acknowledgements ++ [acknowledgement] }
  return acknowledgement

/-- The branch of `process` for a stored key. -/
def replayResult (delivery : PaymentDelivery) (key : IdempotencyKey)
    (record : IdempotencyRecord) :
    Action IdempotentPaymentProcessor IdempotentAcknowledgement := do
  let result := record.result
  if result.originalRequestId ≠ delivery.originalRequestId ∨ result.amount ≠ delivery.amount then
    throw ⟨.idempotencyConflict, "idempotency key cannot identify a different payment"⟩
  modify fun self =>
    { self with
      store := ⟨self.store.records.set key
        { record with duplicateDeliveryCount := record.duplicateDeliveryCount + 1 }⟩ }
  acknowledge ⟨delivery, key, result, true⟩

/-- The branch of `process` for a new key. -/
def processOriginal (delivery : PaymentDelivery) (key : IdempotencyKey) :
    Action IdempotentPaymentProcessor IdempotentAcknowledgement := do
  let processedAt := delivery.arrivedAt + 1
  let entryId := delivery.originalRequestId ++ "-DEBIT"
  let self ← get
  let entry ← LedgerEntry.new entryId "HCCU-DEMO-001" delivery.amount .debit
    "Idempotently processed payment" (self.ledger.entries.length + 1) processedAt
  ledgerOf.zoom (Ledger.append entry)
  let result : PaymentProcessingResult :=
    ⟨delivery.originalRequestId, entryId, delivery.amount, processedAt⟩
  storeOf.zoom (IdempotencyStore.remember
    { key, originalRequestId := delivery.originalRequestId, firstProcessedAt := processedAt
      completionStatus := .completed, result })
  modify fun self => { self with ledgerEntriesCreated := self.ledgerEntriesCreated + 1 }
  acknowledge ⟨delivery, key, result, false⟩

/-- Return the stored result or apply and remember one new debit. -/
def process (delivery : PaymentDelivery) (key : IdempotencyKey) :
    Action IdempotentPaymentProcessor IdempotentAcknowledgement := do
  match (← get).store.get? key with
  | some record => replayResult delivery key record
  | none => processOriginal delivery key

def statistics (self : IdempotentPaymentProcessor) : IdempotencyStatistics :=
  let duplicates := self.acknowledgements.countP (·.duplicate)
  { totalRequestsReceived := self.acknowledgements.length
    uniqueBusinessOperations := self.store.records.values.length
    duplicateDeliveries := duplicates
    duplicateRequestsPrevented := duplicates
    storedIdempotencyRecords := self.store.records.values.length
    ledgerEntriesCreated := self.ledgerEntriesCreated }

end IdempotentPaymentProcessor

/-- The fixed key carried by every delivery of a scripted request. -/
def idempotencyKeyFor (delivery : PaymentDelivery) : IdempotencyKey where
  value := "IDEMPOTENCY-" ++ delivery.originalRequestId
  value_nonblank := by
    rw [isBlank_append, delivery.originalRequestId_nonblank, Bool.and_false]

/-- The loop of `process_idempotently`. -/
def processAll : List PaymentDelivery → Action IdempotentPaymentProcessor Unit
  | [] => pure ()
  | delivery :: deliveries => do
      let _ ← IdempotentPaymentProcessor.process delivery (idempotencyKeyFor delivery)
      processAll deliveries

/-- `process_idempotently`, on a ledger opened with the given balance. -/
def processIdempotently (deliveries : List PaymentDelivery) (initialBalanceCents : Int := 100_000) :
    Except Raised IdempotentPaymentProcessor := do
  let amount ← Money.new initialBalanceCents
  let entry ← LedgerEntry.new "OPEN" "HCCU-DEMO-001" amount .credit "Opening balance" 1 0
  match (processAll deliveries).run (.new (after (Ledger.append entry) Ledger.new)) with
  | .ok _ processor => .ok processor
  | .error e _ => .error e

end BankSim
