import BankSim.Core.AchReturns

/-!
# Settlement and Reconciliation

`settlement.py`: the records Harbor expects to settle, and their comparison
with what the network reports.

An expectation is keyed by its payment and direction, and `settlementExpectations`
keeps one for each key. `reconcile` then indexes the expectations again, by
payment alone, so of two expectations that share a payment and differ in
direction only the later one takes part in the comparison. The direction
totals still count both.

Sorting is by keys, and equal keys keep their order. The constructor of an
item reads whichever of the two sides it is given. That at least one is there
is asserted in the source, and is what `ItemSides` says here.

## Main definitions

* `SettlementRecord`, `ExternalSettlementRecord`: The two sides.
* `settlementExpectations`: The expectations of completed workflows.
* `classify`: The items of one payment.
* `reconcile`: The report over all payments.
-/

namespace BankSim

inductive SettlementDirection
  | outbound
  | «return»
  deriving DecidableEq, Repr

def SettlementDirection.value : SettlementDirection → String
  | .outbound => "Outbound"
  | .return => "Return"

inductive ReconciliationStatus
  | matched
  | missingExternally
  | unexpectedExternally
  | amountMismatch
  | directionMismatch
  | duplicateExternally
  deriving DecidableEq, Repr

namespace ReconciliationStatus

def value : ReconciliationStatus → String
  | .matched => "Matched"
  | .missingExternally => "Missing externally"
  | .unexpectedExternally => "Unexpected externally"
  | .amountMismatch => "Amount mismatch"
  | .directionMismatch => "Direction mismatch"
  | .duplicateExternally => "Duplicate externally"

/-- The members of the enumeration, in order. -/
def all : List ReconciliationStatus :=
  [.matched, .missingExternally, .unexpectedExternally, .amountMismatch, .directionMismatch,
    .duplicateExternally]

end ReconciliationStatus

structure SettlementRecord where
  recordId : String
  paymentId : String
  amountCents : Int
  direction : SettlementDirection
  expectedAt : Int
  deriving DecidableEq, Repr

/-- The payment identifier and direction, never the amount, form the key. -/
def SettlementRecord.matchingKey (self : SettlementRecord) : String × SettlementDirection :=
  (self.paymentId, self.direction)

structure ExternalSettlementRecord where
  externalReference : String
  paymentId : String
  amountCents : Int
  direction : SettlementDirection
  reportedAt : Int
  deriving DecidableEq, Repr

structure ExternalSettlementReport where
  records : List ExternalSettlementRecord
  receivedAt : Int
  deriving DecidableEq, Repr

structure ReconciliationItem where
  paymentId : String
  status : ReconciliationStatus
  direction : SettlementDirection
  internalAmountCents : Int
  externalAmountCents : Int
  externalReference : String
  details : String
  deriving DecidableEq, Repr

/-- External minus internal; a negative value means external reported less. -/
def ReconciliationItem.differenceCents (self : ReconciliationItem) : Int :=
  self.externalAmountCents - self.internalAmountCents

structure DirectionTotals where
  internalCents : Int
  externalCents : Int
  deriving DecidableEq, Repr

def DirectionTotals.differenceCents (self : DirectionTotals) : Int :=
  self.externalCents - self.internalCents

structure ReconciliationReport where
  items : List ReconciliationItem
  statusTotals : List (ReconciliationStatus × Nat)
  outboundTotals : DirectionTotals
  returnTotals : DirectionTotals
  completedAt : Int
  deriving DecidableEq, Repr

namespace ReconciliationReport

def matchedCount (self : ReconciliationReport) : Nat :=
  self.items.countP fun item => item.status = .matched

def exceptionCount (self : ReconciliationReport) : Nat :=
  self.items.length - self.matchedCount

end ReconciliationReport

/-- Derive unique expectations from completed workflows only. A later record
    replaces an earlier one under its key. -/
def settlementExpectations (transfers : List AchTransfer) (returns : List AchReturn)
    (generatedAt : Int) : List SettlementRecord :=
  let outbound := (transfers.filter fun transfer => transfer.status = .completed).map
    fun transfer =>
      { recordId := "SETTLEMENT-" ++ transfer.request.transferId
        paymentId := transfer.request.transferId
        amountCents := transfer.request.amountCents
        direction := .outbound
        expectedAt := generatedAt : SettlementRecord }
  let returned := (returns.filter fun item => item.status = .completed).map
    fun item =>
      { recordId := "SETTLEMENT-" ++ item.request.returnId
        paymentId := item.request.returnId
        amountCents := item.request.amountCents
        direction := .return
        expectedAt := generatedAt : SettlementRecord }
  let records := Dict.index SettlementRecord.matchingKey (outbound ++ returned)
  sortedBy (fun row => toLex (row.paymentId, row.direction.value)) records.values

/-- The sides of an item: an external row, an internal record, or both. -/
inductive ItemSides
  | external (row : ExternalSettlementRecord)
  | internal (record : SettlementRecord)
  | both (row : ExternalSettlementRecord) (record : SettlementRecord)

/-- `_item`. The internal record, if there is one, names the payment and the
    direction. -/
def item (sides : ItemSides) (status : ReconciliationStatus) : ReconciliationItem :=
  match sides with
  | .external row =>
      ⟨row.paymentId, status, row.direction, 0, row.amountCents, row.externalReference,
        status.value⟩
  | .internal record =>
      ⟨record.paymentId, status, record.direction, record.amountCents, 0, "-", status.value⟩
  | .both row record =>
      ⟨record.paymentId, status, record.direction, record.amountCents, row.amountCents,
        row.externalReference, status.value⟩

/-- The body of the loop over payments: the items of one payment, from its
    expectation and its external rows by reference. -/
def classify (paymentId : String) (expected : Option SettlementRecord)
    (actual : List ExternalSettlementRecord) : List ReconciliationItem :=
  match expected, actual with
  | none, actual => actual.map fun row => item (.external row) .unexpectedExternally
  | some expected, [] => [item (.internal expected) .missingExternally]
  | some expected, [row] =>
      let status : ReconciliationStatus :=
        if row.direction ≠ expected.direction then .directionMismatch
        else if row.amountCents ≠ expected.amountCents then .amountMismatch
        else .matched
      [item (.both row expected) status]
  | some expected, actual =>
      [ { paymentId
          status := .duplicateExternally
          direction := expected.direction
          internalAmountCents := expected.amountCents
          externalAmountCents := (actual.map (·.amountCents)).sum
          externalReference := ", ".intercalate (actual.map (·.externalReference))
          details := s!"{actual.length} external rows share this payment identity" } ]

/-- `_totals`. -/
def totals (internal : List SettlementRecord) (external : List ExternalSettlementRecord)
    (direction : SettlementDirection) : DirectionTotals :=
  ⟨((internal.filter fun row => row.direction = direction).map (·.amountCents)).sum,
    ((external.filter fun row => row.direction = direction).map (·.amountCents)).sum⟩

/-- Compare snapshots of expectations and external rows. -/
def reconcile (internal : List SettlementRecord) (externalReport : ExternalSettlementReport)
    (completedAt : Int) : ReconciliationReport :=
  let internalById := Dict.index (·.paymentId) internal
  let externalById := Dict.group (·.paymentId) externalReport.records
  let paymentIds := sortedBy id (internalById.keys ++ externalById.keys).dedup
  let items := paymentIds.flatMap fun paymentId =>
    classify paymentId (internalById.get? paymentId)
      (sortedBy (·.externalReference) ((externalById.get? paymentId).getD []))
  let items := sortedBy
    (fun item => toLex (item.paymentId, toLex (item.status.value, item.externalReference))) items
  { items
    statusTotals := ReconciliationStatus.all.map fun status =>
      (status, items.countP fun item => item.status = status)
    outboundTotals := totals internal externalReport.records .outbound
    returnTotals := totals internal externalReport.records .return
    completedAt }

end BankSim
