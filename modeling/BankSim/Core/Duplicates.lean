import BankSim.Core.Idempotency

/-!
# Duplicate Deliveries

`duplicates.py`, the processing that `idempotency.py` protects against: every
delivery is posted as a debit of its own, whatever was delivered before, and
the measurements say how many of them were duplicates.

A script fixes the order of the deliveries and does not let time go backward.

## Main definitions

* `DeliverySequence`: A script of deliveries.
* `DuplicatePaymentScenario`: A script with a name and a cause.
* `DuplicateStatistics`: Measurements of what was delivered and posted.
* `deliverAll`: Post every delivery.
* `processNaively`: Run a script without any protection.
-/

namespace BankSim

open Exec

/-- The result recorded for one received delivery. `dead_letters.py` has a
    class of the same name. -/
inductive DeliveryAttempt.ProcessingResult
  | processed
  deriving DecidableEq, Repr

/-- The observable processing result for a received delivery. -/
structure DeliveryAttempt where
  delivery : PaymentDelivery
  processedAt : Int
  result : DeliveryAttempt.ProcessingResult
  ledgerEntryId : String
  deriving DecidableEq, Repr

/-- Some delivery arrives before the one that is delivered ahead of it. -/
def arrivesBackward (deliveries : List PaymentDelivery) : Bool :=
  (deliveries.zip deliveries.tail).any fun (current, following) =>
    current.arrivedAt > following.arrivedAt

/-- A deterministic, explicitly ordered delivery script. -/
structure DeliverySequence where
  deliveries : List PaymentDelivery
  contiguous : deliveries.map (·.deliveryOrder)
    = (List.range' 1 deliveries.length).map Int.ofNat := by decide
  forward : arrivesBackward deliveries = false := by decide
  deriving DecidableEq, Repr

def DeliverySequence.new (deliveries : List PaymentDelivery) : Except Raised DeliverySequence :=
  if hcontiguous : deliveries.map (·.deliveryOrder)
      ≠ (List.range' 1 deliveries.length).map Int.ofNat then
    .error (valueError "deliveries must have contiguous delivery order")
  else if hforward : arrivesBackward deliveries then
    .error (valueError "delivery arrival times cannot move backward")
  else
    .ok
      { deliveries
        contiguous := not_not.mp hcontiguous
        forward := by simpa using hforward }

/-- A named reason and script for receiving payment requests repeatedly. -/
structure DuplicatePaymentScenario where
  name : String
  cause : String
  sequence : DeliverySequence
  deriving DecidableEq, Repr

/-- Integer measurements of deliveries and their incorrect financial effects. -/
structure DuplicateStatistics where
  deliveriesReceived : Nat
  uniquePaymentIdentifiers : Nat
  duplicateDeliveries : Nat
  financialOperationsPerformed : Nat
  duplicateFinancialOperations : Nat
  duplicatePercentageHundredths : Nat
  deriving DecidableEq, Repr

/-- What `process_naively` counts in its attempts. There are never more
    identifiers than attempts, so the difference is not cut off. -/
def DuplicateStatistics.ofAttempts (attempts : List DeliveryAttempt) : DuplicateStatistics :=
  let deliveries := attempts.length
  let unique := (attempts.map (·.delivery.originalRequestId)).toFinset.card
  let duplicates := deliveries - unique
  { deliveriesReceived := deliveries
    uniquePaymentIdentifiers := unique
    duplicateDeliveries := duplicates
    financialOperationsPerformed := deliveries
    duplicateFinancialOperations := duplicates
    duplicatePercentageHundredths :=
      if deliveries = 0 then 0 else duplicates * 10_000 / deliveries }

/-- The ledger and observations produced by deliberately naive processing. -/
structure DuplicateObservation where
  scenario : DuplicatePaymentScenario
  attempts : List DeliveryAttempt
  ledger : Ledger
  statistics : DuplicateStatistics
  deriving DecidableEq

/-- The loop of `process_naively`, with the attempts it adds. -/
def deliverAll : List PaymentDelivery → Action Ledger (List DeliveryAttempt)
  | [] => pure []
  | item :: items => do
      let processedAt := item.arrivedAt + 1
      let entryId := item.originalRequestId ++ "-DELIVERY-" ++ toString item.deliveryNumber
      let ledger ← get
      let entry ← LedgerEntry.new entryId "HCCU-DEMO-001" item.amount .debit
        "Naively processed payment delivery" (ledger.entries.length + 1) processedAt
      Ledger.append entry
      let attempts ← deliverAll items
      return ⟨item, processedAt, .processed, entryId⟩ :: attempts

/-- Process every delivery independently, intentionally creating duplicates. -/
def processNaively (scenario : DuplicatePaymentScenario) (initialBalanceCents : Int := 100_000) :
    Except Raised DuplicateObservation := do
  let amount ← Money.new initialBalanceCents
  let entry ← LedgerEntry.new "OPEN" "HCCU-DEMO-001" amount .credit "Opening balance" 1 0
  match (deliverAll scenario.sequence.deliveries).run
      (after (Ledger.append entry) Ledger.new) with
  | .ok attempts ledger => .ok ⟨scenario, attempts, ledger, .ofAttempts attempts⟩
  | .error e _ => .error e

/-- The scenario accidentally delivers one queued payment twice. -/
def queueReplayScenario : DuplicatePaymentScenario where
  name := "Queue replay"
  cause := "The scenario accidentally delivers queued payment PAY-002 twice."
  sequence :=
    { deliveries :=
        [ { originalRequestId := "PAY-001", amount := { cents := 25_000 }, deliveryNumber := 1
            arrivedAt := 0, deliveryOrder := 1 },
          { originalRequestId := "PAY-002", amount := { cents := 10_000 }, deliveryNumber := 1
            arrivedAt := 2, deliveryOrder := 2 },
          { originalRequestId := "PAY-002", amount := { cents := 10_000 }, deliveryNumber := 2
            arrivedAt := 4, deliveryOrder := 3 },
          { originalRequestId := "PAY-003", amount := { cents := 5_000 }, deliveryNumber := 1
            arrivedAt := 6, deliveryOrder := 4 } ] }

end BankSim
