import BankSim.Core.DeadLetters
import BankSim.Core.Settlement

/-!
# The Laboratory

What `laboratory.py` and the scenarios of `dead_letters.py` and `retries.py`
put together: payments whose work is to append a debit to a ledger at the
current time, run through an engine that retries, and, in the laboratory, the
settlement of what was completed and its reconciliation.

The scenarios define `post` each for itself, with an account and a description
of their own. What the works close over is a `PostingWork` here. The engine and
the ledger are two halves of one world, and `perform` is what a work does to
the ledger half.

Of the laboratory this is the part that any list of payments has in common: the
works of its payments C, D and F call other processors, with times of delivery
that fit its own script.

## Main definitions

* `PostingWork`, `PostingWork.perform`: A work that appends a debit.
* `laboratoryPost`, `deadLetterPost`, `retryPost`: The works of the scenarios.
* `Laboratory.completedIds`, `Laboratory.settlements`, `Laboratory.external`,
  `Laboratory.reconciliation`: What the laboratory makes of a finished run.
-/

namespace BankSim

open Exec

/-- What a work that posts closes over. -/
structure PostingWork where
  entryId : String
  accountId : String
  amountCents : Int
  description : String
  deriving DecidableEq, Repr

/-- Append a debit at the current time. -/
def PostingWork.perform (work : PostingWork) (now : Int) : Action Ledger Unit := do
  let ledger ← get
  let amount ← Money.new work.amountCents
  let entry ← LedgerEntry.new work.entryId work.accountId amount .debit work.description
    (ledger.entries.length + 1) now
  Ledger.append entry

/-- `post` of `run_laboratory`. -/
def laboratoryPost (paymentId : String) (amountCents : Int) : PostingWork :=
  ⟨paymentId ++ "-DEBIT", "HCCU-DEMO-001", amountCents, "End-to-end laboratory payment"⟩

/-- `post` of `run_dead_letter_scenario`. -/
def deadLetterPost (paymentId : String) (amount : Int) : PostingWork :=
  ⟨paymentId, "HCCU-DEMO-001", amount, "Dead-letter chapter payment"⟩

/-- `post` of `run_retry_scenario`. -/
def retryPost (paymentId : String) : PostingWork :=
  ⟨paymentId, "A", 100, "Retried payment"⟩

namespace Laboratory

/-- The identifiers of the payments that were completed. -/
def completedIds (payments : List DeadLetterPayment) : List String :=
  (payments.filter (·.completed)).map (·.paymentId)

/-- The amount of the next entry that settles a payment. Without one, `next`
    raises inside of a generator. -/
def settledCents (entries : List LedgerEntry) (paymentId : String) : Except Raised Int :=
  match entries.find? fun entry =>
      entry.entryId = paymentId ++ "-DEBIT" ∨ entry.entryId = paymentId ++ "-SETTLEMENT" with
  | some entry => .ok entry.amount.cents
  | none => .error ⟨.runtimeError, "generator raised StopIteration"⟩

/-- One expectation for each completed payment. -/
def settlements (payments : List DeadLetterPayment) (ledger : Ledger) (now : Int) :
    Except Raised (List SettlementRecord) :=
  (sortedBy id (completedIds payments)).mapM fun paymentId => do
    let amountCents ← settledCents ledger.entries paymentId
    return {
      recordId := "SETTLEMENT-" ++ paymentId
      paymentId
      amountCents
      direction := .outbound
      expectedAt := now + 1 }

/-- The report in which the network lists what it was expected to. -/
def external (settlements : List SettlementRecord) (now : Int) : ExternalSettlementReport where
  records := settlements.map fun record =>
    { externalReference := "EXTERNAL-" ++ record.paymentId
      paymentId := record.paymentId
      amountCents := record.amountCents
      direction := record.direction
      reportedAt := now + 2 }
  receivedAt := now + 2

def reconciliation (settlements : List SettlementRecord) (now : Int) : ReconciliationReport :=
  reconcile settlements (external settlements now) (now + 3)

end Laboratory

end BankSim
