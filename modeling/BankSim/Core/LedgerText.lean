import BankSim.Core.MoneyText
import BankSim.Core.Operations

/-!
# Ledgers as Text

`describe_ledger` and `describe_replay` of `ledger.py`, and `describe_balance`
of `balances.py`.

The timeline has columns: a number and a name are padded on the right, and an
amount on the left. A column never cuts what it holds, so a long number or
amount moves what follows. The replay has one step a line, with the balance
after it, and raises where `replay` does, before it writes anything.

## Main definitions

* `EntryType.value`: The name of a direction.
* `ljust`, `rjust`: The formats `<w` and `>w`.
* `describeLedger`: The timeline of a ledger.
* `replayLines`: The steps of a replay and their running balances.
* `describeReplay`: The replay of a ledger, step by step.
* `describeBalance`: The four figures of a projection.
-/

namespace BankSim

def EntryType.value : EntryType → String
  | .credit => "Credit"
  | .debit => "Debit"

/-- The format `<w`: text in a column, padded on the right. -/
def ljust (width : Nat) (text : String) : String :=
  String.ofList (text.toList.rightpad width ' ')

/-- The format `>w`: text in a column, padded on the left. -/
def rjust (width : Nat) (text : String) : String :=
  String.ofList (text.toList.leftpad width ' ')

/-- One line of a timeline. -/
def timelineLine (entry : LedgerEntry) : String :=
  ljust 5 (toString entry.sequence) ++ ljust 10 entry.entryType.value ++
    rjust 10 (formatMoney entry.signedCents true)

/-- Render a deterministic ledger timeline. -/
def describeLedger (ledger : Ledger) : String :=
  "\n".intercalate ("Seq  Type      Amount" :: ledger.entries.map timelineLine)

/-- One line of a replay, with the balance after it. -/
def replayLine (entry : LedgerEntry) (balance : Int) : String :=
  toString entry.sequence ++ ". " ++ entry.entryType.value ++ " " ++
    formatMoney entry.signedCents true ++ " → " ++ formatMoney balance false

/-- The loop over the entries, from a running balance. -/
def replayLines : Int → List LedgerEntry → List String
  | _, [] => []
  | balance, entry :: entries =>
      replayLine entry (balance + entry.signedCents) ::
        replayLines (balance + entry.signedCents) entries

/-- Render each replay step and its running balance. -/
def describeReplay (ledger : Ledger) : Except Raised String := do
  let projectedBalance ← replay ledger.entries
  return "\n".intercalate ("Ledger replay" :: replayLines 0 ledger.entries ++
    ["", "Final balance:", formatMoney projectedBalance false])

/-- Render the four balance figures. -/
def describeBalance (projection : BalanceProjection) : String :=
  "\n".intercalate
    [ "Ledger Balance:     " ++ rjust 10 (formatMoney projection.currentBalance false),
      "Pending Debits:     " ++ rjust 10 (formatMoney projection.pendingDebits false),
      "Pending Credits:    " ++ rjust 10 (formatMoney projection.pendingCredits false),
      "Available Balance:  " ++ rjust 10 (formatMoney projection.availableBalance false) ]

end BankSim
