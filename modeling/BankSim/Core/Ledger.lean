import BankSim.Core.Basic

/-!
# The Ledger

`ledger.py`: immutable entries, the append-only ledger that holds them, and
the replay that projects a balance from them.

`Money` and `LedgerEntry` are frozen dataclasses whose `__post_init__` raises
on invalid data, so a value of either type is valid by the time anything sees
it. The structures carry that validity as fields, and `new` is the
constructor with the checks in the order the source makes them.

The ledger keeps its entries and, redundantly, the set of their identifiers.
Both methods test every entry before they touch either. `appendBatch` does so
against running copies of the expected sequence, the known identifiers and
the last posting time, and only then extends the ledger.

The validity of an entry written out in full is checked where it is written,
by the default proofs of its fields.

## Main definitions

* `Money`: A positive number of cents.
* `LedgerEntry`: One immutable fact about money.
* `Ledger`: The entries and the set of their identifiers.
* `Ledger.append`: Append the next fact.
* `Ledger.appendBatch`: Append a group of facts as one operation.
* `replay`: The balance after replaying entries in sequence order.
-/

namespace BankSim

def ledgerError (message : String) : Raised :=
  ⟨.ledgerValidation, message⟩

/-- An exact monetary magnitude: a positive number of cents. -/
structure Money where
  cents : Int
  cents_pos : 0 < cents := by exact numeral_pos passes
  deriving DecidableEq, Repr

def Money.new (cents : Int) : Except Raised Money :=
  if h : cents ≤ 0 then
    .error (ledgerError "ledger entry amount must be greater than zero")
  else
    .ok ⟨cents, pos_of_not_le h⟩

/-- The direction in which an entry changes the balance projection. -/
inductive EntryType
  | credit
  | debit
  deriving DecidableEq, Repr

theorem EntryType.debit_ne_credit : EntryType.debit ≠ EntryType.credit := by
  decide

/-- One immutable, deterministically ordered fact about money. -/
structure LedgerEntry where
  entryId : String
  accountId : String
  amount : Money
  entryType : EntryType
  description : String
  sequence : Int
  postedAt : Int
  originalTransferId : Option String := none
  achReturnId : Option String := none
  entryId_nonblank : isBlank entryId = false := by exact Eq.refl false
  accountId_nonblank : isBlank accountId = false := by exact Eq.refl false
  description_nonblank : isBlank description = false := by exact Eq.refl false
  sequence_pos : 0 < sequence := by exact numeral_pos passes
  postedAt_nonneg : 0 ≤ postedAt := by exact numeral_nonneg
  originalTransferId_nonblank : originalTransferId.any isBlank = false := by exact Eq.refl false
  achReturnId_nonblank : achReturnId.any isBlank = false := by exact Eq.refl false
  deriving DecidableEq, Repr

/-- The constructor, with the checks of `__post_init__` in their order. -/
def LedgerEntry.new (entryId accountId : String) (amount : Money) (entryType : EntryType)
    (description : String) (sequence postedAt : Int) (originalTransferId : Option String := none)
    (achReturnId : Option String := none) : Except Raised LedgerEntry :=
  if hid : isBlank entryId then .error (ledgerError "entry id cannot be blank")
  else if hac : isBlank accountId then .error (ledgerError "account id cannot be blank")
  else if hde : isBlank description then .error (ledgerError "description cannot be blank")
  else if hse : sequence ≤ 0 then .error (ledgerError "sequence must be greater than zero")
  else if hpo : postedAt < 0 then .error (ledgerError "posting time cannot be negative")
  else if hor : originalTransferId.any isBlank then
    .error (ledgerError "original transfer id cannot be blank")
  else if hre : achReturnId.any isBlank then
    .error (ledgerError "ach return id cannot be blank")
  else
    .ok
      { entryId, accountId, amount, entryType, description, sequence, postedAt,
        originalTransferId, achReturnId
        entryId_nonblank := nonblank_of_not hid
        accountId_nonblank := nonblank_of_not hac
        description_nonblank := nonblank_of_not hde
        sequence_pos := pos_of_not_le hse
        postedAt_nonneg := nonneg_of_not_lt hpo
        originalTransferId_nonblank := by simpa using hor
        achReturnId_nonblank := by simpa using hre }

theorem Money.new_of_pos (cents : Int) (h : 0 < cents) : Money.new cents = .ok ⟨cents, h⟩ := by
  rw [Money.new, dif_neg (by omega)]

/-- An entry is what its constructor makes of its own fields: the checks are
    the validity it carries. -/
theorem LedgerEntry.new_self (entry : LedgerEntry) :
    LedgerEntry.new entry.entryId entry.accountId entry.amount entry.entryType entry.description
      entry.sequence entry.postedAt entry.originalTransferId entry.achReturnId = .ok entry := by
  have hse := entry.sequence_pos
  have hpo := entry.postedAt_nonneg
  rw [LedgerEntry.new, dif_neg (by simp [entry.entryId_nonblank]),
    dif_neg (by simp [entry.accountId_nonblank]), dif_neg (by simp [entry.description_nonblank]),
    dif_neg (by omega), dif_neg (by omega), dif_neg (by simp [entry.originalTransferId_nonblank]),
    dif_neg (by simp [entry.achReturnId_nonblank])]

/-- The constructor returns an entry exactly when that entry has the fields
    it was given. -/
theorem LedgerEntry.new_ok_iff (entryId accountId : String) (amount : Money)
    (entryType : EntryType) (description : String) (sequence postedAt : Int)
    (originalTransferId achReturnId : Option String) (entry : LedgerEntry) :
    LedgerEntry.new entryId accountId amount entryType description sequence postedAt
        originalTransferId achReturnId = .ok entry ↔
      entry.entryId = entryId ∧ entry.accountId = accountId ∧ entry.amount = amount ∧
        entry.entryType = entryType ∧ entry.description = description ∧
        entry.sequence = sequence ∧ entry.postedAt = postedAt ∧
        entry.originalTransferId = originalTransferId ∧ entry.achReturnId = achReturnId := by
  constructor
  · intro h
    unfold LedgerEntry.new at h
    split_ifs at h
    cases h
    exact ⟨rfl, rfl, rfl, rfl, rfl, rfl, rfl, rfl, rfl⟩
  · rintro ⟨rfl, rfl, rfl, rfl, rfl, rfl, rfl, rfl, rfl⟩
    exact LedgerEntry.new_self entry

/-- An append-only in-memory collection of immutable ledger entries. -/
structure Ledger where
  entries : List LedgerEntry
  entryIds : Finset String
  deriving DecidableEq

namespace Ledger

def new : Ledger :=
  ⟨[], ∅⟩

/-- Append the next fact; existing facts cannot be changed or removed. -/
def append (entry : LedgerEntry) : Action Ledger Unit := do
  let self ← get
  let expectedSequence : Int := self.entries.length + 1
  if entry.sequence ≠ expectedSequence then
    throw (ledgerError s!"sequence must be {expectedSequence}, received {entry.sequence}")
  if entry.entryId ∈ self.entryIds then
    throw (ledgerError "entry identifier must be unique")
  if self.entries.getLast?.any (fun last => entry.postedAt < last.postedAt) then
    throw (ledgerError "posting time cannot move backward")
  modify fun self =>
    { entries := self.entries ++ [entry], entryIds := insert entry.entryId self.entryIds }

/-- `self._entries[-1].posted_at if self._entries else 0`. -/
def lastPostedAt (ledger : Ledger) : Int :=
  match ledger.entries.getLast? with
  | some last => last.postedAt
  | none => 0

/-- The validation loop of `append_batch`, with its three running copies. -/
def checkBatch : List LedgerEntry → Int → Finset String → Int → Action Ledger Unit
  | [], _, _, _ => pure ()
  | entry :: entries, expectedSequence, knownIds, lastPostedAt => do
      if entry.sequence ≠ expectedSequence then
        throw (ledgerError s!"sequence must be {expectedSequence}, received {entry.sequence}")
      if entry.entryId ∈ knownIds then
        throw (ledgerError "entry identifier must be unique")
      if entry.postedAt < lastPostedAt then
        throw (ledgerError "posting time cannot move backward")
      checkBatch entries (expectedSequence + 1) (insert entry.entryId knownIds) entry.postedAt

/-- Validate and append a group of facts as one in-memory operation. -/
def appendBatch (entries : List LedgerEntry) : Action Ledger Unit := do
  if entries = [] then
    throw (ledgerError "ledger batch must be a nonempty tuple")
  let self ← get
  checkBatch entries (self.entries.length + 1) self.entryIds self.lastPostedAt
  modify fun self =>
    { entries := self.entries ++ entries
      entryIds := self.entryIds ∪ (entries.map (·.entryId)).toFinset }

end Ledger

/-- What an entry adds to a balance: its cents, negated for a debit. -/
def LedgerEntry.signedCents (entry : LedgerEntry) : Int :=
  (if entry.entryType = .credit then 1 else -1) * entry.amount.cents

/-- The loop of `replay`, from an expected sequence and a balance so far. -/
def replayFrom : Int → Int → List LedgerEntry → Except Raised Int
  | _, balance, [] => .ok balance
  | expectedSequence, balance, entry :: entries =>
      if entry.sequence ≠ expectedSequence then
        .error (ledgerError "replay requires contiguous sequence order")
      else
        replayFrom (expectedSequence + 1) (balance + entry.signedCents) entries

/-- Project the current balance in cents by replaying entries in sequence
    order. -/
def replay (entries : List LedgerEntry) : Except Raised Int :=
  replayFrom 1 0 entries

end BankSim
