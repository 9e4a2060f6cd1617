import BankSim.Core.Ledger

/-!
# Immediate Operations

The workflows that decide and post in one call: `balances.py`, `deposits.py`,
`withdrawals.py` and `transfers.py`.

A balance is never stored. `projectBalances` replays the whole ledger and
adjusts it by a pending snapshot, and `accountBalance` replays the entries of
one account. The two withdrawing operations differ in which of them they ask:
a withdrawal compares its amount with the projection of the whole ledger, a
transfer with the balance of its source account.

Request classes validate themselves in `__post_init__`, so their values carry
that validity, and `new` is the constructor with its checks. The description
is not checked there. It reaches a ledger entry as `description or default`,
and a description of white space only is refused by the entry, after the
funds decision was made.

## Main definitions

* `PendingTransaction`: Authorised activity that is not a ledger fact yet.
* `projectBalances`: Current, pending and available balances.
* `accountBalance`: The replay of one account.
* `postDeposit`: Append a deposit as a credit.
* `processWithdrawal`: Reject a withdrawal or append it as a debit.
* `processTransfer`: Reject a transfer or append its debit and credit.
-/

namespace BankSim

/-- `description or default`: an empty text is replaced. -/
def orDefault (description default : String) : String :=
  if description = "" then default else description

/-! ### Balances -/

inductive PendingTransactionType
  | pendingDebit
  | pendingCredit
  deriving DecidableEq, Repr

/-- An authorised transaction that has not become a ledger fact. -/
@[ext]
structure PendingTransaction where
  transactionId : String
  amount : Money
  transactionType : PendingTransactionType
  description : String
  sequence : Int
  transactionId_nonblank : isBlank transactionId = false := by exact Eq.refl false
  description_nonblank : isBlank description = false := by exact Eq.refl false
  sequence_pos : 0 < sequence := by exact numeral_pos passes
  deriving Repr

instance : DecidableEq PendingTransaction :=
  fun _ _ => decidable_of_iff _ PendingTransaction.ext_iff.symm

def balanceError (message : String) : Raised :=
  ⟨.balanceValidation, message⟩

def PendingTransaction.new (transactionId : String) (amount : Money)
    (transactionType : PendingTransactionType) (description : String) (sequence : Int) :
    Except Raised PendingTransaction :=
  if hid : isBlank transactionId then .error (balanceError "transaction id cannot be blank")
  else if hde : isBlank description then .error (balanceError "description cannot be blank")
  else if hse : sequence ≤ 0 then .error (balanceError "sequence must be greater than zero")
  else
    .ok
      { transactionId, amount, transactionType, description, sequence
        transactionId_nonblank := nonblank_of_not hid
        description_nonblank := nonblank_of_not hde
        sequence_pos := pos_of_not_le hse }

/-- A computed view, never an authoritative financial record. -/
structure BalanceProjection where
  currentBalance : Int
  pendingDebits : Int
  pendingCredits : Int
  availableBalance : Int
  deriving DecidableEq, Repr

/-- The loop of `project_balances`: the expected sequence, the identifiers
    seen and the two totals so far. -/
def sumPending : List PendingTransaction → Int → List String → Int → Int →
    Except Raised (Int × Int)
  | [], _, _, debits, credits => .ok (debits, credits)
  | transaction :: pending, expectedSequence, seenIds, debits, credits =>
      if transaction.sequence ≠ expectedSequence then
        .error (balanceError "pending transactions require contiguous sequence order")
      else if transaction.transactionId ∈ seenIds then
        .error (balanceError "pending transaction identifier must be unique")
      else
        match transaction.transactionType with
        | .pendingDebit =>
            sumPending pending (expectedSequence + 1) (transaction.transactionId :: seenIds)
              (debits + transaction.amount.cents) credits
        | .pendingCredit =>
            sumPending pending (expectedSequence + 1) (transaction.transactionId :: seenIds)
              debits (credits + transaction.amount.cents)

/-- Derive current, pending and available balances without changing inputs. -/
def projectBalances (ledger : Ledger) (pending : List PendingTransaction) :
    Except Raised BalanceProjection := do
  let (debits, credits) ← sumPending pending 1 [] 0 0
  let current ← replay ledger.entries
  return ⟨current, debits, credits, current - debits + credits⟩

/-! ### Deposits -/

inductive DepositStatus
  | received
  | posted
  | rejected
  deriving DecidableEq, Repr

/-- Input requesting that positive integer cents be deposited to an account. -/
@[ext]
structure DepositRequest where
  depositId : String
  accountId : String
  amountCents : Int
  description : String
  depositId_nonblank : isBlank depositId = false := by exact Eq.refl false
  accountId_nonblank : isBlank accountId = false := by exact Eq.refl false
  amountCents_pos : 0 < amountCents := by exact numeral_pos passes
  deriving Repr

instance : DecidableEq DepositRequest :=
  fun _ _ => decidable_of_iff _ DepositRequest.ext_iff.symm

def DepositRequest.new (depositId accountId : String) (amountCents : Int)
    (description : String) : Except Raised DepositRequest :=
  if hid : isBlank depositId then
    .error ⟨.depositValidation, "deposit identifier cannot be blank"⟩
  else if hac : isBlank accountId then
    .error ⟨.depositValidation, "account identifier cannot be blank"⟩
  else if ham : amountCents ≤ 0 then
    .error ⟨.depositValidation, "deposit amount must be greater than zero"⟩
  else
    .ok
      { depositId, accountId, amountCents, description
        depositId_nonblank := nonblank_of_not hid
        accountId_nonblank := nonblank_of_not hac
        amountCents_pos := pos_of_not_le ham }

/-- A workflow result; the corresponding ledger entry remains authoritative. -/
structure Deposit where
  depositId : String
  accountId : String
  amountCents : Int
  description : String
  status : DepositStatus
  deriving DecidableEq, Repr

/-- Append the request as a credit and return its posted workflow result. -/
def postDeposit (request : DepositRequest) : Action Ledger Deposit := do
  let ledger ← get
  let sequence : Int := ledger.entries.length + 1
  let amount ← Money.new request.amountCents
  let entry ← LedgerEntry.new (request.depositId ++ "-ENTRY") request.accountId amount .credit
    (orDefault request.description "Deposit") sequence sequence
  Ledger.append entry
  return ⟨request.depositId, request.accountId, request.amountCents, request.description,
    .posted⟩

/-! ### Withdrawals -/

inductive WithdrawalStatus
  | received
  | posted
  | rejected
  deriving DecidableEq, Repr

/-- A request to withdraw a positive amount expressed as integer cents. -/
@[ext]
structure WithdrawalRequest where
  withdrawalId : String
  accountId : String
  amountCents : Int
  description : String
  withdrawalId_nonblank : isBlank withdrawalId = false := by exact Eq.refl false
  accountId_nonblank : isBlank accountId = false := by exact Eq.refl false
  amountCents_pos : 0 < amountCents := by exact numeral_pos passes
  deriving Repr

instance : DecidableEq WithdrawalRequest :=
  fun _ _ => decidable_of_iff _ WithdrawalRequest.ext_iff.symm

def WithdrawalRequest.new (withdrawalId accountId : String) (amountCents : Int)
    (description : String) : Except Raised WithdrawalRequest :=
  if hid : isBlank withdrawalId then
    .error ⟨.withdrawalValidation, "withdrawal identifier cannot be blank"⟩
  else if hac : isBlank accountId then
    .error ⟨.withdrawalValidation, "account identifier cannot be blank"⟩
  else if ham : amountCents ≤ 0 then
    .error ⟨.withdrawalValidation, "withdrawal amount must be greater than zero"⟩
  else
    .ok
      { withdrawalId, accountId, amountCents, description
        withdrawalId_nonblank := nonblank_of_not hid
        accountId_nonblank := nonblank_of_not hac
        amountCents_pos := pos_of_not_le ham }

/-- A withdrawal decision; only a posted result has a corresponding entry. -/
structure Withdrawal where
  withdrawalId : String
  accountId : String
  amountCents : Int
  description : String
  status : WithdrawalStatus
  rejectionReason : Option String := none
  deriving DecidableEq, Repr

def insufficientFundsReason : String :=
  "Insufficient available funds"

/-- Reject against available funds or append one authoritative debit fact. -/
def processWithdrawal (request : WithdrawalRequest) (pending : List PendingTransaction) :
    Action Ledger Withdrawal := do
  let ledger ← get
  let projection ← projectBalances ledger pending
  if request.amountCents > projection.availableBalance then
    return ⟨request.withdrawalId, request.accountId, request.amountCents, request.description,
      .rejected, some insufficientFundsReason⟩
  let sequence : Int := ledger.entries.length + 1
  let amount ← Money.new request.amountCents
  let entry ← LedgerEntry.new (request.withdrawalId ++ "-ENTRY") request.accountId amount .debit
    (orDefault request.description "Withdrawal") sequence sequence
  Ledger.append entry
  return ⟨request.withdrawalId, request.accountId, request.amountCents, request.description,
    .posted, none⟩

/-! ### Transfers -/

inductive TransferStatus
  | received
  | posted
  | rejected
  deriving DecidableEq, Repr

/-- A request to transfer positive integer cents between distinct accounts. -/
@[ext]
structure TransferRequest where
  transferId : String
  sourceAccountId : String
  destinationAccountId : String
  amountCents : Int
  description : String
  transferId_nonblank : isBlank transferId = false := by exact Eq.refl false
  sourceAccountId_nonblank : isBlank sourceAccountId = false := by exact Eq.refl false
  destinationAccountId_nonblank : isBlank destinationAccountId = false := by exact Eq.refl false
  accounts_ne : sourceAccountId ≠ destinationAccountId := by decide
  amountCents_pos : 0 < amountCents := by exact numeral_pos passes
  deriving Repr

instance : DecidableEq TransferRequest :=
  fun _ _ => decidable_of_iff _ TransferRequest.ext_iff.symm

def TransferRequest.new (transferId sourceAccountId destinationAccountId : String)
    (amountCents : Int) (description : String) : Except Raised TransferRequest :=
  if hid : isBlank transferId then
    .error ⟨.transferValidation, "transfer identifier cannot be blank"⟩
  else if hso : isBlank sourceAccountId then
    .error ⟨.transferValidation, "source account identifier cannot be blank"⟩
  else if hde : isBlank destinationAccountId then
    .error ⟨.transferValidation, "destination account identifier cannot be blank"⟩
  else if hne : sourceAccountId = destinationAccountId then
    .error ⟨.transferValidation, "source and destination accounts must be different"⟩
  else if ham : amountCents ≤ 0 then
    .error ⟨.transferValidation, "transfer amount must be greater than zero"⟩
  else
    .ok
      { transferId, sourceAccountId, destinationAccountId, amountCents, description
        transferId_nonblank := nonblank_of_not hid
        sourceAccountId_nonblank := nonblank_of_not hso
        destinationAccountId_nonblank := nonblank_of_not hde
        accounts_ne := hne
        amountCents_pos := pos_of_not_le ham }

/-- The workflow decision, separate from authoritative ledger history. -/
structure Transfer where
  transferId : String
  sourceAccountId : String
  destinationAccountId : String
  amountCents : Int
  description : String
  status : TransferStatus
  rejectionReason : Option String := none
  deriving DecidableEq, Repr

/-- A transfer decision and the paired entries created by that decision. -/
structure TransferResult where
  transfer : Transfer
  ledgerEntries : List LedgerEntry
  deriving DecidableEq, Repr

/-- Replay one account from the shared ledger's canonical history. -/
def accountBalance (ledger : Ledger) (accountId : String) : Int :=
  ledger.entries.foldl
    (fun balance entry =>
      if entry.accountId = accountId then balance + entry.signedCents else balance) 0

/-- Reject a request or atomically append its debit and credit entries. -/
def processTransfer (request : TransferRequest) : Action Ledger TransferResult := do
  let ledger ← get
  if request.amountCents > accountBalance ledger request.sourceAccountId then
    return ⟨⟨request.transferId, request.sourceAccountId, request.destinationAccountId,
      request.amountCents, request.description, .rejected, some insufficientFundsReason⟩, []⟩
  let firstSequence : Int := ledger.entries.length + 1
  let debitAmount ← Money.new request.amountCents
  let debit ← LedgerEntry.new (request.transferId ++ "-DEBIT") request.sourceAccountId
    debitAmount .debit (orDefault request.description "Internal transfer")
    firstSequence firstSequence
  let creditAmount ← Money.new request.amountCents
  let credit ← LedgerEntry.new (request.transferId ++ "-CREDIT") request.destinationAccountId
    creditAmount .credit (orDefault request.description "Internal transfer")
    (firstSequence + 1) (firstSequence + 1)
  Ledger.appendBatch [debit, credit]
  return ⟨⟨request.transferId, request.sourceAccountId, request.destinationAccountId,
    request.amountCents, request.description, .posted, none⟩, [debit, credit]⟩

end BankSim
