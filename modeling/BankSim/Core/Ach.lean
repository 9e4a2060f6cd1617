import BankSim.Library.Dict
import BankSim.Core.Operations
import BankSim.Core.Scheduler

/-!
# Outbound ACH Transfers

`ach.py`: a payment that moves through guarded stages at fixed virtual times,
holding funds on the way and posting one debit at the end.

The network creates every transfer it works on and keeps it in `transfers`,
where it is never replaced, so a reference to a transfer is its identifier
and changing the object is changing the value under that key.

Each stage schedules the next by a closure over the network and the transfer.
`AchCallback` names the closures and `call` runs them. A scheduler may serve
other components as well, so what it queues is a larger type of callbacks and
`lift` says how a network's callback appears in it.

Completing a transfer is three mutations in a row: the transition, the
removal of the hold and the append to the ledger. The append comes last and
can raise.

## Main definitions

* `AchTransfer.transition`: Apply an allowed transition or raise.
* `AchNetwork`: The ledger, the scheduler, the holds and the transfers.
* `AchNetwork.receive`: Accept instructions and schedule their validation.
* `AchNetwork.validate`, `AchNetwork.markPending`, `AchNetwork.submit`,
  `AchNetwork.process`, `AchNetwork.complete`: The stages.
* `AchNetwork.availableBalance`: An account's balance less all holds.
* `AchNetwork.runNext`: One step of a scheduler that serves only the network.
-/

namespace BankSim

open Exec

def achError (message : String) : Raised :=
  ⟨.achValidation, message⟩

/-- Observable stages of an outbound transfer. -/
inductive AchTransferStatus
  | received
  | validated
  | pending
  | submitted
  | processing
  | completed
  | rejected
  deriving DecidableEq, Repr

def AchTransferStatus.value : AchTransferStatus → String
  | .received => "Received"
  | .validated => "Validated"
  | .pending => "Pending"
  | .submitted => "Submitted"
  | .processing => "Processing"
  | .completed => "Completed"
  | .rejected => "Rejected"

/-- Fictional payment instructions. Nothing is validated here. -/
structure AchTransferRequest where
  transferId : String
  sourceAccountId : String
  destinationInstitution : String
  destinationReference : String
  amountCents : Int
  description : String
  deriving DecidableEq, Repr

/-- One timestamped observation in workflow history. -/
structure AchProcessingEvent where
  time : Int
  status : AchTransferStatus
  description : String
  deriving DecidableEq, Repr

/-- `_ALLOWED_TRANSITIONS`. -/
def AchTransferStatus.allowedTransitions : AchTransferStatus → List AchTransferStatus
  | .received => [.validated, .rejected]
  | .validated => [.pending]
  | .pending => [.submitted]
  | .submitted => [.processing]
  | .processing => [.completed]
  | .completed => []
  | .rejected => []

/-- A stateful payment workflow with guarded transitions. -/
structure AchTransfer where
  request : AchTransferRequest
  status : AchTransferStatus
  rejectionReason : Option String
  history : List AchProcessingEvent
  deriving DecidableEq, Repr

namespace AchTransfer

def new (request : AchTransferRequest) : AchTransfer :=
  ⟨request, .received, none, [⟨0, .received, "ACH transfer received"⟩]⟩

/-- The transfer after an allowed transition. -/
def moved (self : AchTransfer) (status : AchTransferStatus) (time : Int) (description : String) :
    AchTransfer :=
  { self with status, history := self.history ++ [⟨time, status, description⟩] }

/-- Apply an allowed transition or fail immediately. -/
def transition (status : AchTransferStatus) (time : Int) (description : String) :
    Action AchTransfer Unit :=
  guarded (fun self => status ∈ self.status.allowedTransitions)
    (fun self => achError
      s!"cannot transition ACH transfer from {self.status.value} to {status.value}")
    (fun self => self.moved status time description)

def reject (time : Int) (reason : String) : Action AchTransfer Unit := do
  transition .rejected time "Transfer rejected"
  modify fun self => { self with rejectionReason := some reason }

end AchTransfer

/-- `_invalid_reason`: the first defect of a request, if it has one. -/
def AchTransferRequest.invalidReason (request : AchTransferRequest) : Option String :=
  if isBlank request.transferId then
    some "transfer identifier cannot be blank"
  else if isBlank request.sourceAccountId then
    some "source account identifier cannot be blank"
  else if isBlank request.destinationInstitution then
    some "destination institution cannot be blank"
  else if isBlank request.destinationReference then
    some "destination reference cannot be blank"
  else if request.amountCents = 0 then
    some "transfer amount cannot be zero"
  else if request.amountCents < 0 then
    some "transfer amount cannot be negative"
  else
    none

/-- The closures a network schedules. -/
inductive AchCallback
  | validate (transferId : String)
  | markPending (transferId : String)
  | submit (transferId : String)
  | process (transferId : String)
  | complete (transferId : String)
  deriving DecidableEq, Repr

/-- In-memory coordination across fixed virtual-time stages. -/
structure AchNetwork (κ : Type) where
  ledger : Ledger
  scheduler : EventScheduler κ
  pending : List PendingTransaction
  submissions : List String
  transfers : Dict String AchTransfer
  deriving DecidableEq

namespace AchNetwork

variable {κ : Type}

def new (ledger : Ledger) (scheduler : EventScheduler κ := EventScheduler.new) : AchNetwork κ :=
  ⟨ledger, scheduler, [], [], Dict.empty⟩

def ledgerOf : Component (AchNetwork κ) Ledger where
  get self := self.ledger
  set ledger self := { self with ledger }
  get_set _ _ := rfl
  set_get _ := rfl
  set_set _ _ _ := rfl

def schedulerOf : Component (AchNetwork κ) (EventScheduler κ) where
  get self := self.scheduler
  set scheduler self := { self with scheduler }
  get_set _ _ := rfl
  set_get _ := rfl
  set_set _ _ _ := rfl

def transfersOf : Component (AchNetwork κ) (Dict String AchTransfer) where
  get self := self.transfers
  set transfers self := { self with transfers }
  get_set _ _ := rfl
  set_get _ := rfl
  set_set _ _ _ := rfl

/-- Call a method of the transfer with the given identifier. -/
def onTransfer {α : Type} (transferId : String) (method : Action AchTransfer α) :
    Action (AchNetwork κ) α :=
  transfersOf.zoom (Dict.atKey ⟨.keyError, transferId⟩ transferId method)

/-- An account's balance less every pending debit of the network. -/
def availableBalance (self : AchNetwork κ) (accountId : String) : Int :=
  let held := ((self.pending.filter fun item => item.transactionType = .pendingDebit).map
    (·.amount.cents)).sum
  accountBalance self.ledger accountId - held

section Stages

variable (lift : AchCallback → κ)

/-- Receive instructions and schedule their deterministic validation. -/
def receive (request : AchTransferRequest) : Action (AchNetwork κ) String := do
  let self ← get
  if request.transferId ∈ self.transfers then
    throw (achError "ACH transfer identifier already exists")
  modify fun self =>
    { self with transfers := self.transfers.set request.transferId (AchTransfer.new request) }
  schedulerOf.zoom (EventScheduler.scheduleAt 1 (lift (.validate request.transferId)))
  return request.transferId

/-- Why validation rejects a request in this state, if it does: the request
    has a defect, or the account does not have the funds. -/
def rejectionReason (self : AchNetwork κ) (request : AchTransferRequest) : Option String :=
  match request.invalidReason with
  | some reason => some reason
  | none =>
      if request.amountCents > self.availableBalance request.sourceAccountId then
        some "Insufficient available funds"
      else
        none

/-- `_validate`. -/
def validate (transferId : String) : Action (AchNetwork κ) Unit := do
  let request ← onTransfer transferId (return (← get).request)
  let self ← get
  match self.rejectionReason request with
  | some reason => onTransfer transferId (AchTransfer.reject self.scheduler.clock.time reason)
  | none =>
      onTransfer transferId (AchTransfer.transition .validated 1 "Transfer validated")
      schedulerOf.zoom (EventScheduler.scheduleAt 2 (lift (.markPending transferId)))

/-- `_mark_pending`. -/
def markPending (transferId : String) : Action (AchNetwork κ) Unit := do
  onTransfer transferId (AchTransfer.transition .pending 2 "Funds marked pending")
  let request ← onTransfer transferId (return (← get).request)
  let self ← get
  let amount ← Money.new request.amountCents
  let item ← PendingTransaction.new request.transferId amount .pendingDebit
    (orDefault request.description "Outbound ACH credit") (self.pending.length + 1)
  modify fun self => { self with pending := self.pending ++ [item] }
  schedulerOf.zoom (EventScheduler.scheduleAt 3 (lift (.submit transferId)))

def submit (transferId : String) : Action (AchNetwork κ) Unit := do
  onTransfer transferId (AchTransfer.transition .submitted 3 "Submitted to ACH network")
  let request ← onTransfer transferId (return (← get).request)
  modify fun self => { self with submissions := self.submissions ++ [request.transferId] }
  schedulerOf.zoom (EventScheduler.scheduleAt 5 (lift (.process transferId)))

def process (transferId : String) : Action (AchNetwork κ) Unit := do
  onTransfer transferId (AchTransfer.transition .processing 5 "Network processing")
  schedulerOf.zoom (EventScheduler.scheduleAt 10 (lift (.complete transferId)))

/-- Complete once, clear the hold, and append exactly one debit. -/
def complete (transferId : String) : Action (AchNetwork κ) Unit := do
  onTransfer transferId (AchTransfer.transition .completed 10 "Transfer completed")
  let request ← onTransfer transferId (return (← get).request)
  modify fun self =>
    { self with
      pending := self.pending.filter fun item => item.transactionId ≠ request.transferId }
  let self ← get
  let amount ← Money.new request.amountCents
  let entry ← LedgerEntry.new (request.transferId ++ "-DEBIT") request.sourceAccountId amount
    .debit (orDefault request.description "Outbound ACH credit")
    (self.ledger.entries.length + 1) 10
  ledgerOf.zoom (Ledger.append entry)
  onTransfer transferId (modify fun transfer =>
    { transfer with history := transfer.history ++ [⟨10, .completed, "Ledger debit posted"⟩] })

/-- Run one of the network's closures. -/
def call : AchCallback → Action (AchNetwork κ) Unit
  | .validate transferId => validate lift transferId
  | .markPending transferId => markPending lift transferId
  | .submit transferId => submit lift transferId
  | .process transferId => process lift transferId
  | .complete transferId => complete transferId

end Stages

/-- `scheduler.run_next()` on a scheduler that serves only this network. -/
def runNext : Action (AchNetwork AchCallback) Bool :=
  EventScheduler.runNext schedulerOf (call id)

end AchNetwork

end BankSim
