import BankSim.Core.Ach

/-!
# ACH Returns

`ach_returns.py`: the correction of a completed transfer by one credit of the
full amount, without touching the transfer or earlier ledger entries.

A processor works on the network it is given: it reads the network's
transfers, posts to the network's ledger and schedules on the network's
scheduler. Its returns are kept the way the network keeps its transfers, and
`AchReturnCallback` names its closures.

A scheduler that serves both holds callbacks of either kind, so the steps of
the two components interleave in one queue.

## Main definitions

* `AchReturn.transition`: Apply an allowed transition or raise.
* `AchReturnProcessor`: A network and the returns against its transfers.
* `AchReturnProcessor.receive`: Accept a return and schedule its validation.
* `AchReturnProcessor.validate`, `AchReturnProcessor.process`,
  `AchReturnProcessor.complete`: The stages.
* `AchReturnProcessor.runNext`: One step of the shared scheduler.
-/

namespace BankSim

open Exec

def achReturnError (message : String) : Raised :=
  ⟨.achReturnValidation, message⟩

/-- Simplified teaching reasons. -/
inductive AchReturnReason
  | accountClosed
  | invalidAccount
  | insufficientFundsAtReceivingInstitution
  | unauthorized
  deriving DecidableEq, Repr

inductive AchReturnStatus
  | received
  | validated
  | processing
  | completed
  | rejected
  deriving DecidableEq, Repr

def AchReturnStatus.value : AchReturnStatus → String
  | .received => "Received"
  | .validated => "Validated"
  | .processing => "Processing"
  | .completed => "Completed"
  | .rejected => "Rejected"

structure AchReturnRequest where
  returnId : String
  originalTransferId : String
  reason : AchReturnReason
  amountCents : Int
  deriving DecidableEq, Repr

structure AchReturnEvent where
  time : Int
  status : AchReturnStatus
  description : String
  deriving DecidableEq, Repr

/-- `_ALLOWED_TRANSITIONS`. -/
def AchReturnStatus.allowedTransitions : AchReturnStatus → List AchReturnStatus
  | .received => [.validated, .rejected]
  | .validated => [.processing]
  | .processing => [.completed]
  | .completed => []
  | .rejected => []

structure AchReturn where
  request : AchReturnRequest
  receivedAt : Int
  status : AchReturnStatus
  completedAt : Option Int
  correctiveEntryId : Option String
  rejectionReason : Option String
  history : List AchReturnEvent
  deriving DecidableEq, Repr

namespace AchReturn

def new (request : AchReturnRequest) (receivedAt : Int) : AchReturn :=
  ⟨request, receivedAt, .received, none, none, none,
    [⟨receivedAt, .received, "ACH return received"⟩]⟩

/-- The return after an allowed transition. -/
def moved (self : AchReturn) (status : AchReturnStatus) (time : Int) (description : String) :
    AchReturn :=
  { self with status, history := self.history ++ [⟨time, status, description⟩] }

def transition (status : AchReturnStatus) (time : Int) (description : String) :
    Action AchReturn Unit :=
  guarded (fun self => status ∈ self.status.allowedTransitions)
    (fun self => achReturnError
      s!"cannot transition ACH return from {self.status.value} to {status.value}")
    (fun self => self.moved status time description)

def reject (time : Int) (reason : String) : Action AchReturn Unit := do
  transition .rejected time "ACH return rejected"
  modify fun self => { self with rejectionReason := some reason }

end AchReturn

/-- The closures a return processor schedules. -/
inductive AchReturnCallback
  | validate (returnId : String)
  | process (returnId : String)
  | complete (returnId : String)
  deriving DecidableEq, Repr

/-- Coordinates returns without mutating transfers or prior ledger history. -/
structure AchReturnProcessor (κ : Type) where
  network : AchNetwork κ
  returns : Dict String AchReturn
  returnsByTransfer : Dict String String
  deriving DecidableEq

namespace AchReturnProcessor

variable {κ : Type}

def new (network : AchNetwork κ) : AchReturnProcessor κ :=
  ⟨network, Dict.empty, Dict.empty⟩

def networkOf : Component (AchReturnProcessor κ) (AchNetwork κ) where
  get self := self.network
  set network self := { self with network }
  get_set _ _ := rfl
  set_get _ := rfl
  set_set _ _ _ := rfl

def schedulerOf : Component (AchReturnProcessor κ) (EventScheduler κ) :=
  networkOf.comp AchNetwork.schedulerOf

def ledgerOf : Component (AchReturnProcessor κ) Ledger :=
  networkOf.comp AchNetwork.ledgerOf

def returnsOf : Component (AchReturnProcessor κ) (Dict String AchReturn) where
  get self := self.returns
  set returns self := { self with returns }
  get_set _ _ := rfl
  set_get _ := rfl
  set_set _ _ _ := rfl

/-- Call a method of the return with the given identifier. -/
def onReturn {α : Type} (returnId : String) (method : Action AchReturn α) :
    Action (AchReturnProcessor κ) α :=
  returnsOf.zoom (Dict.atKey ⟨.keyError, returnId⟩ returnId method)

/-- `_invalid_reason`: why validation rejects a request in this state, if it
    does. -/
def invalidReason (self : AchReturnProcessor κ) (request : AchReturnRequest) : Option String :=
  if isBlank request.returnId then
    some "return identifier cannot be blank"
  else if isBlank request.originalTransferId then
    some "original transfer identifier cannot be blank"
  else
    match self.network.transfers.get? request.originalTransferId with
    | none => some "original ACH transfer does not exist"
    | some transfer =>
        if transfer.status ≠ .completed then
          some "original ACH transfer is not completed"
        else if request.amountCents ≠ transfer.request.amountCents then
          some "return amount must match original transfer amount"
        else if request.originalTransferId ∈ self.returnsByTransfer then
          some "original ACH transfer already has a return"
        else
          none

section Stages

variable (lift : AchReturnCallback → κ)

def receive (request : AchReturnRequest) : Action (AchReturnProcessor κ) String := do
  let self ← get
  if request.returnId ∈ self.returns then
    return request.returnId
  modify fun self =>
    { self with
      returns := self.returns.set request.returnId
        (AchReturn.new request self.network.scheduler.clock.time) }
  schedulerOf.zoom (EventScheduler.scheduleAfter 1 (lift (.validate request.returnId)))
  return request.returnId

def validate (returnId : String) : Action (AchReturnProcessor κ) Unit := do
  let request ← onReturn returnId (return (← get).request)
  let self ← get
  match self.invalidReason request with
  | some reason =>
      onReturn returnId (AchReturn.reject self.network.scheduler.clock.time reason)
  | none =>
      onReturn returnId
        (AchReturn.transition .validated self.network.scheduler.clock.time "ACH return validated")
      modify fun self =>
        { self with
          returnsByTransfer := self.returnsByTransfer.set request.originalTransferId returnId }
      schedulerOf.zoom (EventScheduler.scheduleAfter 1 (lift (.process returnId)))

def process (returnId : String) : Action (AchReturnProcessor κ) Unit := do
  let self ← get
  onReturn returnId
    (AchReturn.transition .processing self.network.scheduler.clock.time "ACH return processing")
  schedulerOf.zoom (EventScheduler.scheduleAfter 3 (lift (.complete returnId)))

/-- Append one full corrective credit after the guarded transition. -/
def complete (returnId : String) : Action (AchReturnProcessor κ) Unit := do
  let self ← get
  let time := self.network.scheduler.clock.time
  onReturn returnId (AchReturn.transition .completed time "ACH return completed")
  let request ← onReturn returnId (return (← get).request)
  let entryId := request.returnId ++ "-CREDIT"
  let original ← networkOf.zoom
    (AchNetwork.onTransfer request.originalTransferId (return (← get).request))
  let self ← get
  let amount ← Money.new request.amountCents
  let entry ← LedgerEntry.new entryId original.sourceAccountId amount .credit "ACH return credit"
    (self.network.ledger.entries.length + 1) time (some request.originalTransferId)
    (some request.returnId)
  ledgerOf.zoom (Ledger.append entry)
  onReturn returnId (modify fun item =>
    { item with
      completedAt := some time
      correctiveEntryId := some entryId
      history := item.history ++ [⟨time, .completed, "Corrective credit posted"⟩] })

/-- Run one of the processor's closures. -/
def call : AchReturnCallback → Action (AchReturnProcessor κ) Unit
  | .validate returnId => validate lift returnId
  | .process returnId => process lift returnId
  | .complete returnId => complete returnId

end Stages

/-- Run a closure of either component. -/
def callEither : AchCallback ⊕ AchReturnCallback →
    Action (AchReturnProcessor (AchCallback ⊕ AchReturnCallback)) Unit
  | .inl callback => networkOf.zoom (AchNetwork.call Sum.inl callback)
  | .inr callback => call Sum.inr callback

/-- `scheduler.run_next()` on the scheduler the two components share. -/
def runNext : Action (AchReturnProcessor (AchCallback ⊕ AchReturnCallback)) Bool :=
  EventScheduler.runNext schedulerOf callEither

end AchReturnProcessor

end BankSim
