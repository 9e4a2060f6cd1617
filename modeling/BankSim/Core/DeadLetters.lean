import BankSim.Core.Retries

/-!
# Dead Letters

`dead_letters.py`: payments that can never be processed leave active work and
are kept in a dead-letter queue. A payment with a permanent reason goes there at
its first attempt. A payment with transient failures is retried after a delay,
and goes there when it fails once more than it may be retried.

The dead-letter queue takes a payment identifier once. The processor marks a
payment as isolated only if its entry was taken, so a second failing payment
under the same identifier gets no mark and no result.

As for the retry scheduler, a closure refers to its payment by its place.
`attempt` and `retry` close over the same variables here, so both are a
`DeadLetterWork`.

## Main definitions

* `DeadLetterEntry`, `DeadLetterQueue`: The isolated payments.
* `DeadLetterQueue.isolate`: Store a payment once.
* `DeadLetterPayment`, `ProcessingResult`: The payments and the log.
* `DeadLetterProcessor.submit`: Submit scripted work.
* `DeadLetterProcessor.attempt`, `DeadLetterProcessor.retry`: The two closures.
* `DeadLetterProcessor.statistics`: The measurements.
-/

namespace BankSim

open Exec

/-- The small, typed set of permanent isolation reasons. -/
inductive DeadLetterReason
  | retryLimitExceeded
  | invalidWorkflowState
  | invalidPayment
  | staleEvent
  deriving DecidableEq, Repr

def DeadLetterReason.value : DeadLetterReason → String
  | .retryLimitExceeded => "Retry limit exceeded"
  | .invalidWorkflowState => "Invalid workflow state"
  | .invalidPayment => "Invalid payment"
  | .staleEvent => "Stale event"

/-- The reasons in the order of their definition. -/
def DeadLetterReason.all : List DeadLetterReason :=
  [.retryLimitExceeded, .invalidWorkflowState, .invalidPayment, .staleEvent]

/-- Workflow state captured when work leaves active processing. -/
inductive WorkflowState
  | received
  | validated
  | processing
  | completed
  | failed
  deriving DecidableEq, Repr

/-- An immutable diagnostic snapshot of isolated payment work. -/
structure DeadLetterEntry where
  paymentId : String
  requestId : String
  reason : DeadLetterReason
  retryCount : Nat
  isolatedAt : Int
  originalState : WorkflowState
  diagnosticMessage : String
  deriving DecidableEq, Repr

/-- Append-only, insertion-ordered storage for permanent failures. The set of
    identifiers holds those of the entries. -/
structure DeadLetterQueue where
  entries : List DeadLetterEntry
  paymentIds : List String
  paymentIds_eq : paymentIds = entries.map (·.paymentId)
  nodup : paymentIds.Nodup
  deriving DecidableEq

namespace DeadLetterQueue

def new : DeadLetterQueue :=
  ⟨[], [], rfl, List.nodup_nil⟩

/-- Store a payment once, preserving deterministic insertion order. -/
def isolate (entry : DeadLetterEntry) : Action DeadLetterQueue Bool := do
  let self ← get
  if h : entry.paymentId ∈ self.paymentIds then
    return false
  else
    set ({ entries := self.entries ++ [entry]
           paymentIds := self.paymentIds ++ [entry.paymentId]
           paymentIds_eq := by rw [List.map_append, ← self.paymentIds_eq]; rfl
           nodup := List.Nodup.append self.nodup (List.nodup_singleton _)
             (List.disjoint_singleton.mpr h) } : DeadLetterQueue)
    return true

end DeadLetterQueue

structure DeadLetterStatistics where
  itemsProcessed : Nat
  successfulPayments : Nat
  retryAttempts : Nat
  dlqEntries : Nat
  dlqReasons : List (DeadLetterReason × Nat)
  activeQueueSize : Int
  dlqSize : Nat
  deriving DecidableEq, Repr

structure DeadLetterPayment where
  paymentId : String
  requestId : String
  originalState : WorkflowState
  attempts : Nat := 0
  retryCount : Nat := 0
  completed : Bool := false
  isolated : Bool := false
  deriving DecidableEq, Repr

/-- What came of an attempt. -/
inductive ProcessingOutcome
  | retryScheduled
  | succeeded
  | movedToDlq
  deriving DecidableEq, Repr

structure ProcessingResult where
  time : Int
  paymentId : String
  outcome : ProcessingOutcome
  attemptNumber : Nat
  deriving DecidableEq, Repr

/-- The variables that `attempt` and `retry` close over. -/
structure DeadLetterWork (ω : Type) where
  payment : Nat
  work : ω
  failures : List String
  permanentReason : Option DeadLetterReason
  diagnostic : Option String
  deriving DecidableEq, Repr

/-- Coordinate bounded retries and permanent isolation around payment work. -/
@[ext]
structure DeadLetterProcessor (ω ξ : Type) where
  queue : AttemptQueue (DeadLetterWork ω) (DeadLetterWork ω) ξ
  deadLetters : DeadLetterQueue
  maximumRetries : Nat
  retryDelay : Int
  payments : List DeadLetterPayment
  results : List ProcessingResult
  pendingRetries : Int
  retryDelay_pos : 0 < retryDelay

instance {ω ξ : Type} [DecidableEq ω] [DecidableEq ξ] : DecidableEq (DeadLetterProcessor ω ξ) :=
  fun _ _ => decidable_of_iff _ DeadLetterProcessor.ext_iff.symm

namespace DeadLetterProcessor

variable {ω ξ σ : Type}

def new (queue : AttemptQueue (DeadLetterWork ω) (DeadLetterWork ω) ξ)
    (deadLetters : DeadLetterQueue) (maximumRetries : Int := 2) (retryDelay : Int := 2) :
    Except Raised (DeadLetterProcessor ω ξ) :=
  if maximumRetries < 0 then
    .error (valueError "maximum retries must be a nonnegative integer")
  else if hdelay : retryDelay ≤ 0 then
    .error (valueError "retry delay must be a positive integer")
  else
    .ok ⟨queue, deadLetters, maximumRetries.toNat, retryDelay, [], [], 0, pos_of_not_le hdelay⟩

def queueOf : Component (DeadLetterProcessor ω ξ)
    (AttemptQueue (DeadLetterWork ω) (DeadLetterWork ω) ξ) where
  get self := self.queue
  set queue self := { self with queue }
  get_set _ _ := rfl
  set_get _ := rfl
  set_set _ _ _ := rfl

def deadLettersOf : Component (DeadLetterProcessor ω ξ) DeadLetterQueue where
  get self := self.deadLetters
  set deadLetters self := { self with deadLetters }
  get_set _ _ := rfl
  set_get _ := rfl
  set_set _ _ _ := rfl

/-- `self.scheduler.clock.time`. -/
def now (self : DeadLetterProcessor ω ξ) : Int :=
  self.queue.scheduler.clock.time

/-- The payment a closure refers to. -/
def payment (self : DeadLetterProcessor ω ξ) (place : Nat) : Except Raised DeadLetterPayment :=
  match self.payments[place]? with
  | some payment => .ok payment
  | none => .error ⟨.indexError, "list index out of range"⟩

def modifyPayment (place : Nat) (change : DeadLetterPayment → DeadLetterPayment) :
    Action (DeadLetterProcessor ω ξ) Unit :=
  modify fun self => { self with payments := self.payments.modify place change }

/-- Append to the results. -/
def record (result : ProcessingResult) : Action (DeadLetterProcessor ω ξ) Unit :=
  modify fun self => { self with results := self.results ++ [result] }

/-- `_enqueue_attempt`: put an attempt into the queue, unless the payment is
    done with. -/
def enqueueAttempt (closure : DeadLetterWork ω) : Action (DeadLetterProcessor ω ξ) Unit := do
  let self ← get
  let payment ← self.payment closure.payment
  if payment.isolated || payment.completed then
    return
  let _ ← queueOf.zoom (PaymentQueue.enqueue .tick payment.paymentId .achTransfer closure)

/-- Submit scripted work; permanent rules take precedence over retries. The
    result is the place of the payment. -/
def submit (paymentId requestId : String) (work : ω) (transientFailures : List String := [])
    (permanentReason : Option DeadLetterReason := none)
    (originalState : WorkflowState := .validated) (diagnosticMessage : Option String := none) :
    Action (DeadLetterProcessor ω ξ) Nat := do
  if isBlank paymentId || isBlank requestId then
    throw (valueError "payment and request identifiers cannot be blank")
  if transientFailures.any isBlank then
    throw (valueError "transient failure messages cannot be blank")
  let self ← get
  let place := self.payments.length
  modify fun self =>
    { self with payments := self.payments ++ [{ paymentId, requestId, originalState }] }
  enqueueAttempt ⟨place, work, transientFailures, permanentReason, diagnosticMessage⟩
  return place

/-- `_isolate`: hand the payment over to the dead-letter queue, and mark it if
    its entry was taken. -/
def isolate (place : Nat) (reason : DeadLetterReason) (diagnostic : String) :
    Action (DeadLetterProcessor ω ξ) Unit := do
  let self ← get
  let payment ← self.payment place
  if ← deadLettersOf.zoom (DeadLetterQueue.isolate
      { paymentId := payment.paymentId
        requestId := payment.requestId
        reason
        retryCount := payment.retryCount
        isolatedAt := self.now
        originalState := payment.originalState
        diagnosticMessage := diagnostic }) then
    modifyPayment place fun payment => { payment with isolated := true }
    record ⟨self.now, payment.paymentId, .movedToDlq, payment.attempts⟩

/-- `diagnostic or permanent_reason.value`: an empty text counts as none. -/
def diagnosticOr (diagnostic : Option String) (reason : DeadLetterReason) : String :=
  match diagnostic with
  | some text => if text = "" then reason.value else text
  | none => reason.value

/-- What an attempt does when the script has a message for it: isolate the
    payment if it was retried often enough, and schedule another attempt
    otherwise. -/
def fail (closure : DeadLetterWork ω) (payment : DeadLetterPayment) (message : String) :
    Action (DeadLetterProcessor ω ξ) Unit := do
  let self ← get
  if self.maximumRetries ≤ payment.retryCount then
    isolate closure.payment .retryLimitExceeded message
  else
    modifyPayment closure.payment fun payment =>
      { payment with retryCount := payment.retryCount + 1 }
    record ⟨self.now, payment.paymentId, .retryScheduled, payment.attempts⟩
    modify fun self => { self with pendingRetries := self.pendingRetries + 1 }
    queueOf.zoom (PaymentQueue.schedulerOf.zoom
      (EventScheduler.scheduleAfter self.retryDelay (.other (.retry closure))))

/-- An attempt up to the point where it calls the work, and whether it is to
    call it. -/
def tryAttempt (closure : DeadLetterWork ω) : Action (DeadLetterProcessor ω ξ) Bool := do
  let self ← get
  let payment ← self.payment closure.payment
  if payment.isolated || payment.completed then
    return false
  modifyPayment closure.payment fun payment => { payment with attempts := payment.attempts + 1 }
  let self ← get
  let payment ← self.payment closure.payment
  match closure.permanentReason with
  | some reason =>
      isolate closure.payment reason (diagnosticOr closure.diagnostic reason)
      return false
  | none =>
      -- `attempts <= len(failures)` is to say that there is a message.
      match closure.failures[payment.attempts - 1]? with
      | some message =>
          fail closure payment message
          return false
      | none => return true

/-- What an attempt does when the work returned. -/
def succeed (closure : DeadLetterWork ω) : Action (DeadLetterProcessor ω ξ) Unit := do
  modifyPayment closure.payment fun payment => { payment with completed := true }
  let self ← get
  let payment ← self.payment closure.payment
  record ⟨self.now, payment.paymentId, .succeeded, payment.attempts⟩

section Attempts

variable (processor : Component σ (DeadLetterProcessor ω ξ)) (perform : ω → Action σ Unit)

/-- The closure `attempt`. -/
def attempt (closure : DeadLetterWork ω) : Action σ Unit := do
  if ← processor.zoom (tryAttempt closure) then
    perform closure.work
    processor.zoom (succeed closure)

/-- The closure `retry`. -/
def retry (closure : DeadLetterWork ω) : Action (DeadLetterProcessor ω ξ) Unit := do
  modify fun self => { self with pendingRetries := self.pendingRetries - 1 }
  enqueueAttempt closure

variable (other : ξ → Action σ Unit)

/-- What the scheduler runs. -/
def call :
    QueueCallback (DeadLetterWork ω) (RetryCallback (DeadLetterWork ω) ξ) → Action σ Unit :=
  QueueCallback.call (processor.comp queueOf) (attempt processor perform)
    (RetryCallback.call (fun closure => processor.zoom (retry closure)) other)

end Attempts

def statistics (self : DeadLetterProcessor ω ξ) : DeadLetterStatistics where
  itemsProcessed := self.payments.length
  successfulPayments := self.payments.countP (·.completed)
  retryAttempts := (self.payments.map (·.retryCount)).sum
  dlqEntries := self.deadLetters.entries.length
  dlqReasons := (DeadLetterReason.all.map fun reason =>
    (reason, self.deadLetters.entries.countP fun entry => entry.reason = reason)).filter
      fun row => 0 < row.2
  activeQueueSize := self.queue.waiting.length + self.pendingRetries
  dlqSize := self.deadLetters.entries.length

end DeadLetterProcessor

end BankSim
