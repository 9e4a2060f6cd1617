import BankSim.Core.PaymentQueues

/-!
# Retries

`retries.py`: payments whose first attempts fail in the way a script says. An
attempt is work for the payment queue. A failed attempt schedules the next one
a fixed delay later, until the policy allows no more, and the financial work of
the payment is called by the first attempt that the script does not fail.

A payment is an object that the closures of its attempts share, so a closure
refers to it by its place among the payments. `RetryWork` is the closure
`attempt` and `RetryTimer` the closure `retry`, each with the variables it
closes over. The script and the identifier are read from the payment.

The retry scheduler and the queue are used on one event scheduler, which here
is the one inside the queue.

## Main definitions

* `RetryPolicy`: A retry limit and a delay.
* `RetryPayment`, `RetryAttempt`, `RetryEvent`: The payments and the two logs.
* `RetryCallback`: The closures a retrying engine schedules.
* `RetryScheduler.submit`: Queue a payment with its script.
* `RetryScheduler.attempt`, `RetryScheduler.retry`: The two closures.
* `RetryScheduler.statistics`: The measurements.
-/

namespace BankSim

open Exec

/-- The terminal result of retry processing. -/
inductive FinalOutcome
  | succeeded
  | permanentlyFailed
  deriving DecidableEq, Repr

/-- A fixed retry limit and simulated delay. -/
@[ext]
structure RetryPolicy where
  maximumRetries : Nat := 3
  retryDelay : Int := 2
  retryDelay_pos : 0 < retryDelay := by exact numeral_pos passes

instance : DecidableEq RetryPolicy :=
  fun _ _ => decidable_of_iff _ RetryPolicy.ext_iff.symm

def RetryPolicy.new (maximumRetries : Int := 3) (retryDelay : Int := 2) :
    Except Raised RetryPolicy :=
  if maximumRetries < 0 then
    .error (valueError "maximum retries must be a nonnegative integer")
  else if hdelay : retryDelay ≤ 0 then
    .error (valueError "retry delay must be a positive integer")
  else
    .ok ⟨maximumRetries.toNat, retryDelay, pos_of_not_le hdelay⟩

/-- One completed attempt and, when applicable, its next retry time. -/
structure RetryAttempt where
  paymentId : String
  attemptNumber : Nat
  attemptedAt : Int
  succeeded : Bool
  retryReason : Option String
  scheduledRetryTime : Option Int
  remainingRetries : Int
  deriving DecidableEq, Repr

/-- What a retry event is about. -/
inductive RetryAction
  | queued
  | failed
  | retryScheduled
  | permanentlyFailed
  | succeeded
  deriving DecidableEq, Repr

/-- One stable event exposed by retry timelines. -/
structure RetryEvent where
  time : Int
  action : RetryAction
  paymentId : String
  attemptNumber : Option Nat := none
  deriving DecidableEq, Repr

/-- An accepted payment with an explicit sequence of transient failures. -/
structure RetryPayment where
  paymentId : String
  failureScript : List String
  attempts : Nat := 0
  finalOutcome : Option FinalOutcome := none
  deriving DecidableEq, Repr

/-- Deterministic retry measurements; averages are stored as hundredths. -/
structure RetryStatistics where
  totalPayments : Nat
  totalRetries : Nat
  successfulRecoveries : Nat
  permanentFailures : Nat
  averageAttemptsHundredths : Nat
  maximumAttempts : Nat
  retryQueueSize : Int
  deriving DecidableEq, Repr

/-- The closure `attempt`: one attempt at a payment. -/
structure RetryWork (ω : Type) where
  payment : Nat
  work : ω
  deriving DecidableEq, Repr

/-- The closure `retry`, with the number of the attempt that failed. -/
structure RetryTimer (ω : Type) extends RetryWork ω where
  number : Nat
  deriving DecidableEq, Repr

/-- What an engine that retries puts on the scheduler besides the queue's tick:
    its timers, and whatever the work of payments schedules. -/
inductive RetryCallback (θ ξ : Type)
  | retry (timer : θ)
  | other (callback : ξ)
  deriving DecidableEq, Repr

namespace RetryCallback

variable {θ ξ σ : Type}

def call (retry : θ → Action σ Unit) (other : ξ → Action σ Unit) :
    RetryCallback θ ξ → Action σ Unit
  | .retry timer => retry timer
  | .other callback => other callback

end RetryCallback

/-- A payment queue whose work is attempts. -/
abbrev AttemptQueue (γ θ ξ : Type) :=
  PaymentQueue γ (QueueCallback γ (RetryCallback θ ξ))

/-- Submit attempts to a payment queue and schedule fixed-delay retries. -/
structure RetryScheduler (ω ξ : Type) where
  queue : AttemptQueue (RetryWork ω) (RetryTimer ω) ξ
  policy : RetryPolicy
  payments : List RetryPayment
  attempts : List RetryAttempt
  events : List RetryEvent
  pendingRetries : Int
  deriving DecidableEq

namespace RetryScheduler

variable {ω ξ σ : Type}

def new (queue : AttemptQueue (RetryWork ω) (RetryTimer ω) ξ) (policy : RetryPolicy := {}) :
    RetryScheduler ω ξ :=
  ⟨queue, policy, [], [], [], 0⟩

def queueOf :
    Component (RetryScheduler ω ξ) (AttemptQueue (RetryWork ω) (RetryTimer ω) ξ) where
  get self := self.queue
  set queue self := { self with queue }
  get_set _ _ := rfl
  set_get _ := rfl
  set_set _ _ _ := rfl

/-- `self.scheduler.clock.time`. -/
def now (self : RetryScheduler ω ξ) : Int :=
  self.queue.scheduler.clock.time

/-- The payment a closure refers to. -/
def payment (self : RetryScheduler ω ξ) (place : Nat) : Except Raised RetryPayment :=
  match self.payments[place]? with
  | some payment => .ok payment
  | none => .error ⟨.indexError, "list index out of range"⟩

def modifyPayment (place : Nat) (change : RetryPayment → RetryPayment) :
    Action (RetryScheduler ω ξ) Unit :=
  modify fun self => { self with payments := self.payments.modify place change }

/-- Append to the record of attempts. -/
def record (attempt : RetryAttempt) : Action (RetryScheduler ω ξ) Unit :=
  modify fun self => { self with attempts := self.attempts ++ [attempt] }

/-- Append to the event log. -/
def log (event : RetryEvent) : Action (RetryScheduler ω ξ) Unit :=
  modify fun self => { self with events := self.events ++ [event] }

/-- `_enqueue_attempt`: put an attempt into the queue. -/
def enqueueAttempt (closure : RetryWork ω) : Action (RetryScheduler ω ξ) Unit := do
  let self ← get
  let payment ← self.payment closure.payment
  let _ ← queueOf.zoom (PaymentQueue.enqueue .tick payment.paymentId .achTransfer closure)

/-- Queue a payment whose first scripted reasons cause transient failures. The
    result is the place of the payment. -/
def submit (paymentId : String) (failureScript : List String) (work : ω) :
    Action (RetryScheduler ω ξ) Nat := do
  if isBlank paymentId then
    throw (valueError "payment identifier cannot be blank")
  if failureScript.any isBlank then
    throw (valueError "failure reasons cannot be blank")
  let self ← get
  let place := self.payments.length
  modify fun self => { self with payments := self.payments ++ [{ paymentId, failureScript }] }
  log { time := self.now, action := .queued, paymentId }
  enqueueAttempt ⟨place, work⟩
  return place

/-- What an attempt does when the script has a reason for it to fail. -/
def fail (closure : RetryWork ω) (payment : RetryPayment) (reason : String) :
    Action (RetryScheduler ω ξ) Unit := do
  let self ← get
  let number := payment.attempts
  let remaining : Int := self.policy.maximumRetries - (number - 1)
  if 0 < remaining then
    let retryTime := self.now + self.policy.retryDelay
    record ⟨payment.paymentId, number, self.now, false, some reason, some retryTime, remaining⟩
    log ⟨self.now, .failed, payment.paymentId, some number⟩
    modify fun self => { self with pendingRetries := self.pendingRetries + 1 }
    queueOf.zoom (PaymentQueue.schedulerOf.zoom
      (EventScheduler.scheduleAt retryTime (.other (.retry ⟨closure, number⟩))))
  else
    modifyPayment closure.payment fun payment =>
      { payment with finalOutcome := some .permanentlyFailed }
    record ⟨payment.paymentId, number, self.now, false, some reason, none, 0⟩
    log ⟨self.now, .permanentlyFailed, payment.paymentId, some number⟩

/-- An attempt up to the point where it calls the work: the payment as the
    attempt found it, if the work is to be called. -/
def tryAttempt (closure : RetryWork ω) :
    Action (RetryScheduler ω ξ) (Option RetryPayment) := do
  modifyPayment closure.payment fun payment => { payment with attempts := payment.attempts + 1 }
  let self ← get
  let payment ← self.payment closure.payment
  -- `number <= len(script)` is to say that the script has a reason there.
  match payment.failureScript[payment.attempts - 1]? with
  | some reason =>
      fail closure payment reason
      return none
  | none => return some payment

/-- What an attempt does when the work returned. -/
def succeed (closure : RetryWork ω) (payment : RetryPayment) :
    Action (RetryScheduler ω ξ) Unit := do
  let self ← get
  let number := payment.attempts
  modifyPayment closure.payment fun payment => { payment with finalOutcome := some .succeeded }
  record ⟨payment.paymentId, number, self.now, true, none, none,
    self.policy.maximumRetries - (number - 1)⟩
  log ⟨self.now, .succeeded, payment.paymentId, some number⟩

section Attempts

variable (retries : Component σ (RetryScheduler ω ξ)) (perform : ω → Action σ Unit)

/-- The closure `attempt`. -/
def attempt (closure : RetryWork ω) : Action σ Unit := do
  match ← retries.zoom (tryAttempt closure) with
  | none => return
  | some payment =>
      perform closure.work
      retries.zoom (succeed closure payment)

/-- The closure `retry`. -/
def retry (timer : RetryTimer ω) : Action (RetryScheduler ω ξ) Unit := do
  modify fun self => { self with pendingRetries := self.pendingRetries - 1 }
  let self ← get
  let payment ← self.payment timer.payment
  log ⟨self.now, .retryScheduled, payment.paymentId, some (timer.number + 1)⟩
  enqueueAttempt timer.toRetryWork

variable (other : ξ → Action σ Unit)

/-- What the scheduler runs. -/
def call : QueueCallback (RetryWork ω) (RetryCallback (RetryTimer ω) ξ) → Action σ Unit :=
  QueueCallback.call (retries.comp queueOf) (attempt retries perform)
    (RetryCallback.call (fun timer => retries.zoom (retry timer)) other)

end Attempts

def statistics (self : RetryScheduler ω ξ) : RetryStatistics :=
  let count := self.payments.length
  let totalAttempts := (self.payments.map (·.attempts)).sum
  { totalPayments := count
    totalRetries := (self.payments.map fun payment => payment.attempts - 1).sum
    successfulRecoveries := self.payments.countP fun payment =>
      1 < payment.attempts && payment.finalOutcome = some .succeeded
    permanentFailures := self.payments.countP fun payment =>
      payment.finalOutcome = some .permanentlyFailed
    averageAttemptsHundredths := if count = 0 then 0 else totalAttempts * 100 / count
    maximumAttempts := (self.payments.map (·.attempts)).foldl max 0
    retryQueueSize := self.pendingRetries }

end RetryScheduler

end BankSim
