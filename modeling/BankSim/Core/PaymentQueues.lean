import BankSim.Core.Ledger
import BankSim.Core.Scheduler

/-!
# The Payment Queue

`payment_queues.py`: accepted payments wait in a first-in first-out queue, and
a worker that wakes once per simulated minute takes at most `capacity` of them
through their work.

The work of a payment is a closure over whatever it changes, so its type `ω`
is a parameter, and `perform` says what doing it means: a program on the world
that holds the queue. The work may enqueue more payments, may schedule events
and may raise. In the last case the payment it belongs to is already out of
the queue and not yet completed. `tick` is the closure the queue schedules for
itself.

The worker refers to its queue and the queue to its worker. Here the queue
holds the worker, and the worker's methods are programs on the queue.

The scenarios of this chapter and the next run one workload through a
dispatcher. `Scenario` holds the dispatcher and the ledger, and `post` is the
work of a payment there.

## Main definitions

* `QueuedPayment`: An accepted payment with its timestamps.
* `QueuedPayment.waitDuration`: How long it waited.
* `QueueWorker`, `PaymentQueue`: The worker and the queue.
* `PaymentQueue.enqueue`: Append accepted work.
* `PaymentQueue.statistics`: The measurements.
* `QueueWorker.wake`, `QueueWorker.processTick`: The one-minute tick.
* `Payment`, `Scenario.post`: The rows of a workload and their work.
* `Scenario.ledgerEffects`: What that work posted.
-/

namespace BankSim

open Exec

/-- The payment workflows that may be scheduled. -/
inductive PaymentType
  | achTransfer
  | achReturn
  deriving DecidableEq, Repr

/-- One accepted payment and its deterministic queue timestamps. -/
structure QueuedPayment (ω : Type) where
  paymentId : String
  paymentType : PaymentType
  queuedAt : Int
  queuePosition : Nat
  arrivalOrder : Nat
  work : ω
  processingStartedAt : Option Int := none
  completedAt : Option Int := none
  deriving DecidableEq, Repr

/-- Integer time spent waiting, once processing has begun. -/
def QueuedPayment.waitDuration {ω : Type} (self : QueuedPayment ω) : Option Int :=
  self.processingStartedAt.map fun startedAt => startedAt - self.queuedAt

/-- An immutable snapshot of queue measurements. -/
structure QueueStatistics where
  totalProcessed : Nat
  averageWait : Int
  longestWait : Int
  maximumQueueDepth : Nat
  remainingQueuedItems : Nat
  deriving DecidableEq, Repr

/-- What a queue event is about. -/
inductive QueueAction
  | arrived
  | processing
  | completed
  deriving DecidableEq, Repr

/-- One observable queue event. -/
structure QueueEvent where
  time : Int
  action : QueueAction
  paymentId : String
  queueSize : Nat
  deriving DecidableEq, Repr

/-- Process at most `capacity` items per simulated minute. -/
@[ext]
structure QueueWorker where
  capacity : Nat
  tickScheduled : Bool
  capacity_pos : 0 < capacity

instance : DecidableEq QueueWorker :=
  fun _ _ => decidable_of_iff _ QueueWorker.ext_iff.symm

def QueueWorker.new (capacity : Int) : Except Raised QueueWorker :=
  if h : capacity ≤ 0 then
    .error (valueError "worker capacity must be a positive integer")
  else
    .ok ⟨capacity.toNat, false, by omega⟩

/-- A synchronous, in-memory queue driven by an event scheduler. -/
structure PaymentQueue (ω κ : Type) where
  scheduler : EventScheduler κ
  waiting : List (QueuedPayment ω)
  completed : List (QueuedPayment ω)
  events : List QueueEvent
  nextOrder : Nat
  maximumDepth : Nat
  worker : QueueWorker
  deriving DecidableEq

namespace PaymentQueue

variable {ω κ σ : Type}

def new (scheduler : EventScheduler κ) (capacity : Int := 1) :
    Except Raised (PaymentQueue ω κ) := do
  let worker ← QueueWorker.new capacity
  return ⟨scheduler, [], [], [], 0, 0, worker⟩

def schedulerOf : Component (PaymentQueue ω κ) (EventScheduler κ) where
  get self := self.scheduler
  set scheduler self := { self with scheduler }
  get_set _ _ := rfl
  set_get _ := rfl
  set_set _ _ _ := rfl

/-- Append to the event log, with the size the queue has now. -/
def log (time : Int) (action : QueueAction) (paymentId : String) :
    Action (PaymentQueue ω κ) Unit :=
  modify fun self =>
    { self with events := self.events ++ [⟨time, action, paymentId, self.waiting.length⟩] }

/-- Take the first payment out of the queue. -/
def popleft : Action (PaymentQueue ω κ) (QueuedPayment ω) := do
  let self ← get
  match self.waiting with
  | [] => throw ⟨.indexError, "pop from an empty deque"⟩
  | item :: waiting =>
      set { self with waiting }
      return item

end PaymentQueue

namespace QueueWorker

variable {ω κ σ : Type}

/-- Ensure that the next one-minute processing tick is scheduled. -/
def wake (tick : κ) : Action (PaymentQueue ω κ) Unit := do
  let self ← get
  if self.worker.tickScheduled then
    return
  modify fun self => { self with worker := { self.worker with tickScheduled := true } }
  PaymentQueue.schedulerOf.zoom (EventScheduler.scheduleAfter 1 tick)

variable (queue : Component σ (PaymentQueue ω κ)) (perform : ω → Action σ Unit)

/-- One round of the loop of `_process_tick`. -/
def processItem : Action σ Unit := do
  let item ← queue.zoom PaymentQueue.popleft
  let now := (queue.get (← get)).scheduler.clock.time
  queue.zoom (PaymentQueue.log now .processing item.paymentId)
  perform item.work
  queue.zoom (modify fun self =>
    { self with
      completed := self.completed ++
        [{ item with processingStartedAt := some now, completedAt := some now }] })
  queue.zoom (PaymentQueue.log now .completed item.paymentId)

/-- So many rounds of the loop. -/
def processItems : Nat → Action σ Unit
  | 0 => return
  | rounds + 1 => do
      processItem queue perform
      processItems rounds

/-- `_process_tick`. The number of rounds is settled before the first one. -/
def processTick (tick : κ) : Action σ Unit := do
  queue.zoom (modify fun self =>
    { self with worker := { self.worker with tickScheduled := false } })
  let self := queue.get (← get)
  processItems queue perform (min self.worker.capacity self.waiting.length)
  let self := queue.get (← get)
  if ¬ self.waiting.isEmpty then
    queue.zoom (wake tick)

end QueueWorker

namespace PaymentQueue

variable {ω κ σ : Type}

/-- Append accepted work; rejected work is never represented in the queue. -/
def enqueue (tick : κ) (paymentId : String) (paymentType : PaymentType) (work : ω)
    (accepted : Bool := true) : Action (PaymentQueue ω κ) (Option (QueuedPayment ω)) := do
  if ¬ accepted then
    return none
  if isBlank paymentId then
    throw (valueError "payment identifier cannot be blank")
  let self ← get
  let item : QueuedPayment ω :=
    { paymentId, paymentType, queuedAt := self.scheduler.clock.time
      queuePosition := self.waiting.length + 1, arrivalOrder := self.nextOrder, work }
  modify fun self =>
    { self with
      nextOrder := self.nextOrder + 1
      waiting := self.waiting ++ [item]
      maximumDepth := max self.maximumDepth (self.waiting.length + 1) }
  log self.scheduler.clock.time .arrived paymentId
  QueueWorker.wake tick
  return some item

def enqueueAchTransfer (tick : κ) (paymentId : String) (work : ω) (accepted : Bool := true) :
    Action (PaymentQueue ω κ) (Option (QueuedPayment ω)) :=
  enqueue tick paymentId .achTransfer work accepted

def enqueueAchReturn (tick : κ) (paymentId : String) (work : ω) (accepted : Bool := true) :
    Action (PaymentQueue ω κ) (Option (QueuedPayment ω)) :=
  enqueue tick paymentId .achReturn work accepted

def statistics (self : PaymentQueue ω κ) : QueueStatistics :=
  let waits := self.completed.map (·.waitDuration)
  let completedWaits := waits.filterMap id
  let total := completedWaits.length
  { totalProcessed := total
    averageWait := if total ≠ 0 then completedWaits.sum.fdiv total else 0
    longestWait := completedWaits.max?.getD 0
    maximumQueueDepth := self.maximumDepth
    remainingQueuedItems := self.waiting.length }

end PaymentQueue

/-! ### A workload that posts to a ledger -/

/-- A row of a workload, and what its work is going to post. -/
structure Payment where
  paymentId : String
  paymentType : PaymentType
  accountId : String
  entryType : EntryType
  amount : Int
  description : String
  deriving DecidableEq, Repr

/-- The objects of a scenario: what dispatches the payments, and the ledger. -/
structure Scenario (δ : Type) where
  dispatcher : δ
  ledger : Ledger
  deriving DecidableEq

namespace Scenario

variable {δ : Type}

def dispatcherOf : Component (Scenario δ) δ where
  get self := self.dispatcher
  set dispatcher self := { self with dispatcher }
  get_set _ _ := rfl
  set_get _ := rfl
  set_set _ _ _ := rfl

def ledgerOf : Component (Scenario δ) Ledger where
  get self := self.ledger
  set ledger self := { self with ledger }
  get_set _ _ := rfl
  set_get _ := rfl
  set_set _ _ _ := rfl

/-- The work of a payment: append its entry at the current time. -/
def post (time : δ → Int) (payment : Payment) : Action (Scenario δ) Unit := do
  let self ← get
  let amount ← Money.new payment.amount
  let entry ← LedgerEntry.new payment.paymentId payment.accountId amount payment.entryType
    payment.description (self.ledger.entries.length + 1) (time self.dispatcher)
  ledgerOf.zoom (Ledger.append entry)

/-- `ledger_effects`: what was posted after the opening entry. -/
def ledgerEffects (self : Scenario δ) : List (String × EntryType × Int) :=
  self.ledger.entries.tail.map fun entry => (entry.entryId, entry.entryType, entry.amount.cents)

end Scenario

/-- The closures the scheduler of a queue runs: arrivals, the queue's own
    tick, and whatever else the work of payments schedules. -/
inductive QueueCallback (ω ξ : Type)
  | enqueue (paymentId : String) (paymentType : PaymentType) (work : ω)
  | tick
  | other (callback : ξ)
  deriving DecidableEq, Repr

namespace QueueCallback

variable {ω ξ σ : Type} (queue : Component σ (PaymentQueue ω (QueueCallback ω ξ)))
  (perform : ω → Action σ Unit) (other : ξ → Action σ Unit)

def call : QueueCallback ω ξ → Action σ Unit
  | .enqueue paymentId paymentType work => do
      let _ ← queue.zoom (PaymentQueue.enqueue .tick paymentId paymentType work)
  | .tick => QueueWorker.processTick queue perform .tick
  | .other callback => other callback

end QueueCallback

end BankSim
