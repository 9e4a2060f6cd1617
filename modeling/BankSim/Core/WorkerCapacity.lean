import BankSim.Core.PaymentQueues

/-!
# The Worker Pool

`worker_capacity.py`: a fixed number of workers, each busy with at most one
payment for a fixed time. A payment that arrives goes to the lowest-numbered
idle worker, or waits until one is free.

A worker is referred to by its place in the pool, counted from zero, and
`finish` is the closure that the pool schedules for the worker in that place.
As for the queue, `perform` says what the work of a payment does to the world
that holds the pool.

## Main definitions

* `CapacityConfiguration`: The number of workers and their speed.
* `PaymentWorker`, `WorkerPool`: One worker, and all of them.
* `WorkerPool.dispatch`: Give waiting payments to idle workers.
* `WorkerPool.enqueue`, `WorkerPool.complete`: The two events of a pool.
* `WorkerPool.metrics`, `WorkerPool.workerStatistics`: What is measured.
-/

namespace BankSim

open Exec

/-- Fixed worker-pool settings for one repeatable run. -/
@[ext]
structure CapacityConfiguration where
  workerCount : Nat
  processingTime : Int
  workerCount_pos : 0 < workerCount := by exact count_pos passes
  processingTime_pos : 0 < processingTime := by exact numeral_pos passes

instance : DecidableEq CapacityConfiguration :=
  fun _ _ => decidable_of_iff _ CapacityConfiguration.ext_iff.symm

def CapacityConfiguration.new (workerCount : Int) (processingTime : Int := 2) :
    Except Raised CapacityConfiguration :=
  if hworkers : workerCount ≤ 0 then
    .error (valueError "worker count must be a positive integer")
  else if htime : processingTime ≤ 0 then
    .error (valueError "processing time must be a positive integer")
  else
    .ok ⟨workerCount.toNat, processingTime, by omega, pos_of_not_le htime⟩

/-- Measurements for one worker. -/
structure WorkerStatistics where
  workerId : String
  paymentsCompleted : Nat
  totalBusyTime : Int
  utilizationPercentage : Int
  deriving DecidableEq, Repr

/-- What a capacity event is about. -/
inductive CapacityAction
  | arrived
  | assigned
  | completed
  deriving DecidableEq, Repr

/-- One observable arrival, assignment, or completion. -/
structure CapacityEvent where
  time : Int
  action : CapacityAction
  paymentId : String
  workerId : Option String
  queueDepth : Nat
  deriving DecidableEq, Repr

/-- Operational results, in integer arithmetic that rounds down. -/
structure ThroughputMetrics where
  totalCompletionTime : Int
  averageWait : Int
  maximumWait : Int
  averageQueueDepthHundredths : Int
  maximumQueueDepth : Nat
  paymentsProcessed : Nat
  throughputHundredths : Int
  deriving DecidableEq, Repr

/-- A single deterministic simulated worker. -/
structure PaymentWorker (ω : Type) where
  workerId : String
  currentPayment : Option (QueuedPayment ω) := none
  paymentsCompleted : Nat := 0
  totalBusyTime : Int := 0
  deriving DecidableEq, Repr

/-- Assign payment work to the lowest-numbered idle worker. -/
structure WorkerPool (ω κ : Type) where
  scheduler : EventScheduler κ
  configuration : CapacityConfiguration
  workers : List (PaymentWorker ω)
  waiting : List (QueuedPayment ω)
  completed : List (QueuedPayment ω)
  events : List CapacityEvent
  arrivalOrder : Nat
  maximumDepth : Nat
  depthArea : Int
  depthLastChanged : Int
  firstArrival : Option Int
  deriving DecidableEq

namespace WorkerPool

variable {ω κ σ : Type}

def new (scheduler : EventScheduler κ) (configuration : CapacityConfiguration) :
    WorkerPool ω κ where
  scheduler := scheduler
  configuration := configuration
  workers := (List.range configuration.workerCount).map fun number =>
    { workerId := s!"worker-{number + 1}" }
  waiting := []
  completed := []
  events := []
  arrivalOrder := 0
  maximumDepth := 0
  depthArea := 0
  depthLastChanged := scheduler.clock.time
  firstArrival := none

def schedulerOf : Component (WorkerPool ω κ) (EventScheduler κ) where
  get self := self.scheduler
  set scheduler self := { self with scheduler }
  get_set _ _ := rfl
  set_get _ := rfl
  set_set _ _ _ := rfl

/-- The name of the worker in a place. -/
def workerId (self : WorkerPool ω κ) (number : Nat) : Option String :=
  (self.workers[number]?).map (·.workerId)

/-- The payment the worker in a place is busy with. -/
def currentPayment (self : WorkerPool ω κ) (number : Nat) : Option (QueuedPayment ω) :=
  (self.workers[number]?).bind (·.currentPayment)

def isBusy (self : WorkerPool ω κ) (number : Nat) : Bool :=
  (self.currentPayment number).isSome

/-- `_record_depth_until_now`. -/
def recordDepthUntilNow : Action (WorkerPool ω κ) Unit :=
  modify fun self =>
    { self with
      depthArea := self.depthArea +
        self.waiting.length * (self.scheduler.clock.time - self.depthLastChanged)
      depthLastChanged := self.scheduler.clock.time }

/-- Append to the event log, with the depth the queue has now. -/
def log (action : CapacityAction) (paymentId : String) (workerId : Option String) :
    Action (WorkerPool ω κ) Unit :=
  modify fun self =>
    { self with
      events := self.events ++
        [⟨self.scheduler.clock.time, action, paymentId, workerId, self.waiting.length⟩] }

section Dispatch

variable (finish : Nat → κ)

/-- Give the first waiting payment to the worker in a place. -/
def assign (number : Nat) (item : QueuedPayment ω) (waiting : List (QueuedPayment ω)) :
    Action (WorkerPool ω κ) Unit := do
  recordDepthUntilNow
  modify fun self =>
    { self with
      waiting
      workers := self.workers.modify number fun worker =>
        { worker with
          currentPayment :=
            some { item with processingStartedAt := some self.scheduler.clock.time } } }
  let self ← get
  log .assigned item.paymentId (self.workerId number)
  schedulerOf.zoom
    (EventScheduler.scheduleAfter self.configuration.processingTime (finish number))

/-- The loop of `_dispatch`, over the workers that are left. It ends as soon
    as nothing waits. -/
def dispatchOver : List Nat → Action (WorkerPool ω κ) Unit
  | [] => return
  | number :: numbers => do
      let self ← get
      match self.waiting with
      | [] => return
      | item :: waiting =>
          if self.isBusy number then
            dispatchOver numbers
          else
            assign finish number item waiting
            dispatchOver numbers

/-- `_dispatch`. -/
def dispatch : Action (WorkerPool ω κ) Unit := do
  let self ← get
  dispatchOver finish (List.range self.workers.length)

/-- Add already accepted work and immediately dispatch when possible. -/
def enqueue (paymentId : String) (paymentType : PaymentType) (work : ω) :
    Action (WorkerPool ω κ) (QueuedPayment ω) := do
  if isBlank paymentId then
    throw (valueError "payment identifier cannot be blank")
  let self ← get
  let now := self.scheduler.clock.time
  modify fun self => { self with firstArrival := some (self.firstArrival.getD now) }
  recordDepthUntilNow
  let item : QueuedPayment ω :=
    { paymentId, paymentType, queuedAt := now, queuePosition := self.waiting.length + 1
      arrivalOrder := self.arrivalOrder, work }
  modify fun self =>
    { self with
      arrivalOrder := self.arrivalOrder + 1
      waiting := self.waiting ++ [item]
      maximumDepth := max self.maximumDepth (self.waiting.length + 1) }
  log .arrived paymentId none
  dispatch finish
  return item

/-- What `_complete` does once the work is done: the worker is free again. -/
def finished (number : Nat) (item : QueuedPayment ω) : Action (WorkerPool ω κ) Unit := do
  modify fun self =>
    { self with
      completed := self.completed ++
        [{ item with completedAt := some self.scheduler.clock.time }]
      workers := self.workers.modify number fun worker =>
        { worker with
          currentPayment := none
          paymentsCompleted := worker.paymentsCompleted + 1
          totalBusyTime := worker.totalBusyTime + self.configuration.processingTime } }
  let self ← get
  log .completed item.paymentId (self.workerId number)
  dispatch finish

variable (pool : Component σ (WorkerPool ω κ)) (perform : ω → Action σ Unit)

/-- `_complete`, for the worker in a place. -/
def complete (number : Nat) : Action σ Unit := do
  let self := pool.get (← get)
  match self.currentPayment number with
  | none => throw ⟨.runtimeError, "idle worker cannot complete a payment"⟩
  | some item =>
      perform item.work
      pool.zoom (finished finish number item)

end Dispatch

/-- `max(values, default=0)`. -/
def largest (values : List Int) : Int :=
  values.max?.getD 0

def metrics (self : WorkerPool ω κ) : ThroughputMetrics :=
  let finish := largest (self.completed.map fun item => item.completedAt.getD 0)
  let start := self.firstArrival.getD 0
  let elapsed := finish - start
  let waits := self.completed.map fun item => item.waitDuration.getD 0
  let count := self.completed.length
  { totalCompletionTime := elapsed
    averageWait := if count ≠ 0 then waits.sum.fdiv count else 0
    maximumWait := largest waits
    averageQueueDepthHundredths := if elapsed ≠ 0 then (self.depthArea * 100).fdiv elapsed else 0
    maximumQueueDepth := self.maximumDepth
    paymentsProcessed := count
    throughputHundredths := if elapsed ≠ 0 then (count * 100 : Int).fdiv elapsed else 0 }

def workerStatistics (self : WorkerPool ω κ) : List WorkerStatistics :=
  let elapsed := self.metrics.totalCompletionTime
  self.workers.map fun worker =>
    { workerId := worker.workerId
      paymentsCompleted := worker.paymentsCompleted
      totalBusyTime := worker.totalBusyTime
      utilizationPercentage :=
        if elapsed ≠ 0 then (worker.totalBusyTime * 100).fdiv elapsed else 0 }

end WorkerPool

/-- The closures the scheduler of a pool runs: arrivals, the completion of the
    payment in a place, and whatever else the work of payments schedules. -/
inductive PoolCallback (ω ξ : Type)
  | enqueue (paymentId : String) (paymentType : PaymentType) (work : ω)
  | complete (number : Nat)
  | other (callback : ξ)
  deriving DecidableEq, Repr

namespace PoolCallback

variable {ω ξ σ : Type} (pool : Component σ (WorkerPool ω (PoolCallback ω ξ)))
  (perform : ω → Action σ Unit) (other : ξ → Action σ Unit)

def call : PoolCallback ω ξ → Action σ Unit
  | .enqueue paymentId paymentType work => do
      let _ ← pool.zoom (WorkerPool.enqueue .complete paymentId paymentType work)
  | .complete number => WorkerPool.complete .complete pool perform number
  | .other callback => other callback

end PoolCallback

end BankSim
