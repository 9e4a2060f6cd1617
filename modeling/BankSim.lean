import BankSim.Library.Exec
import BankSim.Library.Run
import BankSim.Library.Guarded
import BankSim.Core.Basic
import BankSim.Core.Ledger
import BankSim.Theory.Ledger
import BankSim.Core.Operations
import BankSim.Library.Sums
import BankSim.Theory.Operations
import BankSim.Theory.Conservation
import BankSim.Core.Scheduler
import BankSim.Library.Dict
import BankSim.Core.Ach
import BankSim.Core.AchReturns
import BankSim.Theory.Ach
import BankSim.Theory.AchFunds
import BankSim.Theory.AchCompletion
import BankSim.Theory.AchEffects
import BankSim.Core.Settlement
import BankSim.Library.Keyed
import BankSim.Theory.Settlement
import BankSim.Theory.AchSettlement
import BankSim.Core.Ordering
import BankSim.Theory.OrderingModel
import BankSim.Theory.OrderingAtomicity
import BankSim.Theory.Delivery
import BankSim.Theory.OrderingDelivery
import BankSim.Library.Timeline
import BankSim.Theory.SchedulerLaw
import BankSim.Theory.Agenda
import BankSim.Theory.AchBatch
import BankSim.Library.Servers
import BankSim.Core.PaymentQueues
import BankSim.Core.WorkerCapacity
import BankSim.Theory.Dispatch
import BankSim.Theory.WorkerCapacity
import BankSim.Theory.PoolRecurrence
import BankSim.Theory.PaymentQueues
import BankSim.Theory.CapacityResults
import BankSim.Core.Idempotency
import BankSim.Theory.Idempotency
import BankSim.Theory.IdempotencyOrder
import BankSim.Theory.OrderingLog
import BankSim.Theory.AchHolds
import BankSim.Theory.QueueLaw
import BankSim.Theory.PoolLaw
import BankSim.Core.DeadLetters
import BankSim.Theory.Attempts
import BankSim.Theory.Retries
import BankSim.Theory.Engines
import BankSim.Theory.DeadLetters
import BankSim.Theory.DeadLetterOutcomes
import BankSim.Theory.DeadLetterFinality
import BankSim.Library.Alike
import BankSim.Theory.LockStep
import BankSim.Theory.Agreement
import BankSim.Theory.RetryAgreement
import BankSim.Theory.Expectations
import BankSim.Theory.Reconciliation
import BankSim.Theory.Lanes
import BankSim.Theory.OrderingLanes
import BankSim.Theory.OrderingIdentifiers
import BankSim.Theory.OrderingConvergence
import BankSim.Theory.OrderingIndependence
import BankSim.Theory.AchBalances
import BankSim.Theory.Refusals
import BankSim.Theory.EntryIds
import BankSim.Theory.PostingTimes
import BankSim.Core.Duplicates
import BankSim.Theory.Duplicates
import BankSim.Core.MoneyText
import BankSim.Theory.MoneyText
import BankSim.Theory.AchPending
import BankSim.Theory.PoolKeeps
import BankSim.Theory.PoolMetrics
import BankSim.Theory.PoolUtilization
import BankSim.Theory.PoolSanity
import BankSim.Theory.QueueKeeps
import BankSim.Theory.QueueWaits
import BankSim.Theory.QueueCapacity
import BankSim.Core.Onboarding
import BankSim.Library.Journal
import BankSim.Theory.ApplicationWorkflow
import BankSim.Theory.Onboarding
import BankSim.Theory.Services
import BankSim.Core.Laboratory
import BankSim.Theory.Debits
import BankSim.Theory.Laboratory
import BankSim.Theory.Workflows
import BankSim.Theory.AchDrains
import BankSim.Theory.AchReconciliation
import BankSim.Theory.BatchOutcomes
import BankSim.Theory.Books
import BankSim.Core.LedgerText
import BankSim.Library.Columns
import BankSim.Theory.LedgerText
import BankSim.Theory.Replicas
import BankSim.Theory.Sharing
import BankSim.Theory.SharedAch
import BankSim.Theory.Dispatchers
import BankSim.Library.Desk
import BankSim.Theory.QueueLog
import BankSim.Theory.PoolLog
