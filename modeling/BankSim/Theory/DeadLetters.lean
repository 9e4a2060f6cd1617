import BankSim.Core.DeadLetters
import BankSim.Theory.Engines

/-!
# Isolated Payments

The dead-letter processor is lawful. A payment with a permanent reason takes one
attempt and is never completed, whatever its script says.

Which payments are isolated is not known from how many attempts are left, since
the dead-letter queue takes an identifier only once. `Moves` keeps the places of
those that were, with the times, in the order of the entries. A payment that has
failed without being isolated has left its identifier in the queue before.

## Main definitions

* `DeadLetterRow`: A submission, and what becomes of it.
* `DeadLetterProcessor.Books`: The payments, at any moment.
* `DeadLetterProcessor.Moves`: The isolated ones, and their entries.
* `DeadLetterProcessor.Law`: What holds of a dead-letter processor at any moment.

## Theorems

* `DeadLetterProcessor.submitRow_run`, `DeadLetterProcessor.tryAttempt_run`,
  `DeadLetterProcessor.succeed_run`, `DeadLetterProcessor.retry_run`: What the
  methods do.
* `DeadLetterProcessor.isolate_known`, `DeadLetterProcessor.isolate_new`: The two
  ways of an isolation.
* `DeadLetterProcessor.lawful`: The dead-letter processor is lawful.
-/

namespace BankSim

open Exec PaymentQueue Places

/-! ### Submissions -/

/-- A submission to the dead-letter processor. -/
structure DeadLetterRow (ω : Type) where
  paymentId : String
  requestId : String
  work : ω
  failures : List String := []
  permanentReason : Option DeadLetterReason := none
  originalState : WorkflowState := .validated
  diagnostic : Option String := none
  deriving DecidableEq, Repr

namespace DeadLetterRow

variable {ω : Type} (limit : Nat) (row : DeadLetterRow ω)

/-- The submission passes the checks of `submit`. -/
def accepted : Bool :=
  !(isBlank row.paymentId || isBlank row.requestId) && !row.failures.any isBlank

/-- How many attempts the payment takes. A permanent reason takes one. -/
def total : Nat :=
  if row.permanentReason.isSome then 1 else min row.failures.length limit + 1

/-- There is no permanent reason, and the script runs out before the retries do. -/
def recovers : Bool :=
  row.permanentReason.isNone && decide (row.failures.length ≤ limit)

def reason : DeadLetterReason :=
  row.permanentReason.getD .retryLimitExceeded

/-- A permanent reason is explained by the diagnostic message, and the retry limit
    by the message of the attempt that exceeds it. -/
def message : String :=
  match row.permanentReason with
  | some reason => DeadLetterProcessor.diagnosticOr row.diagnostic reason
  | none => row.failures[limit]?.getD ""

/-- The entry of the payment, should it be isolated at a time. -/
def entryAt (time : Int) : DeadLetterEntry where
  paymentId := row.paymentId
  requestId := row.requestId
  reason := row.reason
  retryCount := row.total limit - 1
  isolatedAt := time
  originalState := row.originalState
  diagnosticMessage := row.message limit

/-- The payment when so many attempts are left. While the work is being done
    the last attempt is made, but the payment is not completed. -/
def after (left : Nat) (busy isolated : Bool) : DeadLetterPayment where
  paymentId := row.paymentId
  requestId := row.requestId
  originalState := row.originalState
  attempts := row.total limit - left
  retryCount := min (row.total limit - left) (row.total limit - 1)
  completed := row.recovers limit && decide (left = 0) && !busy
  isolated := isolated

/-- The closure of its attempts. -/
def closureAt (place : Nat) : DeadLetterWork ω :=
  ⟨place, row.work, row.failures, row.permanentReason, row.diagnostic⟩

theorem total_pos : 0 < row.total limit := by
  unfold total
  split
  · exact Nat.one_pos
  · exact Nat.succ_pos _

theorem visible (h : row.accepted = true) : isBlank row.paymentId = false := by
  unfold accepted at h
  rw [Bool.and_eq_true, Bool.not_eq_true', Bool.or_eq_false_iff] at h
  exact h.1.1

variable {limit row}

/-- An attempt that is not the last has a message, and there is a retry for it. -/
theorem of_more {left : Nat} (hmore : 1 < left) (hle : left ≤ row.total limit) :
    row.permanentReason = none ∧ row.total limit - left < limit ∧
      ∃ message, row.failures[row.total limit - left]? = some message := by
  unfold total at hle ⊢
  cases hreason : row.permanentReason with
  | some reason =>
      rw [hreason, Option.isSome_some, if_pos rfl] at hle
      omega
  | none =>
      rw [hreason, Option.isSome_none, if_neg Bool.false_ne_true] at hle
      rw [Option.isSome_none, if_neg Bool.false_ne_true]
      exact ⟨rfl, by omega, _, List.getElem?_eq_getElem (by omega)⟩

/-- A payment that does not recover has a permanent reason, or a message for one
    attempt more than there are retries. -/
theorem of_fails (h : row.recovers limit = false) :
    (∃ reason, row.permanentReason = some reason ∧ row.total limit = 1) ∨
      (row.permanentReason = none ∧ row.total limit = limit + 1 ∧
        ∃ message, row.failures[limit]? = some message) := by
  unfold recovers at h
  unfold total
  cases hreason : row.permanentReason with
  | some reason => exact Or.inl ⟨reason, rfl, rfl⟩
  | none =>
      rw [hreason, Option.isNone_none, Bool.true_and, decide_eq_false_iff_not, not_le] at h
      rw [Option.isSome_none, if_neg Bool.false_ne_true]
      exact Or.inr ⟨rfl, by omega, _, List.getElem?_eq_getElem h⟩

theorem of_recovers (h : row.recovers limit = true) :
    row.permanentReason = none ∧ row.failures.length ≤ limit ∧
      row.total limit = row.failures.length + 1 := by
  unfold recovers at h
  unfold total
  cases hreason : row.permanentReason with
  | some reason =>
      rw [hreason] at h
      cases h
  | none =>
      rw [hreason, Option.isNone_none, Bool.true_and, decide_eq_true_eq] at h
      rw [Option.isSome_none, if_neg Bool.false_ne_true]
      exact ⟨rfl, h, by omega⟩

end DeadLetterRow

/-! ### What the methods do -/

namespace DeadLetterQueue

/-- The queue that was given an entry. -/
def isolated (self : DeadLetterQueue) (entry : DeadLetterEntry) : DeadLetterQueue :=
  after (isolate entry) self

variable {self : DeadLetterQueue} {entry : DeadLetterEntry}

theorem isolate_known (h : entry.paymentId ∈ self.paymentIds) :
    (isolate entry).run self = .ok false self := by
  unfold isolate
  rw [run_bind_get, dif_pos h]
  rfl

theorem isolate_new (h : entry.paymentId ∉ self.paymentIds) :
    (isolate entry).run self = .ok true (self.isolated entry) ∧
      (self.isolated entry).entries = self.entries ++ [entry] := by
  have hrun : ∃ later : DeadLetterQueue, (isolate entry).run self = .ok true later ∧
      later.entries = self.entries ++ [entry] := by
    unfold isolate
    rw [run_bind_get, dif_neg h]
    exact ⟨_, rfl, rfl⟩
  rcases hrun with ⟨later, hrun, hentries⟩
  unfold isolated
  rw [after_of_ok hrun]
  exact ⟨hrun, hentries⟩

end DeadLetterQueue

namespace DeadLetterProcessor

variable {ω ξ σ : Type}

instance : Attempting (DeadLetterWork ω) (DeadLetterWork ω) where
  place work := work.payment
  closure work := work

def submitRow (row : DeadLetterRow ω) : Action (DeadLetterProcessor ω ξ) Unit := do
  let _ ← submit row.paymentId row.requestId row.work row.failures row.permanentReason
    row.originalState row.diagnostic

theorem new_ok {queue : AttemptQueue (DeadLetterWork ω) (DeadLetterWork ω) ξ}
    {deadLetters : DeadLetterQueue} {maximumRetries retryDelay : Int}
    {engine : DeadLetterProcessor ω ξ}
    (h : new queue deadLetters maximumRetries retryDelay = .ok engine) :
    ∃ limit hdelay, engine = ⟨queue, deadLetters, limit, retryDelay, [], [], 0, hdelay⟩ ∧
      (limit : Int) = maximumRetries := by
  unfold new at h
  by_cases hlimit : maximumRetries < 0
  · rw [if_pos hlimit] at h
    cases h
  · rw [if_neg hlimit] at h
    by_cases hdelay : retryDelay ≤ 0
    · rw [dif_pos hdelay] at h
      cases h
    · rw [dif_neg hdelay] at h
      cases h
      exact ⟨_, _, rfl, Int.toNat_of_nonneg (not_lt.mp hlimit)⟩

theorem payment_eq {self : DeadLetterProcessor ω ξ} {i : Nat} {payment : DeadLetterPayment}
    (h : self.payments[i]? = some payment) : self.payment i = .ok payment := by
  unfold DeadLetterProcessor.payment
  rw [h]

/-- The engine with an attempt put into its queue. -/
def enqueued (self : DeadLetterProcessor ω ξ) (paymentId : String) (closure : DeadLetterWork ω) :
    DeadLetterProcessor ω ξ :=
  { self with queue := (self.queue.arrived paymentId .achTransfer closure).awoken .tick }

theorem enqueued_pendingTimers (self : DeadLetterProcessor ω ξ) (paymentId : String)
    (closure : DeadLetterWork ω) :
    (self.enqueued paymentId closure).queue.pendingTimers = self.queue.pendingTimers :=
  pendingTimers_arrived self.queue paymentId .achTransfer closure

theorem enqueueAttempt_run {self : DeadLetterProcessor ω ξ} {closure : DeadLetterWork ω}
    {payment : DeadLetterPayment} (h : self.payments[closure.payment]? = some payment)
    (hopen : (payment.isolated || payment.completed) = false)
    (hid : isBlank payment.paymentId = false) :
    (enqueueAttempt closure).run self = .ok () (self.enqueued payment.paymentId closure) := by
  have hrun := enqueue_of_nonblank QueueCallback.tick hid .achTransfer closure self.queue
  unfold enqueueAttempt
  rw [run_bind_get, run_bind_lift_ok (payment_eq h), if_neg (by simp [hopen])]
  exact run_bind_of_ok (Component.zoom_run_ok (p := queueOf) hrun)

/-- The engine with one more payment. -/
def admitted (self : DeadLetterProcessor ω ξ) (row : DeadLetterRow ω) :
    DeadLetterProcessor ω ξ :=
  enqueued
    { self with
      payments := self.payments ++
        [{ paymentId := row.paymentId
           requestId := row.requestId
           originalState := row.originalState }] }
    row.paymentId (row.closureAt self.payments.length)

theorem submitRow_run (row : DeadLetterRow ω) (self : DeadLetterProcessor ω ξ) :
    (row.accepted = true ∧ (submitRow row).run self = .ok () (self.admitted row)) ∨
      (row.accepted = false ∧ ∃ e, (submitRow row).run self = .error e self) := by
  unfold submitRow submit DeadLetterRow.accepted
  by_cases hids : (isBlank row.paymentId || isBlank row.requestId) = true
  · refine Or.inr ⟨by rw [hids]; rfl,
      valueError "payment and request identifiers cannot be blank", ?_⟩
    rw [if_pos hids]
    rfl
  · by_cases hscript : row.failures.any isBlank = true
    · refine Or.inr ⟨by rw [hscript]; simp,
        valueError "transient failure messages cannot be blank", ?_⟩
      rw [if_neg hids, if_pos hscript]
      rfl
    · refine Or.inl ⟨by simp [hids, hscript], ?_⟩
      rw [if_neg hids, if_neg hscript]
      have hid : isBlank row.paymentId = false := by
        rw [Bool.not_eq_true, Bool.or_eq_false_iff] at hids
        exact hids.1
      -- The new payment is there for the closure to be found.
      have hrun := @enqueueAttempt_run ω ξ
        { self with
          payments := self.payments ++
            [{ paymentId := row.paymentId
               requestId := row.requestId
               originalState := row.originalState }] }
        (row.closureAt self.payments.length)
        { paymentId := row.paymentId
          requestId := row.requestId
          originalState := row.originalState }
        (by simp [DeadLetterRow.closureAt]) rfl hid
      refine run_bind_of_ok (a := self.payments.length) ?_
      exact run_bind_of_ok hrun

/-- The engine after an attempt has begun. -/
def begun (self : DeadLetterProcessor ω ξ) (i : Nat) : DeadLetterProcessor ω ξ :=
  { self with
    payments := self.payments.modify i fun payment =>
      { payment with attempts := payment.attempts + 1 } }

theorem begun_payment {self : DeadLetterProcessor ω ξ} {i : Nat} {payment : DeadLetterPayment}
    (h : self.payments[i]? = some payment) :
    (self.begun i).payments[i]? = some { payment with attempts := payment.attempts + 1 } := by
  unfold begun
  simp [h]

/-- The engine after an attempt failed that is to be repeated. -/
def retrying (self : DeadLetterProcessor ω ξ) (closure : DeadLetterWork ω)
    (payment : DeadLetterPayment) : DeadLetterProcessor ω ξ :=
  { self with
    payments := self.payments.modify closure.payment fun payment =>
      { payment with retryCount := payment.retryCount + 1 }
    results := self.results ++ [⟨self.now, payment.paymentId, .retryScheduled, payment.attempts⟩]
    pendingRetries := self.pendingRetries + 1
    queue := { self.queue with
      scheduler := self.queue.scheduler.scheduled (self.now + self.retryDelay)
        (.other (.retry closure)) } }

/-- The entry that is made for a payment. -/
def entryOf (self : DeadLetterProcessor ω ξ) (payment : DeadLetterPayment)
    (reason : DeadLetterReason) (diagnostic : String) : DeadLetterEntry where
  paymentId := payment.paymentId
  requestId := payment.requestId
  reason := reason
  retryCount := payment.retryCount
  isolatedAt := self.now
  originalState := payment.originalState
  diagnosticMessage := diagnostic

/-- The engine after the entry of a payment was taken. -/
def isolating (self : DeadLetterProcessor ω ξ) (i : Nat) (payment : DeadLetterPayment)
    (entry : DeadLetterEntry) : DeadLetterProcessor ω ξ :=
  { self with
    deadLetters := self.deadLetters.isolated entry
    payments := self.payments.modify i fun payment => { payment with isolated := true }
    results := self.results ++ [⟨self.now, payment.paymentId, .movedToDlq, payment.attempts⟩] }

/-- The engine after a payment was completed. -/
def completing (self : DeadLetterProcessor ω ξ) (i : Nat) (payment : DeadLetterPayment) :
    DeadLetterProcessor ω ξ :=
  { self with
    payments := self.payments.modify i fun payment => { payment with completed := true }
    results := self.results ++ [⟨self.now, payment.paymentId, .succeeded, payment.attempts⟩] }

/-- If there is an entry under the identifier already, nothing happens at all. -/
theorem isolate_known {self : DeadLetterProcessor ω ξ} {i : Nat} {payment : DeadLetterPayment}
    (h : self.payments[i]? = some payment) (reason : DeadLetterReason) (diagnostic : String)
    (hknown : payment.paymentId ∈ self.deadLetters.paymentIds) :
    (isolate i reason diagnostic).run self = .ok () self := by
  have hrun := @DeadLetterQueue.isolate_known self.deadLetters
    (self.entryOf payment reason diagnostic) hknown
  unfold isolate
  rw [run_bind_get, run_bind_lift_ok (payment_eq h)]
  exact run_bind_of_ok (Component.zoom_run_ok (p := deadLettersOf) hrun)

/-- Otherwise the entry is taken. -/
theorem isolate_new {self : DeadLetterProcessor ω ξ} {i : Nat} {payment : DeadLetterPayment}
    (h : self.payments[i]? = some payment) (reason : DeadLetterReason) (diagnostic : String)
    (hnew : payment.paymentId ∉ self.deadLetters.paymentIds) :
    (isolate i reason diagnostic).run self
      = .ok () (self.isolating i payment (self.entryOf payment reason diagnostic)) := by
  have hrun := (@DeadLetterQueue.isolate_new self.deadLetters
    (self.entryOf payment reason diagnostic) hnew).1
  unfold isolate
  rw [run_bind_get, run_bind_lift_ok (payment_eq h)]
  exact run_bind_of_ok (Component.zoom_run_ok (p := deadLettersOf) hrun)

/-- A failure while there are retries left. -/
theorem fail_again (self : DeadLetterProcessor ω ξ) (closure : DeadLetterWork ω)
    (payment : DeadLetterPayment) (message : String)
    (hmore : payment.retryCount < self.maximumRetries) :
    (fail closure payment message).run self = .ok () (self.retrying closure payment) := by
  have hdelay := self.retryDelay_pos
  unfold fail modifyPayment record
  rw [run_bind_get, if_neg (not_le.mpr hmore), run_bind_modify, run_bind_modify, run_bind_modify]
  exact Component.zoom_run_ok (p := queueOf) (Component.zoom_run_ok (p := schedulerOf)
    (EventScheduler.scheduleAfter_of_nonneg _ hdelay.le))

/-- A failure when there are none. -/
theorem fail_last (self : DeadLetterProcessor ω ξ) (closure : DeadLetterWork ω)
    (payment : DeadLetterPayment) (message : String)
    (hlast : self.maximumRetries ≤ payment.retryCount) :
    (fail closure payment message).run self
      = (isolate closure.payment .retryLimitExceeded message).run self := by
  unfold fail
  rw [run_bind_get, if_pos hlast]

/-- An attempt at a payment that is not done with, from when it has begun. -/
theorem tryAttempt_run {self : DeadLetterProcessor ω ξ} {closure : DeadLetterWork ω}
    {payment : DeadLetterPayment} (h : self.payments[closure.payment]? = some payment)
    (hopen : (payment.isolated || payment.completed) = false) :
    (tryAttempt closure).run self = (do
      match closure.permanentReason with
      | some reason =>
          isolate closure.payment reason (diagnosticOr closure.diagnostic reason)
          return false
      | none =>
          match closure.failures[payment.attempts]? with
          | some message =>
              fail closure { payment with attempts := payment.attempts + 1 } message
              return false
          | none => return true : Action (DeadLetterProcessor ω ξ) Bool).run
        (self.begun closure.payment) := by
  unfold tryAttempt modifyPayment
  rw [run_bind_get, run_bind_lift_ok (payment_eq h), if_neg (by simp [hopen]),
    run_bind_modify, run_bind_get]
  exact run_bind_lift_ok (payment_eq (begun_payment h))

theorem succeed_run {self : DeadLetterProcessor ω ξ} {closure : DeadLetterWork ω}
    {payment : DeadLetterPayment} (h : self.payments[closure.payment]? = some payment) :
    (succeed closure).run self = .ok () (self.completing closure.payment payment) := by
  unfold succeed modifyPayment record
  rw [run_bind_modify, run_bind_get]
  have hfound : ({ self with
      payments := self.payments.modify closure.payment fun payment =>
        { payment with completed := true } } : DeadLetterProcessor ω ξ).payment closure.payment
      = .ok { payment with completed := true } :=
    payment_eq (by simp [h])
  exact (run_bind_lift_ok hfound).trans rfl

theorem retry_run {self : DeadLetterProcessor ω ξ} {closure : DeadLetterWork ω}
    {payment : DeadLetterPayment} (h : self.payments[closure.payment]? = some payment)
    (hopen : (payment.isolated || payment.completed) = false)
    (hid : isBlank payment.paymentId = false) :
    (retry closure).run self = .ok () (enqueued
      { self with pendingRetries := self.pendingRetries - 1 } payment.paymentId closure) := by
  unfold retry
  rw [run_bind_modify]
  exact enqueueAttempt_run h hopen hid

/-! ### The books -/

/-- A dead-letter processor under observation. -/
abbrev Observed (ω ξ : Type) :=
  Watched (DeadLetterProcessor ω ξ) (DeadLetterRow ω) ω

/-- The closure belongs to a submission. -/
def Fits (submitted : List (DeadLetterRow ω)) (closure : DeadLetterWork ω) : Prop :=
  ∃ row, submitted[closure.payment]? = some row ∧ closure = row.closureAt closure.payment

/-- The payments are the submissions with so many attempts left, those in some
    places being isolated, and the works that were called are those of the
    payments that recovered, once each. -/
structure Books (limit : Nat) (delay : Int) (busy : Option Nat) (left : Nat → Nat)
    (places : List Nat) (watched : Observed ω ξ) : Prop where
  limit_eq : watched.engine.maximumRetries = limit
  delay_eq : watched.engine.retryDelay = delay
  payments : ∀ i, watched.engine.payments[i]?
    = watched.submitted[i]?.map fun row : DeadLetterRow ω =>
        row.after limit (left i) (busy = some i) (i ∈ places)
  le_total : ∀ i row, watched.submitted[i]? = some row → left i ≤ row.total limit
  accepted : ∀ row ∈ watched.submitted, row.accepted = true
  finished : ∀ i, busy = some i → left i = 0 ∧
    ∃ row, watched.submitted[i]? = some row ∧ row.recovers limit = true
  paid : Paid (·.work) (·.recovers limit) left watched.submitted watched.invoked

/-- The entries that were made for the payments in some places, in order, at some
    times. -/
def entriesFor (limit : Nat) (submitted : List (DeadLetterRow ω)) (moves : List (Nat × Int)) :
    List DeadLetterEntry :=
  moves.filterMap fun move => submitted[move.1]?.map (·.entryAt limit move.2)

/-- The entries of the dead-letter queue: those it had from the beginning, and one
    for each payment that was isolated. Only payments that fail for good are
    isolated, and when one has failed there is an entry under its identifier. -/
structure Moves (limit : Nat) (initial : List DeadLetterEntry) (left : Nat → Nat)
    (moves : List (Nat × Int)) (watched : Observed ω ξ) : Prop where
  entries : watched.engine.deadLetters.entries
    = initial ++ entriesFor limit watched.submitted moves
  failed : ∀ i ∈ moves.map Prod.fst, left i = 0 ∧
    ∃ row, watched.submitted[i]? = some row ∧ row.recovers limit = false
  nodup : (moves.map Prod.fst).Nodup
  times : (moves.map Prod.snd).Pairwise (· ≤ ·)
  past : ∀ time ∈ moves.map Prod.snd, time ≤ watched.engine.now
  known : ∀ i row, watched.submitted[i]? = some row → left i = 0 → row.recovers limit = false →
    row.paymentId ∈ watched.engine.deadLetters.paymentIds

/-- What holds of a dead-letter processor at any moment. -/
def Law (limit : Nat) (delay : Int) (initial : List DeadLetterEntry) (hand : Hand)
    (left : Nat → Nat) (watched : Observed ω ξ) : Prop :=
  ∃ moves, Books limit delay hand.busy left (moves.map Prod.fst) watched ∧
    Moves limit initial left moves watched ∧
    Tokens (Fits watched.submitted) hand.held left watched.submitted.length
      watched.engine.queue ∧
    watched.engine.pendingRetries = watched.engine.queue.pendingTimers

section Law

variable {limit : Nat} {delay : Int} {initial : List DeadLetterEntry} {hand hand' : Hand}
  {left : Nat → Nat} {places : List Nat} {moves : List (Nat × Int)} {watched : Observed ω ξ}
  {i : Nat} {row : DeadLetterRow ω}

theorem Books.length {busy : Option Nat} (h : Books limit delay busy left places watched) :
    watched.engine.payments.length = watched.submitted.length := by
  have hnone : ∀ i, watched.engine.payments.length ≤ i ↔ watched.submitted.length ≤ i := by
    intro i
    rw [← List.getElem?_eq_none_iff, h.payments, Option.map_eq_none_iff,
      List.getElem?_eq_none_iff]
  exact le_antisymm ((hnone _).mpr (le_refl _)) ((hnone _).mp (le_refl _))

theorem Books.payment {busy : Option Nat} (h : Books limit delay busy left places watched)
    (hrow : watched.submitted[i]? = some row) :
    watched.engine.payments[i]?
      = some (row.after limit (left i) (busy = some i) (i ∈ places)) := by
  rw [h.payments, hrow]
  rfl

/-- A payment with attempts left is neither isolated nor completed. -/
theorem Books.opened (h : Books limit delay none left (moves.map Prod.fst) watched)
    (hmoves : Moves limit initial left moves watched) (hrow : watched.submitted[i]? = some row)
    (hpos : 0 < left i) :
    watched.engine.payments[i]? = some (row.after limit (left i) false false) ∧
      ((row.after limit (left i) false false).isolated ||
        (row.after limit (left i) false false).completed) = false := by
  have hplace : i ∉ moves.map Prod.fst := by
    intro hmem
    have := (hmoves.failed i hmem).1
    omega
  have hpayment := h.payment hrow
  rw [decide_eq_false hplace] at hpayment
  refine ⟨hpayment, ?_⟩
  unfold DeadLetterRow.after
  rw [decide_eq_false (by omega), Bool.and_false]
  rfl

/-- The queue changes, and what was in hand may be put down or picked up. -/
theorem Law.requeue (h : Law limit delay initial hand left watched)
    {engine : DeadLetterProcessor ω ξ} (hbusy : hand'.busy = hand.busy)
    (hlimit : engine.maximumRetries = watched.engine.maximumRetries)
    (hdelay : engine.retryDelay = watched.engine.retryDelay)
    (hpayments : engine.payments = watched.engine.payments)
    (hletters : engine.deadLetters = watched.engine.deadLetters)
    (htokens : Tokens (Fits watched.submitted) hand'.held left watched.submitted.length
      engine.queue)
    (hpending : engine.pendingRetries = engine.queue.pendingTimers)
    (hclock : watched.engine.now ≤ engine.now) :
    Law limit delay initial hand' left { watched with engine } := by
  rcases h with ⟨moves, hbooks, hmoves, -, -⟩
  refine ⟨moves, ⟨hlimit.trans hbooks.limit_eq, hdelay.trans hbooks.delay_eq, fun j => ?_,
    hbooks.le_total, hbooks.accepted, ?_, hbooks.paid⟩, ⟨?_, hmoves.failed, hmoves.nodup,
    hmoves.times, fun time hmem => (hmoves.past time hmem).trans hclock,
    fun j row hrow hdone hfails => ?_⟩, htokens, hpending⟩
  · rw [hbusy, hpayments]
    exact hbooks.payments j
  · rw [hbusy]
    exact hbooks.finished
  · rw [hletters]
    exact hmoves.entries
  · rw [hletters]
    exact hmoves.known j row hrow hdone hfails

/-- A timer leaves the scheduler, and the next attempt is put into the queue. -/
theorem Law.fire (h : Law limit delay initial .free left watched) {event : Event _}
    {rest : List (Event _)} (hqueue : watched.engine.queue.scheduler.queue = event :: rest)
    {closure : DeadLetterWork ω} (htimer : event.callback = .other (.retry closure))
    {clock : VirtualClock} (hdue : watched.engine.queue.scheduler.clock.time ≤ event.time)
    (hclock : clock.time = event.time) (hrow : watched.submitted[closure.payment]? = some row) :
    ∃ engine, (retry closure).run { watched.engine with
          queue := { watched.engine.queue with
            scheduler := watched.engine.queue.scheduler.ready clock rest } } = .ok () engine ∧
      Law limit delay initial .free left { watched with engine } ∧
      engine.queue = (({ watched.engine.queue with
        scheduler := watched.engine.queue.scheduler.ready clock rest } :
          AttemptQueue (DeadLetterWork ω) (DeadLetterWork ω) ξ).arrived row.paymentId .achTransfer
            closure).awoken .tick := by
  rcases id h with ⟨moves, hbooks, hmoves, htokens, hpending⟩
  rcases htokens.fire hqueue htimer clock with ⟨hheld, hfits⟩
  have hpos := hheld.held_pos.1
  have hcount := pendingTimers_popped hqueue clock
  rw [htimer, isTimer, if_pos rfl] at hcount
  have hvisible := row.visible (hbooks.accepted row (List.mem_of_getElem? hrow))
  rcases hbooks.opened hmoves hrow hpos with ⟨hpayment, hopen⟩
  refine ⟨_, retry_run hpayment hopen hvisible, ?_, rfl⟩
  refine h.requeue rfl rfl rfl rfl rfl (hheld.enqueue rfl hfits _ _) ?_ ?_
  · change watched.engine.pendingRetries - 1 = _
    rw [enqueued_pendingTimers, hpending, hcount, Nat.cast_succ]
    exact add_sub_cancel_right _ _
  · unfold now enqueued
    rw [awoken_clock]
    exact hdue.trans hclock.ge

/-- The payments that were isolated have been submitted before. -/
theorem Moves.ne_length (h : Moves limit initial left moves watched)
    (hmem : i ∈ moves.map Prod.fst) : i ≠ watched.submitted.length := by
  rcases (h.failed i hmem).2 with ⟨other, hother, -⟩
  exact ne_length_of_some hother

/-- The entries do not change when there are more submissions. -/
theorem Moves.entriesFor_snoc (h : Moves limit initial left moves watched)
    (row : DeadLetterRow ω) : entriesFor limit (watched.submitted ++ [row]) moves
      = entriesFor limit watched.submitted moves := by
  refine List.filterMap_congr fun move hmem => ?_
  rw [getElem?_snoc, if_neg (h.ne_length (List.mem_map_of_mem hmem))]

/-- A submission is accepted: the new payment has made no attempt. -/
theorem Books.accept {busy : Option Nat} (h : Books limit delay busy left places watched)
    (hplace : watched.submitted.length ∉ places) (haccepted : row.accepted = true) :
    Books limit delay busy (Function.update left watched.submitted.length (row.total limit))
      places { watched with
        engine := watched.engine.admitted row
        submitted := watched.submitted ++ [row] } where
  limit_eq := h.limit_eq
  delay_eq := h.delay_eq
  payments := fun i => by
    change (watched.engine.payments ++ [_])[i]? = (watched.submitted ++ [row])[i]?.map _
    rw [getElem?_snoc, getElem?_snoc, h.length]
    by_cases hi : i = watched.submitted.length
    · subst hi
      have hpos := row.total_pos limit
      rw [if_pos rfl, if_pos rfl, Function.update_self, Option.map_some]
      simp [DeadLetterRow.after, hplace, hpos.ne']
    · rw [if_neg hi, if_neg hi, Function.update_of_ne hi]
      exact h.payments i
  le_total := le_total_accept h.le_total row
  accepted := List.forall_mem_append.mpr ⟨h.accepted, List.forall_mem_singleton.mpr haccepted⟩
  finished := fun i hi => spent_accept (h.finished i hi) row _
  paid := h.paid.accept row (row.total_pos limit)

theorem Moves.accept (h : Moves limit initial left moves watched) (row : DeadLetterRow ω) :
    Moves limit initial (Function.update left watched.submitted.length (row.total limit)) moves
      { watched with
        engine := watched.engine.admitted row
        submitted := watched.submitted ++ [row] } := by
  refine ⟨?_, fun i hmem => spent_accept (h.failed i hmem) row _, h.nodup, h.times,
    fun time hmem => ?_, forall_snoc (fun i other hi hother hdone hfails => ?_) fun hdone => ?_⟩
  · rw [h.entriesFor_snoc]
    exact h.entries
  · unfold now admitted enqueued
    rw [awoken_clock]
    exact h.past time hmem
  · rw [Function.update_of_ne hi] at hdone
    exact h.known i other hother hdone hfails
  · rw [Function.update_self] at hdone
    exact absurd hdone (row.total_pos limit).ne'

/-- A submission is accepted, at the moment or in the middle of a work. -/
theorem Law.accept (h : Law limit delay initial hand left watched) (hheld : hand.held = none)
    (haccepted : row.accepted = true) :
    Law limit delay initial hand (Function.update left watched.submitted.length (row.total limit))
      { watched with
        engine := watched.engine.admitted row
        submitted := watched.submitted ++ [row] } := by
  rcases h with ⟨moves, hbooks, hmoves, htokens, hpending⟩
  have hlength := hbooks.length
  refine ⟨moves, hbooks.accept (fun hmem => hmoves.ne_length hmem rfl) haccepted,
    hmoves.accept row, ?_, hpending.trans (congrArg _ (enqueued_pendingTimers _ _ _).symm)⟩
  rw [hheld] at htokens
  rw [hheld, List.length_append]
  refine (htokens.mono ?_).submit hlength ⟨row, ?_, rfl⟩ (row.total_pos limit) _ _
  · rintro work ⟨other, hother, hwork⟩
    exact ⟨other, getElem?_append_of_some hother _, hwork⟩
  · rw [getElem?_snoc]
    exact if_pos hlength

/-! ### An attempt -/

theorem Books.spend_le {busy : Option Nat} (h : Books limit delay busy left places watched)
    (i j : Nat) (other : DeadLetterRow ω) (hother : watched.submitted[j]? = some other) :
    spend left i j ≤ other.total limit := by
  have hbound := h.le_total j other hother
  by_cases hj : j = i
  · subst hj
    rw [spend_self]
    omega
  · rw [spend_of_ne left hj]
    exact hbound

/-- One payment is changed, the one at hand, into what it should be. -/
theorem Books.modify {busy busy' : Option Nat} (h : Books limit delay busy left places watched)
    (hrow : watched.submitted[i]? = some row) {left' : Nat → Nat} {places' : List Nat}
    {change : DeadLetterPayment → DeadLetterPayment}
    (hchange : change (row.after limit (left i) (busy = some i) (i ∈ places))
      = row.after limit (left' i) (busy' = some i) (i ∈ places'))
    (hothers : ∀ j, j ≠ i → left' j = left j ∧ (busy' = some j ↔ busy = some j) ∧
      (j ∈ places' ↔ j ∈ places)) (j : Nat) :
    (watched.engine.payments.modify i change)[j]? = watched.submitted[j]?.map
      fun row : DeadLetterRow ω => row.after limit (left' j) (busy' = some j) (j ∈ places') := by
  by_cases hj : i = j
  · subst hj
    rw [List.getElem?_modify_eq, h.payment hrow, hrow]
    exact congrArg some hchange
  · rcases hothers j (Ne.symm hj) with ⟨hleft, hbusy, hplaces⟩
    rw [List.getElem?_modify_ne _ _ hj, h.payments j, hleft]
    simp only [hbusy, hplaces]

/-- The moves do not change with an attempt that isolates nothing. -/
theorem Moves.keep (h : Moves limit initial left moves watched) (hpos : 0 < left i)
    {engine : DeadLetterProcessor ω ξ} {invoked : List (ω × Int)}
    (hletters : engine.deadLetters = watched.engine.deadLetters)
    (hclock : watched.engine.now ≤ engine.now)
    (hknown : ∀ row, watched.submitted[i]? = some row → left i = 1 → row.recovers limit = false →
      row.paymentId ∈ watched.engine.deadLetters.paymentIds) :
    Moves limit initial (spend left i) moves { watched with engine, invoked } := by
  refine ⟨by rw [hletters]; exact h.entries, fun j hmem => ?_, h.nodup, h.times,
    fun time hmem => (h.past time hmem).trans hclock, fun j row hrow hdone hfails => ?_⟩
  · rcases h.failed j hmem with ⟨hdone, hrow⟩
    rw [spend_of_ne left (fun heq => by subst heq; omega)]
    exact ⟨hdone, hrow⟩
  · rw [hletters]
    by_cases hj : j = i
    · subst hj
      rw [spend_self] at hdone
      exact hknown row hrow (by omega) hfails
    · rw [spend_of_ne left hj] at hdone
      exact h.known j row hrow hdone hfails

/-- One more entry is made. -/
theorem Moves.move (h : Moves limit initial left moves watched)
    (hrow : watched.submitted[i]? = some row) (hlast : left i = 1)
    (hfails : row.recovers limit = false) {engine : DeadLetterProcessor ω ξ}
    (hentries : engine.deadLetters.entries
      = watched.engine.deadLetters.entries ++ [row.entryAt limit watched.engine.now])
    (hclock : engine.now = watched.engine.now) :
    Moves limit initial (spend left i) (moves ++ [(i, watched.engine.now)])
      { watched with engine } := by
  -- A payment with an attempt left has no entry yet.
  have hplace : i ∉ moves.map Prod.fst := by
    intro hmem
    have := (h.failed i hmem).1
    omega
  have hids : engine.deadLetters.paymentIds
      = watched.engine.deadLetters.paymentIds ++ [row.paymentId] := by
    rw [engine.deadLetters.paymentIds_eq, hentries, List.map_append,
      ← watched.engine.deadLetters.paymentIds_eq]
    rfl
  refine ⟨?_, fun j hmem => ?_, ?_, ?_, fun time hmem => ?_, fun j other hother hdone hother' => ?_⟩
  · have hnew : entriesFor limit watched.submitted [(i, watched.engine.now)]
        = [row.entryAt limit watched.engine.now] := by
      unfold entriesFor
      simp only [List.filterMap_cons, hrow, Option.map_some, List.filterMap_nil]
    rw [hentries, h.entries, List.append_assoc, ← hnew]
    exact congrArg (initial ++ ·) List.filterMap_append.symm
  · rw [List.map_append] at hmem
    rcases List.mem_append.mp hmem with hold | hnew
    · rcases h.failed j hold with ⟨hdone, hother⟩
      rw [spend_of_ne left (by rintro rfl; exact hplace hold)]
      exact ⟨hdone, hother⟩
    · rw [List.mem_singleton.mp hnew, spend_self, hlast]
      exact ⟨rfl, row, hrow, hfails⟩
  · rw [List.map_append]
    exact List.Nodup.append h.nodup (List.nodup_singleton i) (List.disjoint_singleton.mpr hplace)
  · rw [List.map_append]
    refine List.pairwise_append.mpr
      ⟨h.times, List.pairwise_singleton _ _, fun time hmem now hnow => ?_⟩
    rw [List.mem_singleton.mp hnow]
    exact h.past time hmem
  · change time ≤ engine.now
    rw [hclock]
    rw [List.map_append] at hmem
    rcases List.mem_append.mp hmem with hold | hnew
    · exact h.past time hold
    · exact (List.mem_singleton.mp hnew).le
  · change other.paymentId ∈ engine.deadLetters.paymentIds
    rw [hids]
    by_cases hj : j = i
    · subst hj
      cases hrow.symm.trans hother
      exact List.mem_append_right _ (List.mem_singleton_self _)
    · rw [spend_of_ne left hj] at hdone
      exact List.mem_append_left _ (h.known j other hother hdone hother')

/-- The attempt at hand fails, and the next one is scheduled. -/
theorem Law.again (h : Law limit delay initial (.taken i) left watched)
    (hrow : watched.submitted[i]? = some row) (hmore : 1 < left i) :
    ∃ engine, (tryAttempt (row.closureAt i)).run watched.engine = .ok false engine ∧
      Law limit delay initial .free (spend left i) { watched with engine } ∧
      engine.queue = { watched.engine.queue with
        scheduler := watched.engine.queue.scheduler.scheduled (watched.engine.now + delay)
          (.other (.retry (row.closureAt i))) } := by
  rcases h with ⟨moves, hbooks, hmoves, htokens, hpending⟩
  have hpos := htokens.held_pos.1
  have hle := hbooks.le_total i row hrow
  rcases DeadLetterRow.of_more hmore hle with ⟨hreason, hretries, message, hmessage⟩
  rcases hbooks.opened hmoves hrow hpos with ⟨hpayment, hopen⟩
  refine ⟨(watched.engine.begun i).retrying (row.closureAt i) { row.after limit (left i) false false
    with attempts := row.total limit - left i + 1 }, ?_, ⟨moves, ⟨hbooks.limit_eq, hbooks.delay_eq,
    fun j => ?_, hbooks.spend_le i, hbooks.accepted, fun j hbusy => (nomatch hbusy),
    hbooks.paid.keep hrow hpos (Or.inl hmore)⟩, ?_, ?_, ?_⟩, ?_⟩
  · have hretry : (row.after limit (left i) false false).retryCount
        < watched.engine.maximumRetries := by
      rw [hbooks.limit_eq]
      exact lt_of_le_of_lt (min_le_left _ _) hretries
    have hrun := @tryAttempt_run ω ξ watched.engine (row.closureAt i) _ hpayment hopen
    rw [show (row.closureAt i).permanentReason = none from hreason] at hrun
    simp only at hrun
    rw [show (row.closureAt i).failures[(row.after limit (left i) false false).attempts]?
      = some message from hmessage] at hrun
    exact hrun.trans (run_bind_of_ok (fail_again (watched.engine.begun i) _ _ _ hretry))
  · -- Its record is modified twice, when the attempt begins and when it fails.
    change ((watched.engine.payments.modify i _).modify i _)[j]? = _
    rw [List.modify_modify_eq]
    refine hbooks.modify hrow ?_ (fun j hj => ⟨spend_of_ne left hj, Iff.rfl, Iff.rfl⟩) j
    have hleft : left i ≠ 0 := by omega
    have hless : left i - 1 ≠ 0 := by omega
    simp [DeadLetterRow.after, hleft, hless]
    omega
  · exact hmoves.keep hpos rfl (le_refl _) fun row' hrow' hlast => absurd hlast (by omega)
  · exact htokens.again hmore rfl ⟨row, hrow, rfl⟩ _
  · change watched.engine.pendingRetries + 1 = _
    rw [hpending]
    exact (congrArg (Nat.cast (R := Int)) (pendingTimers_scheduled watched.engine.queue
      (watched.engine.now + watched.engine.retryDelay) (.other (.retry (row.closureAt i))))).symm
  · rw [← hbooks.delay_eq]
    rfl

/-- The last attempt of a payment that does not recover comes to its isolation. -/
theorem run_isolate {payment : DeadLetterPayment}
    (hbooks : Books limit delay none left places watched)
    (hpayment : watched.engine.payments[i]? = some payment)
    (hopen : (payment.isolated || payment.completed) = false)
    (hafter : payment = row.after limit 1 false false) (hfails : row.recovers limit = false) :
    (tryAttempt (row.closureAt i)).run watched.engine = (do
      isolate i row.reason (row.message limit)
      return false : Action (DeadLetterProcessor ω ξ) Bool).run (watched.engine.begun i) := by
  have hrun := @tryAttempt_run ω ξ watched.engine (row.closureAt i) _ hpayment hopen
  unfold DeadLetterRow.reason DeadLetterRow.message
  rcases row.of_fails hfails with ⟨reason, hreason, -⟩ | ⟨hreason, htotal, message, hmessage⟩
  · rw [show (row.closureAt i).permanentReason = some reason from hreason] at hrun
    rw [hreason]
    exact hrun
  · have hattempts : payment.attempts = limit := by
      rw [hafter]
      change row.total limit - 1 = limit
      omega
    have hretries : watched.engine.maximumRetries ≤ payment.retryCount := by
      rw [hafter, hbooks.limit_eq]
      change limit ≤ min (row.total limit - 1) (row.total limit - 1)
      omega
    rw [show (row.closureAt i).permanentReason = none from hreason] at hrun
    simp only at hrun
    rw [hattempts, show (row.closureAt i).failures[limit]? = some message from hmessage] at hrun
    rw [hreason, hmessage]
    have hfail := fail_last (watched.engine.begun (row.closureAt i).payment) (row.closureAt i)
      { payment with attempts := limit + 1 } message hretries
    refine hrun.trans ?_
    simp only [EStateM.run_bind]
    rw [hfail]
    rfl

/-- The payment after its last attempt, if that does not come to the work. -/
theorem after_giveUp (hlast : left i = 1) (hfails : row.recovers limit = false) (isolated : Bool) :
    { row.after limit (left i) false isolated with
        attempts := (row.after limit (left i) false isolated).attempts + 1 }
      = row.after limit (spend left i i) false isolated := by
  have hpos := row.total_pos limit
  rw [spend_self, hlast]
  simp only [DeadLetterRow.after, hfails, Bool.false_and, DeadLetterPayment.mk.injEq, true_and,
    and_true]
  omega

/-- The attempt at hand was the last one and fails. If there is an entry under the
    identifier already, the payment is not isolated. -/
theorem Law.giveUp (h : Law limit delay initial (.taken i) left watched)
    (hrow : watched.submitted[i]? = some row) (hlast : left i = 1)
    (hfails : row.recovers limit = false) :
    ∃ engine, (tryAttempt (row.closureAt i)).run watched.engine = .ok false engine ∧
      Law limit delay initial .free (spend left i) { watched with engine } ∧
      engine.queue = watched.engine.queue := by
  rcases h with ⟨moves, hbooks, hmoves, htokens, hpending⟩
  have hpos := htokens.held_pos.1
  rcases hbooks.opened hmoves hrow hpos with ⟨hpayment, hopen⟩
  have hrun := run_isolate hbooks hpayment hopen (by rw [hlast]) hfails
  have hplace : i ∉ moves.map Prod.fst := by
    intro hmem
    have := (hmoves.failed i hmem).1
    omega
  have hbegun := begun_payment hpayment
  have hpaid := hbooks.paid.keep hrow hpos (Or.inr hfails)
  by_cases hknown : row.paymentId ∈ watched.engine.deadLetters.paymentIds
  · -- Under a known identifier no entry is made, and no payment marked.
    rw [run_bind_of_ok (isolate_known hbegun _ _ hknown)] at hrun
    refine ⟨_, hrun, ⟨moves, ⟨hbooks.limit_eq, hbooks.delay_eq, fun j => ?_, hbooks.spend_le i,
      hbooks.accepted, fun j hbusy => (nomatch hbusy), hpaid⟩, ?_, htokens.last hlast, hpending⟩,
      rfl⟩
    · refine hbooks.modify hrow ?_ (fun j hj => ⟨spend_of_ne left hj, Iff.rfl, Iff.rfl⟩) j
      exact after_giveUp hlast hfails _
    · refine hmoves.keep hpos rfl (le_refl _) fun other hother _ _ => ?_
      cases hrow.symm.trans hother
      exact hknown
  · -- The entry is made at the time of the attempt, and its payment is marked.
    rw [run_bind_of_ok (isolate_new hbegun _ _ hknown)] at hrun
    refine ⟨_, hrun, ⟨moves ++ [(i, watched.engine.now)], ⟨hbooks.limit_eq, hbooks.delay_eq,
      fun j => ?_, hbooks.spend_le i, hbooks.accepted, fun j hbusy => (nomatch hbusy), hpaid⟩, ?_,
      htokens.last hlast, hpending⟩, rfl⟩
    · change ((watched.engine.payments.modify i _).modify i _)[j]? = _
      rw [List.modify_modify_eq]
      refine hbooks.modify hrow ?_ (fun j hj => ⟨spend_of_ne left hj, Iff.rfl, ?_⟩) j
      · have hmoved : i ∈ (moves ++ [(i, watched.engine.now)]).map Prod.fst := by simp
        rw [decide_eq_true hmoved]
        exact congrArg (fun payment : DeadLetterPayment => { payment with isolated := true })
          (after_giveUp hlast hfails _)
      · simp [hj]
    · refine hmoves.move hrow hlast hfails ?_ rfl
      refine (@DeadLetterQueue.isolate_new watched.engine.deadLetters _ hknown).2.trans ?_
      unfold entryOf DeadLetterRow.entryAt DeadLetterRow.after
      simp only [hlast, Nat.min_self]
      rfl

/-- The attempt at hand was the last one and comes to the work. -/
theorem Law.toWork (h : Law limit delay initial (.taken i) left watched)
    (hrow : watched.submitted[i]? = some row) (hlast : left i = 1)
    (hrecovers : row.recovers limit = true) :
    ∃ engine, (tryAttempt (row.closureAt i)).run watched.engine = .ok true engine ∧
      (∀ time, Law limit delay initial (.working i) (spend left i)
        { watched with engine, invoked := watched.invoked ++ [(row.work, time)] }) ∧
      engine.queue = watched.engine.queue := by
  rcases h with ⟨moves, hbooks, hmoves, htokens, hpending⟩
  have hpos := htokens.held_pos.1
  rcases row.of_recovers hrecovers with ⟨hreason, hlength, htotal⟩
  rcases hbooks.opened hmoves hrow hpos with ⟨hpayment, hopen⟩
  -- The failures of the script were used up by the attempts before.
  have hnone : row.failures[(row.after limit (left i) false false).attempts]? = none := by
    refine List.getElem?_eq_none ?_
    change row.failures.length ≤ row.total limit - left i
    omega
  refine ⟨watched.engine.begun i, ?_, fun time => ⟨moves, ⟨hbooks.limit_eq, hbooks.delay_eq,
    fun j => ?_, hbooks.spend_le i, hbooks.accepted, fun j hbusy => ?_,
    hbooks.paid.call hrow hlast hrecovers time⟩, ?_, htokens.last hlast, hpending⟩, rfl⟩
  · have hrun := @tryAttempt_run ω ξ watched.engine (row.closureAt i) _ hpayment hopen
    rw [show (row.closureAt i).permanentReason = none from hreason] at hrun
    simp only at hrun
    rw [show (row.closureAt i).failures[(row.after limit (left i) false false).attempts]? = none
      from hnone] at hrun
    exact hrun
  · refine hbooks.modify hrow ?_ (fun j hj => ⟨spend_of_ne left hj, ?_, Iff.rfl⟩) j
    · simp [DeadLetterRow.after, hlast, htotal]
    · simp [Ne.symm hj]
  · cases hbusy
    exact ⟨by rw [spend_self, hlast], row, hrow, hrecovers⟩
  · refine hmoves.keep hpos rfl (le_refl _) fun other hother _ hfails => ?_
    cases hrow.symm.trans hother
    rw [hrecovers] at hfails
    cases hfails

/-- The work of a payment returned. -/
theorem Law.finish (h : Law limit delay initial (.working i) left watched)
    (hrow : watched.submitted[i]? = some row) :
    ∃ engine, (succeed (row.closureAt i)).run watched.engine = .ok () engine ∧
      Law limit delay initial .free left { watched with engine } ∧
      engine.queue = watched.engine.queue := by
  rcases h with ⟨moves, hbooks, hmoves, htokens, hpending⟩
  rcases hbooks.finished i rfl with ⟨hdone, other, hother, hrecovers⟩
  cases hrow.symm.trans hother
  refine ⟨_, succeed_run (hbooks.payment hrow), ⟨moves, ⟨hbooks.limit_eq, hbooks.delay_eq,
    fun j => ?_, hbooks.le_total, hbooks.accepted, fun j hbusy => (nomatch hbusy), hbooks.paid⟩,
    ⟨hmoves.entries, hmoves.failed, hmoves.nodup, hmoves.times, hmoves.past, hmoves.known⟩,
    htokens, hpending⟩, rfl⟩
  refine hbooks.modify hrow ?_ (fun j hj => ⟨rfl, ?_, Iff.rfl⟩) j
  · simp [DeadLetterRow.after, hdone, hrecovers]
  · simp [Ne.symm hj]

end Law

/-! ### The engine -/

/-- What the dead-letter processor makes of a submission. -/
def terms (limit : Nat) : Terms (DeadLetterRow ω) ω where
  accepted := DeadLetterRow.accepted
  paymentId := DeadLetterRow.paymentId
  work := DeadLetterRow.work
  total := DeadLetterRow.total limit
  recovers := DeadLetterRow.recovers limit
  total_pos := DeadLetterRow.total_pos limit
  visible := DeadLetterRow.visible

/-- The dead-letter processor is lawful. -/
theorem lawful (limit : Nat) {delay : Int} (hdelay : 0 < delay) (initial : List DeadLetterEntry)
    (watched : Component σ (Observed ω ξ)) (program : ω → Action σ Unit) :
    Lawful (terms limit) delay submitRow queueOf watched program
      (attempt (watched.comp Watched.engineOf) (Watched.perform queueOf watched program))
      retry Fits (Law limit delay initial) where
  delay_pos := hdelay
  fits := fun ⟨row, hrow, _⟩ => ⟨row, hrow⟩
  accepted := fun ⟨_, hbooks, _⟩ => hbooks.accepted
  tokens := fun ⟨_, _, _, htokens, _⟩ => htokens
  requeue := by
    rintro hand hand' left self queue h hbusy htokens hpending hclock -
    rcases id h with ⟨-, -, -, -, hsame⟩
    exact h.requeue hbusy rfl rfl rfl rfl htokens (hsame.trans (congrArg _ hpending.symm)) hclock
  refuse := by
    intro row hrefused self
    rcases submitRow_run row self with ⟨haccepted, -⟩ | ⟨-, hrun⟩
    · cases haccepted.symm.trans hrefused
    · exact hrun
  accept := by
    intro hand left self row h hheld haccepted
    rcases submitRow_run row self.engine with ⟨-, hrun⟩ | ⟨hrefused, -⟩
    · rcases id h with ⟨moves, hbooks, -⟩
      exact ⟨_, row.closureAt self.engine.payments.length, hrun, h.accept hheld haccepted,
        hbooks.length, rfl⟩
    · cases haccepted.symm.trans hrefused
  fire h hqueue htimer hdue hclock hrow := h.fire hqueue htimer hdue hclock hrow
  again := by
    rintro task left s h ⟨row, hrow, htask⟩ hmore
    replace htask : task = row.closureAt (place task) := htask
    rcases h.again hrow hmore with ⟨engine, hrun, hfree, hqueue⟩
    rw [← htask] at hrun hqueue
    refine ⟨engine, task, ?_, hfree, rfl, hqueue⟩
    unfold attempt
    exact run_bind_of_ok (Component.zoom_run_ok (p := watched.comp Watched.engineOf) hrun)
  giveUp := by
    rintro task left s row h ⟨other, hother, htask⟩ hlast hrow hfails
    replace htask : task = other.closureAt (place task) := htask
    cases hrow.symm.trans hother
    rcases h.giveUp hrow hlast hfails with ⟨engine, hrun, hfree, hqueue⟩
    rw [← htask] at hrun
    refine ⟨engine, ?_, hfree, hqueue⟩
    unfold attempt
    exact run_bind_of_ok (Component.zoom_run_ok (p := watched.comp Watched.engineOf) hrun)
  work := by
    rintro task left s row h ⟨other, hother, htask⟩ hlast hrow hrecovers
    replace htask : task = other.closureAt (place task) := htask
    cases hrow.symm.trans hother
    rcases h.toWork hrow hlast hrecovers with ⟨engine, hrun, hworking, hqueue⟩
    rw [← htask] at hrun
    refine ⟨engine, succeed task, ?_, hworking _, hqueue, ?_⟩
    · unfold attempt
      rw [run_bind_of_ok (Component.zoom_run_ok (p := watched.comp Watched.engineOf) hrun)]
      have hwork : task.work = row.work := by rw [htask]; rfl
      rw [if_pos rfl, hwork]
      rfl
    · intro left' self hworking hlater
      rcases hworking.finish hlater with ⟨engine, hrun, hfree, hqueue⟩
      rw [← htask] at hrun
      exact ⟨engine, hrun, hfree, hqueue⟩

end DeadLetterProcessor

end BankSim
