import BankSim.Theory.Engines

/-!
# Bounded Retries

The retry scheduler is lawful. A payment takes one attempt more than its script
has failures, or one more than the policy has retries if these are fewer, and
only in the first case does it succeed.

The records of attempts are told apart by payment identifiers. So what is said of
them is said of submissions with distinct identifiers, and all the rest of any.

## Main definitions

* `RetryRow`: A submission, and what becomes of it.
* `RetryScheduler.Books`: The payments, at any moment.
* `RetryScheduler.Logged`, `RetryScheduler.Log`: The records.
* `RetryScheduler.Law`: What holds of a retry scheduler at any moment.

## Theorems

* `RetryScheduler.submitRow_run`, `RetryScheduler.tryAttempt_run`,
  `RetryScheduler.succeed_run`, `RetryScheduler.retry_run`: What the methods do.
* `RetryScheduler.lawful`: The retry scheduler is lawful.
* `RetryScheduler.retries_bounded`: Every payment ends as its script says.
-/

namespace BankSim

open Exec PaymentQueue Places

/-- A submission to the retry scheduler. -/
structure RetryRow (ω : Type) where
  paymentId : String
  failureScript : List String
  work : ω
  deriving DecidableEq, Repr

namespace RetryRow

variable {ω : Type} (policy : RetryPolicy) (row : RetryRow ω)

/-- The submission passes the checks of `submit`. -/
def accepted : Bool :=
  !isBlank row.paymentId && !row.failureScript.any isBlank

/-- How many attempts the payment takes. -/
def total : Nat :=
  min row.failureScript.length policy.maximumRetries + 1

/-- The script runs out before the retries do. -/
def recovers : Bool :=
  row.failureScript.length ≤ policy.maximumRetries

def outcome : FinalOutcome :=
  if row.recovers policy then .succeeded else .permanentlyFailed

/-- The payment when so many attempts are left. While the work is being done
    the last attempt is made, but there is no outcome. -/
def after (left : Nat) (busy : Bool) : RetryPayment where
  paymentId := row.paymentId
  failureScript := row.failureScript
  attempts := row.total policy - left
  finalOutcome := if 0 < left || busy then none else some (row.outcome policy)

/-- The record of an attempt, which is known from its number and its time. -/
def attemptAt (number : Nat) (time : Int) : RetryAttempt where
  paymentId := row.paymentId
  attemptNumber := number
  attemptedAt := time
  succeeded := row.failureScript.length < number
  retryReason := row.failureScript[number - 1]?
  scheduledRetryTime := if number < row.total policy then some (time + policy.retryDelay) else none
  remainingRetries := policy.maximumRetries - (number - 1)

theorem total_pos : 0 < row.total policy :=
  Nat.succ_pos _

end RetryRow

namespace RetryScheduler

variable {ω ξ σ : Type}

instance : Attempting (RetryWork ω) (RetryTimer ω) where
  place work := work.payment
  closure timer := timer.toRetryWork

def submitRow (row : RetryRow ω) : Action (RetryScheduler ω ξ) Unit := do
  let _ ← submit row.paymentId row.failureScript row.work

/-! ### What the methods do -/

theorem payment_eq {self : RetryScheduler ω ξ} {i : Nat} {payment : RetryPayment}
    (h : self.payments[i]? = some payment) : self.payment i = .ok payment := by
  unfold RetryScheduler.payment
  rw [h]

/-- The engine with an attempt put into its queue. -/
def enqueued (self : RetryScheduler ω ξ) (paymentId : String) (closure : RetryWork ω) :
    RetryScheduler ω ξ :=
  { self with queue := (self.queue.arrived paymentId .achTransfer closure).awoken .tick }

/-- The attempt that joins the queue is no timer. -/
theorem enqueued_pendingTimers (self : RetryScheduler ω ξ) (paymentId : String)
    (closure : RetryWork ω) :
    (self.enqueued paymentId closure).queue.pendingTimers = self.queue.pendingTimers :=
  pendingTimers_arrived self.queue paymentId .achTransfer closure

theorem enqueueAttempt_run {self : RetryScheduler ω ξ} {closure : RetryWork ω}
    {payment : RetryPayment} (h : self.payments[closure.payment]? = some payment)
    (hid : isBlank payment.paymentId = false) :
    (enqueueAttempt closure).run self = .ok () (self.enqueued payment.paymentId closure) := by
  have hrun := enqueue_of_nonblank QueueCallback.tick hid .achTransfer closure self.queue
  unfold enqueueAttempt
  rw [run_bind_get, run_bind_lift_ok (payment_eq h)]
  exact run_bind_of_ok (Component.zoom_run_ok (p := queueOf) hrun)

/-- The engine with one more payment. -/
def admitted (self : RetryScheduler ω ξ) (row : RetryRow ω) : RetryScheduler ω ξ :=
  enqueued
    { self with
      payments := self.payments ++
        [{ paymentId := row.paymentId, failureScript := row.failureScript }]
      events := self.events ++
        [{ time := self.now, action := .queued, paymentId := row.paymentId }] }
    row.paymentId ⟨self.payments.length, row.work⟩

theorem submitRow_run (row : RetryRow ω) (self : RetryScheduler ω ξ) :
    (row.accepted = true ∧ (submitRow row).run self = .ok () (self.admitted row)) ∨
      (row.accepted = false ∧ ∃ e, (submitRow row).run self = .error e self) := by
  unfold submitRow submit RetryRow.accepted
  by_cases hid : isBlank row.paymentId = true
  · refine Or.inr ⟨by rw [hid]; rfl, valueError "payment identifier cannot be blank", ?_⟩
    rw [if_pos hid]
    rfl
  · by_cases hscript : row.failureScript.any isBlank = true
    · refine Or.inr ⟨by rw [hscript]; simp, valueError "failure reasons cannot be blank", ?_⟩
      rw [if_neg hid, if_pos hscript]
      rfl
    · refine Or.inl ⟨by simp [hid, hscript], ?_⟩
      rw [if_neg hid, if_neg hscript]
      -- The new payment is there for the closure to be found.
      have hrun := @enqueueAttempt_run ω ξ
        { self with
          payments := self.payments ++
            [{ paymentId := row.paymentId, failureScript := row.failureScript }]
          events := self.events ++
            [{ time := self.now, action := .queued, paymentId := row.paymentId }] }
        ⟨self.payments.length, row.work⟩
        { paymentId := row.paymentId, failureScript := row.failureScript }
        (by simp) (Bool.not_eq_true _ ▸ hid)
      refine run_bind_of_ok (a := self.payments.length) ?_
      exact run_bind_of_ok hrun

/-- A submission that is refused changes nothing. -/
theorem atomic_submitRow (row : RetryRow ω) (self : RetryScheduler ω ξ) :
    Atomic (submitRow row) self := by
  intro e t herror
  rcases submitRow_run row self with ⟨-, hrun⟩ | ⟨-, e', hrun⟩
  · rw [hrun] at herror
    cases herror
  · rw [hrun] at herror
    cases herror
    rfl

/-- The engine after an attempt has begun. -/
def begun (self : RetryScheduler ω ξ) (i : Nat) : RetryScheduler ω ξ :=
  { self with
    payments := self.payments.modify i fun payment =>
      { payment with attempts := payment.attempts + 1 } }

/-- The engine after an attempt failed that is to be repeated. -/
def retrying (self : RetryScheduler ω ξ) (closure : RetryWork ω) (attempt : RetryAttempt)
    (time : Int) : RetryScheduler ω ξ :=
  { self with
    attempts := self.attempts ++ [attempt]
    events := self.events ++
      [⟨self.now, .failed, attempt.paymentId, some attempt.attemptNumber⟩]
    pendingRetries := self.pendingRetries + 1
    queue := { self.queue with
      scheduler := self.queue.scheduler.scheduled time
        (.other (.retry ⟨closure, attempt.attemptNumber⟩)) } }

/-- The engine after a payment got its outcome. -/
def closed (self : RetryScheduler ω ξ) (i : Nat) (attempt : RetryAttempt)
    (outcome : FinalOutcome) (action : RetryAction) : RetryScheduler ω ξ :=
  { self with
    payments := self.payments.modify i fun payment =>
      { payment with finalOutcome := some outcome }
    attempts := self.attempts ++ [attempt]
    events := self.events ++ [⟨self.now, action, attempt.paymentId, some attempt.attemptNumber⟩] }

theorem begun_payment {self : RetryScheduler ω ξ} {i : Nat} {payment : RetryPayment}
    (h : self.payments[i]? = some payment) :
    (self.begun i).payments[i]? = some { payment with attempts := payment.attempts + 1 } := by
  unfold begun
  simp [h]

/-- A failure while there are retries left. -/
theorem fail_again (self : RetryScheduler ω ξ) (closure : RetryWork ω) (payment : RetryPayment)
    (reason : String) (hmore : payment.attempts ≤ self.policy.maximumRetries) :
    (fail closure payment reason).run self = .ok () (self.retrying closure
      ⟨payment.paymentId, payment.attempts, self.now, false, some reason,
        some (self.now + self.policy.retryDelay),
        self.policy.maximumRetries - (payment.attempts - 1)⟩
      (self.now + self.policy.retryDelay)) := by
  have hdelay := self.policy.retryDelay_pos
  unfold fail record log
  rw [run_bind_get, if_pos (by omega), run_bind_modify, run_bind_modify, run_bind_modify]
  -- The time of the retry is not past, so the scheduler takes it.
  have htime : self.now ≤ self.now + self.policy.retryDelay := by omega
  exact Component.zoom_run_ok (p := queueOf) (Component.zoom_run_ok (p := schedulerOf)
    (EventScheduler.scheduleAt_of_le _ htime))

/-- A failure when there are none. -/
theorem fail_last (self : RetryScheduler ω ξ) (closure : RetryWork ω) (payment : RetryPayment)
    (reason : String) (hlast : self.policy.maximumRetries < payment.attempts) :
    (fail closure payment reason).run self = .ok () (self.closed closure.payment
      ⟨payment.paymentId, payment.attempts, self.now, false, some reason, none, 0⟩
      .permanentlyFailed .permanentlyFailed) := by
  unfold fail modifyPayment record log
  rw [run_bind_get, if_neg (by omega), run_bind_modify, run_bind_modify]
  rfl

/-- An attempt up to the call of the work: it fails and is repeated, or it fails
    for good, or the work is to be called. -/
theorem tryAttempt_run {self : RetryScheduler ω ξ} {closure : RetryWork ω}
    {payment : RetryPayment} (h : self.payments[closure.payment]? = some payment) :
    (∃ reason, payment.failureScript[payment.attempts]? = some reason ∧
        payment.attempts < self.policy.maximumRetries ∧
        (tryAttempt closure).run self = .ok none ((self.begun closure.payment).retrying closure
          ⟨payment.paymentId, payment.attempts + 1, self.now, false, some reason,
            some (self.now + self.policy.retryDelay),
            self.policy.maximumRetries - payment.attempts⟩
          (self.now + self.policy.retryDelay))) ∨
      (∃ reason, payment.failureScript[payment.attempts]? = some reason ∧
        self.policy.maximumRetries ≤ payment.attempts ∧
        (tryAttempt closure).run self = .ok none ((self.begun closure.payment).closed
          closure.payment
          ⟨payment.paymentId, payment.attempts + 1, self.now, false, some reason, none, 0⟩
          .permanentlyFailed .permanentlyFailed)) ∨
      (payment.failureScript[payment.attempts]? = none ∧
        (tryAttempt closure).run self
          = .ok (some { payment with attempts := payment.attempts + 1 })
            (self.begun closure.payment)) := by
  have hstart : (tryAttempt closure).run self = (payment.failureScript[payment.attempts]?.elim
      (return some { payment with attempts := payment.attempts + 1 })
      fun reason => do
        fail closure { payment with attempts := payment.attempts + 1 } reason
        return none : Action (RetryScheduler ω ξ) (Option RetryPayment)).run
          (self.begun closure.payment) := by
    unfold tryAttempt modifyPayment
    rw [run_bind_modify, run_bind_get]
    refine (run_bind_lift_ok (payment_eq (begun_payment h))).trans ?_
    simp only [add_tsub_cancel_right]
    cases payment.failureScript[payment.attempts]? with
    | none => rfl
    | some reason => rfl
  rw [hstart]
  cases hreason : payment.failureScript[payment.attempts]? with
  | none => exact Or.inr (Or.inr ⟨rfl, rfl⟩)
  | some reason =>
      by_cases hmore : payment.attempts < self.policy.maximumRetries
      · refine Or.inl ⟨reason, rfl, hmore, ?_⟩
        have hfail := fail_again (self.begun closure.payment) closure
          { payment with attempts := payment.attempts + 1 } reason hmore
        simp only [Nat.cast_add, Nat.cast_one, add_sub_cancel_right] at hfail
        exact run_bind_of_ok hfail
      · refine Or.inr (Or.inl ⟨reason, rfl, not_lt.mp hmore, ?_⟩)
        have hfail := fail_last (self.begun closure.payment) closure
          { payment with attempts := payment.attempts + 1 } reason
          (Nat.lt_succ_of_le (not_lt.mp hmore))
        exact run_bind_of_ok hfail

theorem succeed_run (self : RetryScheduler ω ξ) (closure : RetryWork ω) (payment : RetryPayment) :
    (succeed closure payment).run self = .ok () (self.closed closure.payment
      ⟨payment.paymentId, payment.attempts, self.now, true, none, none,
        self.policy.maximumRetries - (payment.attempts - 1)⟩ .succeeded .succeeded) := rfl

theorem retry_run {self : RetryScheduler ω ξ} {timer : RetryTimer ω} {payment : RetryPayment}
    (h : self.payments[timer.payment]? = some payment)
    (hid : isBlank payment.paymentId = false) :
    (retry timer).run self = .ok () (enqueued
      { self with
        pendingRetries := self.pendingRetries - 1
        events := self.events ++
          [⟨self.now, .retryScheduled, payment.paymentId, some (timer.number + 1)⟩] }
      payment.paymentId timer.toRetryWork) := by
  unfold retry log
  rw [run_bind_modify, run_bind_get]
  have hfound : ({ self with pendingRetries := self.pendingRetries - 1 } :
      RetryScheduler ω ξ).payment timer.payment = .ok payment := payment_eq h
  refine (run_bind_lift_ok hfound).trans ?_
  rw [run_bind_modify]
  exact enqueueAttempt_run h hid

/-! ### The books -/

/-- A retry scheduler under observation. -/
abbrev Observed (ω ξ : Type) :=
  Watched (RetryScheduler ω ξ) (RetryRow ω) ω

/-- The closure belongs to a submission. -/
def Fits (submitted : List (RetryRow ω)) (closure : RetryWork ω) : Prop :=
  ∃ row, submitted[closure.payment]? = some row ∧ closure.work = row.work

/-- The payments are the submissions with so many attempts left, and the works
    that were called are those of the payments that recovered, once each. -/
structure Books (policy : RetryPolicy) (busy : Option Nat) (left : Nat → Nat)
    (watched : Observed ω ξ) : Prop where
  policy_eq : watched.engine.policy = policy
  payments : ∀ i, watched.engine.payments[i]?
    = watched.submitted[i]?.map fun row : RetryRow ω =>
        row.after policy (left i) (busy = some i)
  le_total : ∀ i row, watched.submitted[i]? = some row → left i ≤ row.total policy
  accepted : ∀ row ∈ watched.submitted, row.accepted = true
  finished : ∀ i, busy = some i → left i = 0 ∧
    ∃ row, watched.submitted[i]? = some row ∧ row.recovers policy = true
  paid : Paid (·.work) (·.recovers policy) left watched.submitted watched.invoked

/-- The records of a payment: numbered, as they should be, and none before the
    time that the one before it asked for. -/
structure Logged (policy : RetryPolicy) (row : RetryRow ω) (made : Nat)
    (records : List RetryAttempt) : Prop where
  numbers : records.map (·.attemptNumber) = List.range' 1 made
  each : ∀ record ∈ records, record = row.attemptAt policy record.attemptNumber record.attemptedAt
  spaced : records.IsChain fun earlier later =>
    ∀ time ∈ earlier.scheduledRetryTime, time ≤ later.attemptedAt

/-- The records under an identifier. -/
def recordsOf (self : RetryScheduler ω ξ) (paymentId : String) : List RetryAttempt :=
  self.attempts.filter fun record => record.paymentId = paymentId

/-- How many attempts at a payment are on record. The one whose work is being done
    is not. -/
def made (policy : RetryPolicy) (hand : Hand) (left : Nat → Nat) (i : Nat) (row : RetryRow ω) :
    Nat :=
  row.total policy - left i - if hand.busy = some i then 1 else 0

/-- The record of attempts. The records of a payment are told by its identifier,
    so they only mean something while no two payments share one. -/
structure Log (policy : RetryPolicy) (hand : Hand) (left : Nat → Nat) (watched : Observed ω ξ) :
    Prop where
  known : ∀ record ∈ watched.engine.attempts,
    record.paymentId ∈ watched.submitted.map (·.paymentId)
  logged : (watched.submitted.map (·.paymentId)).Nodup → ∀ i row,
    watched.submitted[i]? = some row →
      Logged policy row (made policy hand left i row) (watched.engine.recordsOf row.paymentId)
  due : (watched.submitted.map (·.paymentId)).Nodup → ∀ i row,
    watched.submitted[i]? = some row →
      ∀ record ∈ (watched.engine.recordsOf row.paymentId).getLast?,
        ∀ time ∈ record.scheduledRetryTime,
          NotBefore hand.payment i time watched.engine.queue

/-- What holds of a retry scheduler at any moment. -/
structure Law (policy : RetryPolicy) (hand : Hand) (left : Nat → Nat) (watched : Observed ω ξ) :
    Prop where
  books : Books policy hand.busy left watched
  tokens : Tokens (Fits watched.submitted) hand.held left watched.submitted.length
    watched.engine.queue
  pending : watched.engine.pendingRetries = watched.engine.queue.pendingTimers
  log : Log policy hand left watched

section Law

variable {policy : RetryPolicy} {hand hand' : Hand} {left : Nat → Nat} {watched : Observed ω ξ}
  {i : Nat} {row : RetryRow ω}

theorem Books.length {busy : Option Nat} (h : Books policy busy left watched) :
    watched.engine.payments.length = watched.submitted.length := by
  have hnone : ∀ i, watched.engine.payments.length ≤ i ↔ watched.submitted.length ≤ i := by
    intro i
    rw [← List.getElem?_eq_none_iff, h.payments, Option.map_eq_none_iff,
      List.getElem?_eq_none_iff]
  exact le_antisymm ((hnone _).mpr (le_refl _)) ((hnone _).mp (le_refl _))

theorem Books.payment {busy : Option Nat} (h : Books policy busy left watched)
    (hrow : watched.submitted[i]? = some row) :
    watched.engine.payments[i]? = some (row.after policy (left i) (busy = some i)) := by
  rw [h.payments, hrow]
  rfl

theorem Books.visible {busy : Option Nat} (h : Books policy busy left watched)
    (hrow : watched.submitted[i]? = some row) : isBlank row.paymentId = false := by
  have haccepted := h.accepted row (List.mem_of_getElem? hrow)
  unfold RetryRow.accepted at haccepted
  rw [Bool.and_eq_true, Bool.not_eq_true'] at haccepted
  exact haccepted.1

/-- The queue changes, and what was in hand may be put down or picked up. -/
theorem Law.requeue (h : Law policy hand left watched) {engine : RetryScheduler ω ξ}
    (hbusy : hand'.busy = hand.busy) (hpolicy : engine.policy = watched.engine.policy)
    (hpayments : engine.payments = watched.engine.payments)
    (hattempts : engine.attempts = watched.engine.attempts)
    (htokens : Tokens (Fits watched.submitted) hand'.held left watched.submitted.length
      engine.queue)
    (hpending : engine.pendingRetries = engine.queue.pendingTimers)
    (hdue : ∀ i time, NotBefore hand.payment i time watched.engine.queue →
      NotBefore hand'.payment i time engine.queue) :
    Law policy hand' left { watched with engine } := by
  have hrecords : ∀ paymentId, engine.recordsOf paymentId
      = watched.engine.recordsOf paymentId := by
    intro paymentId
    unfold recordsOf
    rw [hattempts]
  have hmade : made policy hand' left = made policy (ω := ω) hand left := by
    unfold made
    rw [hbusy]
  refine ⟨⟨hpolicy.trans h.books.policy_eq, fun j => ?_, h.books.le_total, h.books.accepted, ?_,
    h.books.paid⟩, htokens, hpending, ⟨fun record hmem => ?_, fun hids j row hrow => ?_,
    fun hids j row hrow record hlast time htime => ?_⟩⟩
  · rw [hbusy, hpayments]
    exact h.books.payments j
  · rw [hbusy]
    exact h.books.finished
  · rw [hattempts] at hmem
    exact h.log.known record hmem
  · rw [hrecords, hmade]
    exact h.log.logged hids j row hrow
  · rw [hrecords] at hlast
    exact hdue j time (h.log.due hids j row hrow record hlast time htime)

/-- A timer leaves the scheduler, and the next attempt is put into the queue. -/
theorem Law.fire (h : Law policy .free left watched) {event : Event _} {rest : List (Event _)}
    (hqueue : watched.engine.queue.scheduler.queue = event :: rest) {timer : RetryTimer ω}
    (htimer : event.callback = .other (.retry timer)) {clock : VirtualClock}
    (hdue : watched.engine.queue.scheduler.clock.time ≤ event.time)
    (hclock : clock.time = event.time) (hrow : watched.submitted[timer.payment]? = some row) :
    ∃ engine, (retry timer).run { watched.engine with
          queue := { watched.engine.queue with
            scheduler := watched.engine.queue.scheduler.ready clock rest } } = .ok () engine ∧
      Law policy .free left { watched with engine } ∧
      engine.queue = (({ watched.engine.queue with
        scheduler := watched.engine.queue.scheduler.ready clock rest } :
          AttemptQueue (RetryWork ω) (RetryTimer ω) ξ).arrived row.paymentId .achTransfer
            timer.toRetryWork).awoken .tick := by
  rcases h.tokens.fire hqueue htimer clock with ⟨htokens, hfits⟩
  have hcount := pendingTimers_popped hqueue clock
  rw [htimer, isTimer, if_pos rfl] at hcount
  refine ⟨_, retry_run (h.books.payment hrow) (h.books.visible hrow), ?_, rfl⟩
  refine h.requeue rfl rfl rfl rfl (htokens.enqueue rfl hfits _ _) ?_ fun i time hbefore => ?_
  · change watched.engine.pendingRetries - 1 = _
    rw [enqueued_pendingTimers, h.pending, hcount, Nat.cast_succ]
    exact add_sub_cancel_right _ _
  · have hready : NotBefore (some timer.payment) i time { watched.engine.queue with
        scheduler := watched.engine.queue.scheduler.ready clock rest } := by
      refine hbefore.popped hqueue hdue hclock fun heq => Or.inl ?_
      rw [htimer]
      exact heq
    exact hready.arrive (fun hnone => by cases hnone)
      (fun hplace => congrArg some hplace) _ _

/-- A submission is accepted: the new payment has made no attempt. -/
theorem Books.accept {busy : Option Nat} (h : Books policy busy left watched)
    (haccepted : row.accepted = true) :
    Books policy busy (Function.update left watched.submitted.length (row.total policy))
      { watched with
        engine := watched.engine.admitted row
        submitted := watched.submitted ++ [row] } where
  policy_eq := h.policy_eq
  payments := fun i => by
    change (watched.engine.payments ++ [_])[i]? = (watched.submitted ++ [row])[i]?.map _
    rw [getElem?_snoc, getElem?_snoc, h.length]
    by_cases hi : i = watched.submitted.length
    · subst hi
      rw [if_pos rfl, if_pos rfl, Function.update_self, Option.map_some]
      simp [RetryRow.after, row.total_pos policy]
    · rw [if_neg hi, if_neg hi, Function.update_of_ne hi]
      exact h.payments i
  le_total := le_total_accept h.le_total row
  accepted := List.forall_mem_append.mpr ⟨h.accepted, List.forall_mem_singleton.mpr haccepted⟩
  finished := fun i hi => spent_accept (h.finished i hi) row _
  paid := h.paid.accept row (row.total_pos policy)

/-- Nothing is on record under an identifier that is new. -/
theorem Log.recordsOf_new (h : Log policy hand left watched)
    (hids : ((watched.submitted ++ [row]).map (·.paymentId)).Nodup) :
    watched.engine.recordsOf row.paymentId = [] := by
  rw [List.map_append, List.nodup_append] at hids
  refine List.filter_eq_nil_iff.mpr fun record hmem hid => ?_
  have hknown := h.known record hmem
  rw [of_decide_eq_true hid] at hknown
  exact hids.2.2 _ hknown _ (List.mem_singleton_self _) rfl

theorem Log.accept (h : Log policy hand left watched)
    (hbooks : Books policy hand.busy left watched) (row : RetryRow ω) :
    Log policy hand (Function.update left watched.submitted.length (row.total policy))
      { watched with
        engine := watched.engine.admitted row
        submitted := watched.submitted ++ [row] } := by
  have hbusy : hand.busy ≠ some watched.submitted.length := by
    intro hbusy
    rcases (hbooks.finished _ hbusy).2 with ⟨other, hother, -⟩
    exact ne_length_of_some hother rfl
  -- Who has different identifiers with the new payment had them without it.
  have hbefore : ((watched.submitted ++ [row]).map (·.paymentId)).Nodup →
      (watched.submitted.map (·.paymentId)).Nodup := by
    rw [List.map_append]
    exact fun hids => (List.nodup_append.mp hids).1
  refine ⟨fun record hmem => ?_, fun hids => forall_snoc (fun i other hi hother => ?_) ?_,
    fun hids => forall_snoc (fun i other hi hother record hlast time htime => ?_) ?_⟩
  · rw [List.map_append]
    exact List.mem_append_left _ (h.known record hmem)
  · have hlogged := h.logged (hbefore hids) i other hother
    unfold made at hlogged ⊢
    rw [Function.update_of_ne hi]
    exact hlogged
  · change Logged policy row _ (watched.engine.recordsOf row.paymentId)
    rw [h.recordsOf_new hids, made, Function.update_self, Nat.sub_self, if_neg hbusy]
    exact ⟨rfl, fun record hmem => absurd hmem List.not_mem_nil, List.isChain_nil⟩
  · have hdue := h.due (hbefore hids) i other hother record hlast time htime
    refine hdue.arrive id (fun hplace => absurd hplace ?_) _ _
    change watched.engine.payments.length ≠ i
    rw [hbooks.length]
    exact Ne.symm hi
  · intro record hlast
    change record ∈ (watched.engine.recordsOf row.paymentId).getLast? at hlast
    rw [h.recordsOf_new hids] at hlast
    cases hlast

/-- A submission is accepted, at the moment or in the middle of a work. -/
theorem Law.accept (h : Law policy hand left watched) (hheld : hand.held = none)
    (haccepted : row.accepted = true) :
    Law policy hand (Function.update left watched.submitted.length (row.total policy))
      { watched with
        engine := watched.engine.admitted row
        submitted := watched.submitted ++ [row] } := by
  have hlength := h.books.length
  refine ⟨h.books.accept haccepted, ?_,
    h.pending.trans (congrArg _ (enqueued_pendingTimers _ _ _).symm), h.log.accept h.books row⟩
  have htokens := h.tokens
  rw [hheld] at htokens
  rw [hheld, List.length_append]
  refine (htokens.mono ?_).submit hlength ⟨row, ?_, rfl⟩ (row.total_pos policy) _ _
  · rintro work ⟨other, hother, hwork⟩
    exact ⟨other, getElem?_append_of_some hother _, hwork⟩
  · rw [getElem?_snoc, if_pos hlength]

/-! ### An attempt -/

/-- A list of submissions whose identifiers differ has one in each place. -/
theorem place_of_id {submitted : List (RetryRow ω)}
    (hids : (submitted.map (·.paymentId)).Nodup) {i j : Nat} {row other : RetryRow ω}
    (hrow : submitted[i]? = some row) (hother : submitted[j]? = some other)
    (hid : other.paymentId = row.paymentId) : j = i := by
  have hlt : j < (submitted.map (·.paymentId)).length := by
    rw [List.length_map]
    exact (List.getElem?_eq_some_iff.mp hother).1
  refine (List.getElem?_inj hlt hids).mp ?_
  rw [List.getElem?_map, List.getElem?_map, hrow, hother]
  exact congrArg some hid

/-- One more record of a payment, at a time that the one before it allows. -/
theorem Logged.append {attempts : Nat} {records : List RetryAttempt}
    (h : Logged policy row attempts records) {now : Int}
    (hnow : ∀ record ∈ records.getLast?, ∀ time ∈ record.scheduledRetryTime, time ≤ now) :
    Logged policy row (attempts + 1)
      (records ++ [row.attemptAt policy (attempts + 1) now]) := by
  refine ⟨?_, fun record hmem => ?_, ?_⟩
  · rw [List.map_append, h.numbers, List.range'_1_concat, Nat.add_comm 1]
    rfl
  · rcases List.mem_append.mp hmem with hold | hnew
    · exact h.each record hold
    · rw [List.mem_singleton.mp hnew]
      rfl
  · refine List.isChain_append.mpr ⟨h.spaced, List.isChain_singleton _,
      fun earlier hearlier last hlast time htime => ?_⟩
    rw [List.head?_singleton, Option.mem_some_iff] at hlast
    subst hlast
    exact hnow earlier hearlier time htime

/-- One more record, of the payment at hand, at the time it is now. -/
theorem Log.append (h : Log policy hand left watched) (hhand : hand.payment = some i)
    (hrow : watched.submitted[i]? = some row) {later : Observed ω ξ} {left' : Nat → Nat}
    (hsubmitted : later.submitted = watched.submitted)
    (hattempts : later.engine.attempts = watched.engine.attempts ++
      [row.attemptAt policy (made policy hand left i row + 1) watched.engine.now])
    (hmade : made policy hand' left' i row = made policy hand left i row + 1)
    (hothers : ∀ j (other : RetryRow ω), j ≠ i →
      made policy hand' left' j other = made policy hand left j other)
    (hnext : made policy hand left i row + 1 < row.total policy →
      NotBefore hand'.payment i (watched.engine.now + policy.retryDelay) later.engine.queue)
    (hqueue : ∀ j time, j ≠ i → NotBefore hand.payment j time watched.engine.queue →
      NotBefore hand'.payment j time later.engine.queue) : Log policy hand' left' later := by
  have hrecords : ∀ paymentId, later.engine.recordsOf paymentId
      = watched.engine.recordsOf paymentId ++ if row.paymentId = paymentId then
        [row.attemptAt policy (made policy hand left i row + 1) watched.engine.now] else [] := by
    intro paymentId
    unfold recordsOf
    rw [hattempts, List.filter_append, List.filter_singleton]
    by_cases hid : row.paymentId = paymentId
    · simp [RetryRow.attemptAt, hid]
    · simp [RetryRow.attemptAt, hid]
  refine ⟨fun record hmem => ?_, fun hids j other hother => ?_,
    fun hids j other hother record hlast time htime => ?_⟩
  · rw [hattempts] at hmem
    rw [hsubmitted]
    rcases List.mem_append.mp hmem with hold | hnew
    · exact h.known record hold
    · rw [List.mem_singleton.mp hnew]
      exact List.mem_map_of_mem (List.mem_of_getElem? hrow)
  · rw [hsubmitted] at hids hother
    rw [hrecords]
    by_cases hj : j = i
    · subst hj
      cases hrow.symm.trans hother
      rw [if_pos rfl, hmade]
      -- The record before it asked for a time that is not later than now.
      exact (h.logged hids j row hrow).append fun earlier hearlier time htime =>
        (h.due hids j row hrow earlier hearlier time htime).2 (Or.inl hhand)
    · have hid : row.paymentId ≠ other.paymentId := fun heq =>
        hj (place_of_id hids hrow hother heq.symm)
      rw [if_neg hid, List.append_nil, hothers j other hj]
      exact h.logged hids j other hother
  · rw [hsubmitted] at hids hother
    rw [hrecords] at hlast
    by_cases hj : j = i
    · subst hj
      cases hrow.symm.trans hother
      rw [if_pos rfl, List.getLast?_concat, Option.mem_some_iff] at hlast
      subst hlast
      unfold RetryRow.attemptAt at htime
      by_cases hmore : made policy hand left j row + 1 < row.total policy
      · simp only [if_pos hmore, Option.mem_some_iff] at htime
        subst htime
        exact hnext hmore
      · simp only [if_neg hmore] at htime
        cases htime
    · have hid : row.paymentId ≠ other.paymentId := fun heq =>
        hj (place_of_id hids hrow hother heq.symm)
      rw [if_neg hid, List.append_nil] at hlast
      exact hqueue j time hj (h.due hids j other hother record hlast time htime)

/-- The payments when an attempt begins. In the last attempt the payment has no
    outcome yet. -/
theorem Books.begun (h : Books policy none left watched) (hrow : watched.submitted[i]? = some row)
    {busy : Option Nat}
    (hbusy : (1 < left i ∧ busy = none) ∨ (left i = 1 ∧ busy = some i)) (j : Nat) :
    (watched.engine.begun i).payments[j]? = watched.submitted[j]?.map
      fun row : RetryRow ω => row.after policy (spend left i j) (busy = some j) := by
  have hle := h.le_total i row hrow
  unfold RetryScheduler.begun
  by_cases hj : i = j
  · subst hj
    rw [List.getElem?_modify_eq, h.payment hrow, hrow, spend_self]
    refine congrArg some ?_
    unfold RetryRow.after
    rcases hbusy with ⟨hmore, rfl⟩ | ⟨hlast, rfl⟩
    · have hpos : 0 < left i := by omega
      have hpos' : 0 < left i - 1 := by omega
      simp [hpos, hpos']
      omega
    · simp [hlast]
      omega
  · have hother : busy ≠ some j := by
      rcases hbusy with ⟨-, rfl⟩ | ⟨-, rfl⟩
      · exact fun hnone => nomatch hnone
      · exact fun hsome => hj (Option.some.inj hsome)
    rw [List.getElem?_modify_ne _ _ hj, spend_of_ne left (Ne.symm hj), h.payments j]
    simp [hother]

/-- The payments when the last attempt ends. -/
theorem payments_closed {payments : List RetryPayment} {submitted : List (RetryRow ω)}
    (hpayments : ∀ j, payments[j]? = submitted[j]?.map
      fun row : RetryRow ω => row.after policy (left j) (some i = some j))
    (hrow : submitted[i]? = some row) (hdone : left i = 0) (j : Nat) :
    (payments.modify i fun payment =>
        { payment with finalOutcome := some (row.outcome policy) })[j]?
      = submitted[j]?.map fun row : RetryRow ω =>
          row.after policy (left j) ((none : Option Nat) = some j) := by
  by_cases hj : i = j
  · subst hj
    rw [List.getElem?_modify_eq, hpayments, hrow]
    simp [RetryRow.after, hdone]
  · rw [List.getElem?_modify_ne _ _ hj, hpayments]
    simp [hj]

/-- The record of an attempt that fails is as it should be. -/
theorem attemptAt_failed {attempts : Nat} {reason : String} (time : Int)
    (hreason : row.failureScript[attempts]? = some reason)
    (hle : attempts ≤ policy.maximumRetries) :
    row.attemptAt policy (attempts + 1) time
      = ⟨row.paymentId, attempts + 1, time, false, some reason,
          if attempts < policy.maximumRetries then some (time + policy.retryDelay) else none,
          policy.maximumRetries - attempts⟩ := by
  have hlt := (List.getElem?_eq_some_iff.mp hreason).1
  unfold RetryRow.attemptAt RetryRow.total
  rw [Nat.add_sub_cancel, hreason, decide_eq_false (by omega)]
  by_cases hmore : attempts < policy.maximumRetries
  · rw [if_pos hmore, if_pos (by omega)]
    simp
  · rw [if_neg hmore, if_neg (by omega)]
    simp

/-- And so is that of the one that succeeds. -/
theorem attemptAt_succeeded (time : Int) (hrecovers : row.recovers policy = true) :
    row.attemptAt policy (row.failureScript.length + 1) time
      = ⟨row.paymentId, row.failureScript.length + 1, time, true, none, none,
          policy.maximumRetries - row.failureScript.length⟩ := by
  have hle : row.failureScript.length ≤ policy.maximumRetries := of_decide_eq_true hrecovers
  unfold RetryRow.attemptAt RetryRow.total
  rw [Nat.add_sub_cancel, List.getElem?_eq_none (le_refl _), decide_eq_true (Nat.lt_succ_self _),
    if_neg (by omega)]
  simp

theorem made_of_ne {left' : Nat → Nat} {j : Nat} (hhand : hand.busy ≠ some j)
    (hhand' : hand'.busy ≠ some j) (hleft : left' j = left j)
    (other : RetryRow ω) : made policy hand' left' j other = made policy hand left j other := by
  unfold made
  rw [hleft, if_neg hhand, if_neg hhand']

/-- Of the payment that is at hand there are as many attempts on record as it has
    made. -/
theorem made_taken (left : Nat → Nat) (i : Nat) (row : RetryRow ω) :
    made policy (.taken i) left i row = row.total policy - left i :=
  Nat.sub_zero _

theorem Law.spend_le (h : Law policy hand left watched) (i j : Nat) (other : RetryRow ω)
    (hother : watched.submitted[j]? = some other) : spend left i j ≤ other.total policy := by
  have hbound := h.books.le_total j other hother
  by_cases hj : j = i
  · subst hj
    rw [spend_self]
    omega
  · rw [spend_of_ne left hj]
    exact hbound

/-- The attempt at hand fails, and the next one is scheduled. -/
theorem Law.again (h : Law policy (.taken i) left watched)
    (hrow : watched.submitted[i]? = some row) (hmore : 1 < left i) :
    Law policy .free (spend left i)
      { watched with
        engine := (watched.engine.begun i).retrying ⟨i, row.work⟩
          (row.attemptAt policy (row.total policy - left i + 1) watched.engine.now)
          (watched.engine.now + policy.retryDelay) } := by
  have hle := h.books.le_total i row hrow
  refine ⟨⟨h.books.policy_eq, h.books.begun hrow (Or.inl ⟨hmore, rfl⟩), h.spend_le i,
    h.books.accepted, by simp, h.books.paid.keep hrow h.tokens.held_pos.1 (Or.inl hmore)⟩,
    h.tokens.again hmore rfl ⟨row, hrow, rfl⟩ _, ?_, ?_⟩
  · have hcount := pendingTimers_scheduled watched.engine.queue
      (watched.engine.now + policy.retryDelay) (.other (.retry ⟨⟨i, row.work⟩,
        row.total policy - left i + 1⟩))
    change watched.engine.pendingRetries + 1 = _
    rw [h.pending]
    exact (congrArg (Nat.cast (R := Int)) hcount).symm
  · refine h.log.append rfl hrow rfl ?_ ?_ (fun j other hj => ?_)
      (fun _ => ?_) fun j time hj hbefore => ?_
    · rw [made_taken]
      rfl
    · rw [made_taken]
      simp only [made, spend_self, Hand.busy, reduceCtorEq, if_false]
      omega
    · exact made_of_ne (by simp) (by simp) (spend_of_ne left hj) other
    · exact NotBefore.again h.tokens _ _
    · -- The timer is for another payment.
      refine hbefore.release.scheduled ?_ _
      exact fun hsame => hj (Option.some.inj hsame).symm

/-- The attempt at hand was the last one and fails. -/
theorem Law.giveUp (h : Law policy (.taken i) left watched)
    (hrow : watched.submitted[i]? = some row) (hlast : left i = 1)
    (hfails : row.recovers policy = false) :
    Law policy .free (spend left i)
      { watched with
        engine := (watched.engine.begun i).closed i
          (row.attemptAt policy (row.total policy) watched.engine.now)
          .permanentlyFailed .permanentlyFailed } := by
  have hle := h.books.le_total i row hrow
  have houtcome : row.outcome policy = .permanentlyFailed := by
    unfold RetryRow.outcome
    rw [hfails]
    rfl
  have hbegun := h.books.begun hrow (Or.inr ⟨hlast, rfl⟩)
  have hclosed := payments_closed hbegun hrow (by rw [spend_self, hlast])
  rw [houtcome] at hclosed
  refine ⟨⟨h.books.policy_eq, hclosed, h.spend_le i, h.books.accepted, by simp,
    h.books.paid.keep hrow h.tokens.held_pos.1 (Or.inr hfails)⟩, h.tokens.last hlast, h.pending,
    ?_⟩
  refine h.log.append rfl hrow rfl ?_ ?_ (fun j other hj => ?_)
    (fun hmore => ?_) fun j time _ hbefore => hbefore.release
  · have hnumber : row.total policy - left i + 1 = row.total policy := by omega
    rw [made_taken, hnumber]
    rfl
  · rw [made_taken]
    simp only [made, spend_self, Hand.busy, reduceCtorEq, if_false]
    omega
  · exact made_of_ne (by simp) (by simp) (spend_of_ne left hj) other
  · rw [made_taken] at hmore
    omega

/-- The attempt at hand was the last one and comes to the work. -/
theorem Law.toWork (h : Law policy (.taken i) left watched)
    (hrow : watched.submitted[i]? = some row) (hlast : left i = 1)
    (hrecovers : row.recovers policy = true) (time : Int) :
    Law policy (.working i) (spend left i)
      { watched with
        engine := watched.engine.begun i
        invoked := watched.invoked ++ [(row.work, time)] } := by
  have hsame : ∀ j, made policy (.working i) (spend left i) j
      = made policy (ω := ω) (.taken i) left j := by
    intro j
    funext other
    by_cases hj : j = i
    · subst hj
      simp only [made, spend_self, hlast, Hand.busy, if_true, reduceCtorEq, if_false]
      omega
    · exact made_of_ne (by simp) (by simpa using Ne.symm hj) (spend_of_ne left hj) other
  refine ⟨⟨h.books.policy_eq, h.books.begun hrow (Or.inr ⟨hlast, rfl⟩), h.spend_le i,
    h.books.accepted, fun j hj => ?_, h.books.paid.call hrow hlast hrecovers time⟩,
    h.tokens.last hlast, h.pending, ⟨h.log.known, fun hids j other hother => ?_, h.log.due⟩⟩
  · cases hj
    exact ⟨by rw [spend_self, hlast], row, hrow, hrecovers⟩
  · rw [hsame]
    exact h.log.logged hids j other hother

/-- The work of a payment returned. -/
theorem Law.finish (h : Law policy (.working i) left watched)
    (hrow : watched.submitted[i]? = some row) :
    Law policy .free left
      { watched with
        engine := watched.engine.closed i
          (row.attemptAt policy (row.total policy) watched.engine.now) .succeeded .succeeded } := by
  rcases h.books.finished i rfl with ⟨hdone, other, hother, hrecovers⟩
  cases hrow.symm.trans hother
  have houtcome : row.outcome policy = .succeeded := by
    unfold RetryRow.outcome
    rw [hrecovers]
    rfl
  have hclosed := payments_closed h.books.payments hrow hdone
  rw [houtcome] at hclosed
  have hmade : made policy (.working i) left i row + 1 = row.total policy := by
    simp only [made, hdone, Hand.busy, if_true]
    have := row.total_pos policy
    omega
  refine ⟨⟨h.books.policy_eq, hclosed, h.books.le_total, h.books.accepted, by simp,
    h.books.paid⟩, h.tokens, h.pending, ?_⟩
  refine h.log.append rfl hrow rfl ?_ ?_ (fun j other hj => ?_)
    (fun hmore => ?_) fun j time _ hbefore => hbefore.release
  · rw [hmade]
    rfl
  · rw [hmade]
    simp only [made, hdone, Hand.busy, reduceCtorEq, if_false]
    rfl
  · exact made_of_ne (by simpa using Ne.symm hj) (by simp) rfl other
  · rw [hmade] at hmore
    exact absurd hmore (lt_irrefl _)

/-- An attempt while there are more to come. -/
theorem Law.run_again (h : Law policy (.taken i) left watched)
    (hrow : watched.submitted[i]? = some row) (hmore : 1 < left i) :
    (tryAttempt ⟨i, row.work⟩).run watched.engine
      = .ok none ((watched.engine.begun i).retrying ⟨i, row.work⟩
        (row.attemptAt policy (row.total policy - left i + 1) watched.engine.now)
        (watched.engine.now + policy.retryDelay)) := by
  have hle := h.books.le_total i row hrow
  have htotal : row.total policy = min row.failureScript.length policy.maximumRetries + 1 := rfl
  have hpolicy := h.books.policy_eq
  rcases @tryAttempt_run ω ξ watched.engine ⟨i, row.work⟩ _ (h.books.payment hrow) with
    ⟨reason, hreason, hmax, hrun⟩ | ⟨reason, hreason, hmax, hrun⟩ | ⟨hnone, hrun⟩ <;>
    rw [hpolicy] at *
  · change row.failureScript[row.total policy - left i]? = some reason at hreason
    change row.total policy - left i < policy.maximumRetries at hmax
    rw [attemptAt_failed _ hreason hmax.le, if_pos hmax]
    exact hrun
  · change policy.maximumRetries ≤ row.total policy - left i at hmax
    omega
  · change row.failureScript[row.total policy - left i]? = none at hnone
    have hlen := List.getElem?_eq_none_iff.mp hnone
    omega

/-- The last attempt of a payment that does not recover. -/
theorem Law.run_giveUp (h : Law policy (.taken i) left watched)
    (hrow : watched.submitted[i]? = some row) (hlast : left i = 1)
    (hfails : row.recovers policy = false) :
    (tryAttempt ⟨i, row.work⟩).run watched.engine
      = .ok none ((watched.engine.begun i).closed i
        (row.attemptAt policy (row.total policy) watched.engine.now)
        .permanentlyFailed .permanentlyFailed) := by
  have htotal : row.total policy = min row.failureScript.length policy.maximumRetries + 1 := rfl
  have hlong : policy.maximumRetries < row.failureScript.length := by
    simpa [RetryRow.recovers] using hfails
  have hpolicy := h.books.policy_eq
  rcases @tryAttempt_run ω ξ watched.engine ⟨i, row.work⟩ _ (h.books.payment hrow) with
    ⟨reason, hreason, hmax, hrun⟩ | ⟨reason, hreason, hmax, hrun⟩ | ⟨hnone, hrun⟩ <;>
    rw [hpolicy] at *
  · change row.total policy - left i < policy.maximumRetries at hmax
    omega
  · change row.failureScript[row.total policy - left i]? = some reason at hreason
    have hattempts : row.total policy - left i = policy.maximumRetries := by omega
    have hrecord := attemptAt_failed watched.engine.now hreason hattempts.le
    have hnumber : row.total policy - left i + 1 = row.total policy := by omega
    rw [hnumber, if_neg (by omega), hattempts, sub_self] at hrecord
    rw [hrecord, ← hnumber]
    exact hrun
  · change row.failureScript[row.total policy - left i]? = none at hnone
    have hlen := List.getElem?_eq_none_iff.mp hnone
    omega

/-- The last attempt of a payment that recovers. -/
theorem Law.run_work (h : Law policy (.taken i) left watched)
    (hrow : watched.submitted[i]? = some row) (hlast : left i = 1)
    (hrecovers : row.recovers policy = true) :
    (tryAttempt ⟨i, row.work⟩).run watched.engine
      = .ok (some { row.after policy (left i) false with
          attempts := row.failureScript.length + 1 }) (watched.engine.begun i) := by
  have htotal : row.total policy = min row.failureScript.length policy.maximumRetries + 1 := rfl
  have hshort : row.failureScript.length ≤ policy.maximumRetries := of_decide_eq_true hrecovers
  rcases @tryAttempt_run ω ξ watched.engine ⟨i, row.work⟩ _ (h.books.payment hrow) with
    ⟨reason, hreason, -, hrun⟩ | ⟨reason, hreason, -, hrun⟩ | ⟨-, hrun⟩
  · change row.failureScript[row.total policy - left i]? = some reason at hreason
    have hlen := (List.getElem?_eq_some_iff.mp hreason).1
    omega
  · change row.failureScript[row.total policy - left i]? = some reason at hreason
    have hlen := (List.getElem?_eq_some_iff.mp hreason).1
    omega
  · have hattempts : row.total policy - left i = row.failureScript.length := by omega
    rw [← hattempts]
    exact hrun

end Law

/-! ### The engine -/

/-- What the retry scheduler makes of a submission. -/
def terms (policy : RetryPolicy) : Terms (RetryRow ω) ω where
  accepted := RetryRow.accepted
  paymentId := RetryRow.paymentId
  work := RetryRow.work
  total := RetryRow.total policy
  recovers := RetryRow.recovers policy
  total_pos := RetryRow.total_pos policy
  visible row h := by
    unfold RetryRow.accepted at h
    rw [Bool.and_eq_true, Bool.not_eq_true'] at h
    exact h.1

/-- The retry scheduler is lawful. -/
theorem lawful (policy : RetryPolicy) (watched : Component σ (Observed ω ξ))
    (program : ω → Action σ Unit) :
    Lawful (terms policy) policy.retryDelay submitRow queueOf watched program
      (attempt (watched.comp Watched.engineOf) (Watched.perform queueOf watched program))
      retry Fits (Law policy) where
  delay_pos := policy.retryDelay_pos
  fits := fun ⟨row, hrow, _⟩ => ⟨row, hrow⟩
  accepted h := h.books.accepted
  tokens h := h.tokens
  requeue h hbusy htokens hpending _ hdue :=
    h.requeue hbusy rfl rfl rfl htokens (h.pending.trans (congrArg _ hpending.symm)) hdue
  refuse := by
    intro row hrefused self
    rcases submitRow_run row self with ⟨haccepted, -⟩ | ⟨-, hrun⟩
    · cases haccepted.symm.trans hrefused
    · exact hrun
  accept := by
    intro hand left self row h hheld haccepted
    rcases submitRow_run row self.engine with ⟨-, hrun⟩ | ⟨hrefused, -⟩
    · exact ⟨_, ⟨self.engine.payments.length, row.work⟩, hrun, h.accept hheld haccepted,
        h.books.length, rfl⟩
    · cases haccepted.symm.trans hrefused
  fire h hqueue htimer hdue hclock hrow := h.fire hqueue htimer hdue hclock hrow
  again := by
    rintro ⟨i, work⟩ left s h ⟨row, hrow, hwork⟩ hmore
    obtain rfl : work = row.work := hwork
    refine ⟨_, ⟨⟨i, row.work⟩, _⟩, ?_, h.again hrow hmore, rfl, rfl⟩
    unfold attempt
    exact run_bind_of_ok (Component.zoom_run_ok (p := watched.comp Watched.engineOf)
      (h.run_again hrow hmore))
  giveUp := by
    rintro ⟨i, work⟩ left s row h ⟨other, hother, hwork⟩ hlast hrow hfails
    cases hrow.symm.trans hother
    obtain rfl : work = row.work := hwork
    refine ⟨_, ?_, h.giveUp hrow hlast hfails, rfl⟩
    unfold attempt
    exact run_bind_of_ok (Component.zoom_run_ok (p := watched.comp Watched.engineOf)
      (h.run_giveUp hrow hlast hfails))
  work := by
    rintro ⟨i, work⟩ left s row h ⟨other, hother, hwork⟩ hlast hrow hrecovers
    cases hrow.symm.trans hother
    obtain rfl : work = row.work := hwork
    refine ⟨_, succeed ⟨i, row.work⟩ { row.after policy (left i) false with
      attempts := row.failureScript.length + 1 }, ?_, h.toWork hrow hlast hrecovers _, rfl, ?_⟩
    · unfold attempt
      exact run_bind_of_ok (Component.zoom_run_ok (p := watched.comp Watched.engineOf)
        (h.run_work hrow hlast hrecovers))
    · intro left' self hworking hlater
      refine ⟨_, succeed_run _ _ _, ?_, rfl⟩
      have htotal : row.total policy = row.failureScript.length + 1 := by
        have hshort : row.failureScript.length ≤ policy.maximumRetries :=
          of_decide_eq_true hrecovers
        unfold RetryRow.total
        omega
      have hfinish := hworking.finish hlater
      rw [htotal, attemptAt_succeeded _ hrecovers] at hfinish
      simp only [hworking.books.policy_eq, Nat.cast_add, Nat.cast_one, add_sub_cancel_right]
      exact hfinish

/-! ### Runs -/

theorem law_new (policy : RetryPolicy) (clock : VirtualClock) {capacity : Int}
    {queue : AttemptQueue (RetryWork ω) (RetryTimer ω) ξ}
    (hnew : PaymentQueue.new (EventScheduler.new clock) capacity = .ok queue) :
    Law policy .free (fun _ => 0) (Watched.new (new queue policy) : Observed ω ξ) where
  books := ⟨rfl, fun _ => rfl, fun i row hrow => (nomatch hrow),
    fun row hmem => absurd hmem List.not_mem_nil, fun i hbusy => (nomatch hbusy), paid_nil _ _ _⟩
  tokens := tokens_new _ clock hnew
  pending := by
    rcases new_ok hnew with ⟨worker, -, rfl⟩
    rfl
  log := ⟨fun record hmem => absurd hmem List.not_mem_nil, fun _ i row hrow => (nomatch hrow),
    fun _ i row hrow => (nomatch hrow)⟩

/-- What there is to be seen of payments that are all done with. -/
structure Settled (policy : RetryPolicy) (rows : List (RetryRow ω)) (self : Observed ω ξ) :
    Prop where
  payments : self.engine.payments = rows.map fun row =>
    { paymentId := row.paymentId
      failureScript := row.failureScript
      attempts := min row.failureScript.length policy.maximumRetries + 1
      finalOutcome := some (if row.failureScript.length ≤ policy.maximumRetries then
        .succeeded else .permanentlyFailed) }
  records : ∀ row ∈ rows, Logged policy row
    (min row.failureScript.length policy.maximumRetries + 1)
    (self.engine.recordsOf row.paymentId)
  invoked : (self.invoked.map Prod.fst).Perm
    ((rows.filter fun row => row.failureScript.length ≤ policy.maximumRetries).map (·.work))

theorem Law.settled {policy : RetryPolicy} {left : Nat → Nat} {self : Observed ω ξ}
    (h : Law policy .free left self) (hdone : ∀ i, left i = 0)
    (hids : (self.submitted.map (·.paymentId)).Nodup) : Settled policy self.submitted self where
  payments := by
    refine List.ext_getElem? fun i => ?_
    rw [h.books.payments, List.getElem?_map]
    refine congrFun (congrArg Option.map (funext fun row => ?_)) _
    simp [RetryRow.after, RetryRow.outcome, RetryRow.recovers, RetryRow.total, hdone]
  records row hmem := by
    rcases List.getElem?_of_mem hmem with ⟨i, hrow⟩
    have hlogged := h.log.logged hids i row hrow
    simp only [made, hdone, Hand.busy, reduceCtorEq, if_false, Nat.sub_zero] at hlogged
    exact hlogged
  invoked := h.books.paid.all hdone

/-- Submissions under distinct identifiers, with works that neither raise nor
    submit anything. In every state between two events there are as many timers
    as the statistics say. When the run has ended the payments are settled, and
    it does end if nothing else is scheduled. -/
theorem retries_bounded (policy : RetryPolicy) (watched : Component σ (Observed ω ξ))
    (program : ω → Action σ Unit) (other : ξ → Action σ Unit)
    (hprogram : ∀ work, OnlyMakes watched (Watched.exec submitRow queueOf) Watched.Use.Quiet
      (program work))
    (hother : ∀ callback, OnlyMakes watched (Watched.exec submitRow queueOf) Watched.Use.Quiet
      (other callback))
    (hreturns : ∀ work s, ¬ Raises (program work) s)
    (hothers : ∀ callback s, ¬ Raises (other callback) s) (clock : VirtualClock) (capacity : Int)
    (queue : AttemptQueue (RetryWork ω) (RetryTimer ω) ξ)
    (hnew : PaymentQueue.new (EventScheduler.new clock) capacity = .ok queue)
    (rows : List (RetryRow ω)) (hids : (rows.map (·.paymentId)).Nodup) (s : σ) :
    (∀ rounds, ∃ ended t,
      (EventScheduler.run ((watched.comp (Watched.engineOf.comp queueOf)).comp schedulerOf)
          (call (watched.comp Watched.engineOf) (Watched.perform queueOf watched program) other)
          rounds).run (watched.set (Watched.given submitRow queueOf (new queue policy) rows) s)
          = .ok ended t ∧
        (watched.get t).engine.statistics.retryQueueSize
          = (watched.get t).engine.queue.pendingTimers ∧
        (ended = true → Settled policy (rows.filter RetryRow.accepted) (watched.get t))) ∧
    (IsEmpty ξ → ∃ t enough, ∀ rounds, enough ≤ rounds →
      (EventScheduler.run ((watched.comp (Watched.engineOf.comp queueOf)).comp schedulerOf)
          (call (watched.comp Watched.engineOf) (Watched.perform queueOf watched program) other)
          rounds).run (watched.set (Watched.given submitRow queueOf (new queue policy) rows) s)
          = .ok true t) := by
  rcases (lawful policy watched program).run_given hprogram hother hreturns hothers
    (fun how => Watched.Use.Quiet.keepsTime) (between_new True clock hnew)
    (law_new policy clock hnew) rows s with ⟨hruns, hends⟩
  refine ⟨fun rounds => ?_, fun hempty => hends (fun how hhow => hhow) hempty⟩
  rcases hruns rounds with ⟨ended, t, hrun, left, hlaw, -, hsame, hended⟩
  refine ⟨ended, t, hrun, hlaw.pending, fun hdone => ?_⟩
  have hrows : (watched.get t).submitted = rows.filter RetryRow.accepted :=
    hsame fun how hhow => hhow
  rw [← hrows]
  refine hlaw.settled (hended hdone).2.2 ?_
  rw [hrows]
  exact hids.sublist (List.filter_sublist.map _)

/-- Works that post their names. -/
def posting (work : String) : Action (Observed String Empty × List String) Unit :=
  modify fun s => (s.1, s.2 ++ [work])

/-- One payment that is never refused, one that is refused once, and one that is
    refused more often than it is retried. -/
def threePayments : List (RetryRow String) :=
  [⟨"PAY-1", [], "post 1"⟩, ⟨"PAY-2", ["timeout"], "post 2"⟩,
    ⟨"PAY-3", ["timeout", "timeout", "timeout", "timeout"], "post 3"⟩]

theorem retries_bounded_threePayments :
    ∃ rounds t, (EventScheduler.run ((Component.first.comp (Watched.engineOf.comp queueOf)).comp
          schedulerOf)
        (call (Component.first.comp Watched.engineOf)
          (Watched.perform queueOf Component.first posting) Empty.elim) rounds).run
        (Watched.given submitRow queueOf (new (oneAMinute _ _)) threePayments, []) = .ok true t ∧
      Settled {} threePayments t.1 := by
  rcases retries_bounded {} Component.first posting Empty.elim
    (fun work s => ⟨[], fun how hmem => absurd hmem List.not_mem_nil, rfl⟩)
    (fun callback => callback.elim) (fun work s ⟨e, t, herror⟩ => nomatch herror)
    (fun callback => callback.elim) ⟨0, by decide⟩ 1 (oneAMinute _ _) rfl threePayments (by decide)
    (Watched.new (new (oneAMinute _ _)), []) with ⟨hruns, hends⟩
  rcases hends inferInstance with ⟨t, enough, hend⟩
  rcases hruns enough with ⟨ended, u, hrun, -, hsettled⟩
  cases (hend enough (le_refl _)).symm.trans hrun
  exact ⟨enough, t, hrun, hsettled rfl⟩

end RetryScheduler

end BankSim
