import BankSim.Core.Laboratory
import BankSim.Theory.DeadLetterOutcomes
import BankSim.Theory.Posting
import BankSim.Theory.Retries
import BankSim.Theory.Services

/-!
# Debits behind an Engine

The scenarios of the engines post to a ledger. Their works build the next entry
from the length of the ledger and from the time, and append it. Such a work
raises if its identifier is taken or its time is past, so it does not belong to
the works that never raise.

`Debited` is the invariant: the ledger is what it was at first, followed by one
debit for each work that was called, made at the time of the call. A work under
an identifier of its own fits such a ledger, because calls are made at times
that do not decrease. So a ledger `Serves` an engine, and all that is said of
engines with something behind them holds of it.

## Main definitions

* `Debitable`: Works that can be done, under identifiers of their own.
* `Debited`: The ledger while works are being done.
* `DebitedOnce`: The ledger after all of them.

## Theorems

* `serves`: A ledger serves an engine.
* `DeadLetterProcessor.debits_recovering`: Debits behind a dead-letter processor.
* `RetryScheduler.debits_retried`: Debits behind a retry scheduler, and what it
  measures.
-/

namespace BankSim

open Exec PaymentQueue

/-! ### Debits behind an engine -/

namespace PostingWork

/-- The work passes the checks of the constructors. -/
structure Valid (work : PostingWork) : Prop where
  entryId_nonblank : isBlank work.entryId = false
  accountId_nonblank : isBlank work.accountId = false
  amount_pos : 0 < work.amountCents
  description_nonblank : isBlank work.description = false

instance (work : PostingWork) : Decidable work.Valid :=
  decidable_of_iff (isBlank work.entryId = false ∧ isBlank work.accountId = false ∧
      0 < work.amountCents ∧ isBlank work.description = false)
    ⟨fun ⟨a, b, c, d⟩ => ⟨a, b, c, d⟩, fun ⟨a, b, c, d⟩ => ⟨a, b, c, d⟩⟩

/-- What the work posts at a time. -/
def posting (work : PostingWork) (time : Int) : Posting where
  entryId := work.entryId
  accountId := work.accountId
  cents := work.amountCents
  entryType := .debit
  description := work.description
  postedAt := time

theorem perform_eq (work : PostingWork) (now : Int) : work.perform now = (work.posting now).post :=
  rfl

end PostingWork

/-- The work that an entry was made by, and when. -/
def LedgerEntry.debited (self : LedgerEntry) : PostingWork × Int :=
  (⟨self.entryId, self.accountId, self.amount.cents, self.description⟩, self.postedAt)

/-- The ledger after these works, none of them later than now. -/
structure Debited (start : Ledger) (done : List (PostingWork × Int)) (now : Int)
    (ledger : Ledger) : Prop where
  wellFormed : ledger.WellFormed
  now_nonneg : 0 ≤ now
  last_le : ledger.lastPostedAt ≤ now
  entries : ∃ debits, ledger.entries = start.entries ++ debits ∧
    debits.map LedgerEntry.debited = done ∧ ∀ entry ∈ debits, entry.entryType = .debit

/-- The works are valid and have identifiers of their own. -/
structure Debitable (start : Ledger) (works : List PostingWork) : Prop where
  valid : ∀ work ∈ works, work.Valid
  distinct : (works.map (·.entryId)).Nodup
  fresh : ∀ work ∈ works, ∀ entry ∈ start.entries, entry.entryId ≠ work.entryId

/-- Nothing is done yet when the queue is fresh. -/
theorem debited_new {start : Ledger} (hwf : start.WellFormed) {clock : VirtualClock}
    (hlast : start.lastPostedAt ≤ clock.time) {ω κ : Type} {capacity : Int}
    {queue : PaymentQueue ω κ}
    (hnew : PaymentQueue.new (EventScheduler.new clock) capacity = .ok queue) :
    Debited start [] queue.scheduler.clock.time start := by
  obtain ⟨worker, -, rfl⟩ := PaymentQueue.new_ok hnew
  exact
    { wellFormed := hwf
      now_nonneg := clock.time_nonneg
      last_le := hlast
      entries := ⟨[], (List.append_nil _).symm, rfl, fun _ h => absurd h List.not_mem_nil⟩ }

section Debited

variable {start ledger : Ledger} {done : List (PostingWork × Int)} {work : PostingWork} {now : Int}

/-- An allowed work fits the ledger. -/
theorem Debited.fits (h : Debited start done now ledger)
    (hworks : Debitable start (done.map Prod.fst ++ [work])) : (work.posting now).Fits ledger := by
  have hmem : work ∈ done.map Prod.fst ++ [work] := by simp
  have hvalid := hworks.valid work hmem
  refine
    { cents_pos := hvalid.amount_pos
      entryId_nonblank := hvalid.entryId_nonblank
      accountId_nonblank := hvalid.accountId_nonblank
      description_nonblank := hvalid.description_nonblank
      postedAt_nonneg := h.now_nonneg
      originalTransferId_nonblank := rfl
      achReturnId_nonblank := rfl
      fresh := ?_
      last_le := h.last_le }
  obtain ⟨debits, hentries, hdone, -⟩ := h.entries
  refine h.wellFormed.fresh hentries (hworks.fresh work hmem) fun entry hentry hid => ?_
  -- The works that were done have other identifiers.
  have hdistinct := hworks.distinct
  rw [List.map_append, List.nodup_append] at hdistinct
  have hearlier : entry.entryId ∈ (done.map Prod.fst).map (·.entryId) := by
    rw [← hdone, List.map_map, List.map_map]
    exact List.mem_map_of_mem hentry
  exact hdistinct.2.2 _ hearlier _ (List.mem_singleton_self _) hid

/-- The entry of a debit tells what it was made by. -/
theorem debited_entry (h : (work.posting now).Fits ledger) :
    (Posting.entry h).debited = (work, now) := rfl

/-- One more work is done. -/
theorem Debited.push (h : Debited start done now ledger) (hfits : (work.posting now).Fits ledger) :
    Debited start (done ++ [(work, now)]) now (ledger.push (Posting.entry hfits)) := by
  obtain ⟨debits, hentries, hdone, htypes⟩ := h.entries
  refine
    { wellFormed := Ledger.wellFormed_push ledger _ h.wellFormed (Posting.refusal_entry hfits)
      now_nonneg := h.now_nonneg
      last_le := (Ledger.push_lastPostedAt ledger _).le
      entries := ⟨debits ++ [Posting.entry hfits], ?_, ?_, ?_⟩ }
  · rw [Ledger.push_entries, hentries, List.append_assoc]
  · rw [List.map_append, hdone, List.map_singleton, debited_entry]
  · intro entry hentry
    rcases List.mem_append.mp hentry with hentry | hentry
    · exact htypes entry hentry
    · rw [List.mem_singleton.mp hentry]
      rfl

end Debited

/-- Some of the works, in some order, are as good as all of them. -/
theorem Debitable.subperm {start : Ledger} {works all : List PostingWork}
    (h : Debitable start all) (hsub : works.Subperm all) : Debitable start works where
  valid work hwork := h.valid work (hsub.subset hwork)
  distinct := by
    obtain ⟨others, hperm, hsublist⟩ := hsub
    exact (hperm.map _).nodup_iff.mp (h.distinct.sublist (hsublist.map _))
  fresh work hwork := h.fresh work (hsub.subset hwork)

/-- A ledger serves an engine that posts debits. -/
theorem serves (start : Ledger) :
    Serves PostingWork.perform (Debitable start) (Debited start) where
  subperm hsub hall := hall.subperm hsub
  later h hle := { h with now_nonneg := h.now_nonneg.trans hle, last_le := h.last_le.trans hle }
  performs := by
    intro done now ledger work h hworks
    have hfits := h.fits hworks
    refine ⟨ledger.push (Posting.entry hfits), ?_, h.push hfits⟩
    rw [PostingWork.perform_eq]
    exact Posting.post_of_fits hfits

/-! ### What becomes of a ledger -/

/-- The works were done, once each, and nothing else was. -/
structure DebitedOnce (start : Ledger) (works : List PostingWork) (ledger : Ledger) : Prop where
  wellFormed : ledger.WellFormed
  entries : ∃ debits, ledger.entries = start.entries ++ debits ∧
    (debits.map fun entry => entry.debited.1).Perm works ∧
    ∀ entry ∈ debits, entry.entryType = .debit
  replay : replay ledger.entries
    = .ok (totalCents start.entries - (works.map (·.amountCents)).sum)

/-- Debits take their amounts from the balance. -/
theorem totalCents_debits {debits : List LedgerEntry}
    (h : ∀ entry ∈ debits, entry.entryType = .debit) :
    totalCents debits = -((debits.map fun entry => entry.debited.1).map (·.amountCents)).sum := by
  induction debits with
  | nil => rfl
  | cons entry debits ih =>
      have hentry : entry.signedCents = -entry.debited.1.amountCents := by
        unfold LedgerEntry.signedCents
        rw [h entry List.mem_cons_self, if_neg (by decide), neg_one_mul]
        rfl
      rw [totalCents, List.map_cons, List.sum_cons, ← totalCents,
        ih fun other hother => h other (List.mem_cons_of_mem _ hother), hentry]
      simp only [List.map_cons, List.sum_cons, neg_add]

theorem Debited.posted {start ledger : Ledger} {done : List (PostingWork × Int)} {now : Int}
    (h : Debited start done now ledger) {works : List PostingWork}
    (hperm : (done.map Prod.fst).Perm works) : DebitedOnce start works ledger := by
  obtain ⟨debits, hentries, hdone, htypes⟩ := h.entries
  have hworks : debits.map (fun entry => entry.debited.1) = done.map Prod.fst := by
    rw [← hdone, List.map_map]
    rfl
  refine ⟨h.wellFormed, ⟨debits, hentries, hworks ▸ hperm, htypes⟩, ?_⟩
  rw [replay_eq_sum h.wellFormed, hentries, totalCents_append, totalCents_debits htypes, hworks,
    (hperm.map _).sum_eq, ← sub_eq_add_neg]

/-- A ledger that was opened with so much. -/
def fundedWith (cents : Int) (hpos : 0 < cents := by decide) : Ledger :=
  Ledger.new.push
    { entryId := "OPEN"
      accountId := "HCCU-DEMO-001"
      amount := ⟨cents, hpos⟩
      entryType := .credit
      description := "Opening balance"
      sequence := 1
      postedAt := 0 }

theorem fundedWith_wellFormed (cents : Int) (hpos : 0 < cents) :
    (fundedWith cents hpos).WellFormed :=
  Ledger.wellFormed_push Ledger.new _ Ledger.wellFormed_new
    ((Ledger.refusal_eq_none_iff _ _).mpr ⟨rfl, Finset.notMem_empty _, le_refl _⟩)

/-! ### The engines over a ledger -/

namespace DeadLetterProcessor

/-- Run what is on the scheduler of a processor whose works post to a ledger. -/
def runPosting (rounds : Nat) : Action (Observed PostingWork Empty × Ledger) Bool :=
  EventScheduler.run ((Component.first.comp (Watched.engineOf.comp queueOf)).comp schedulerOf)
    (call (Component.first.comp Watched.engineOf)
      (Watched.perform queueOf Component.first (serve queueOf PostingWork.perform)) Empty.elim)
    rounds

section Run

variable (clock : VirtualClock) (capacity : Int)
  (queue : AttemptQueue (DeadLetterWork PostingWork) (DeadLetterWork PostingWork) Empty)
  (hnew : PaymentQueue.new (EventScheduler.new clock) capacity = .ok queue)
  (maximumRetries retryDelay : Int) (engine : DeadLetterProcessor PostingWork Empty)
  (hengine : new queue DeadLetterQueue.new maximumRetries retryDelay = .ok engine)
  (rows : List (DeadLetterRow PostingWork)) (start : Ledger) (hwf : start.WellFormed)
  (hlast : start.lastPostedAt ≤ clock.time)
  (hworks : Debitable start ((rows.filter DeadLetterRow.accepted).map (·.work)))

include hnew hengine hwf hlast hworks

/-- A run never raises and comes to an end, and each payment that recovers is
    debited then. -/
theorem run_posting :
    (∀ rounds, ∃ ended t,
      (runPosting rounds).run (Watched.given submitRow queueOf engine rows, start) = .ok ended t ∧
      Debited start t.1.invoked (t.1.now queueOf) t.2) ∧
    ∃ t enough, (∀ rounds, enough ≤ rounds →
        (runPosting rounds).run (Watched.given submitRow queueOf engine rows, start)
          = .ok true t) ∧
      ((rows.map (·.paymentId)).Nodup →
        Settled maximumRetries.toNat (rows.filter DeadLetterRow.accepted) t.1) ∧
      DebitedOnce start (((rows.filter DeadLetterRow.accepted).filter fun row =>
        !Fails maximumRetries.toNat row).map (·.work)) t.2 := by
  obtain ⟨limit, hdelay, rfl, rfl⟩ := new_ok hengine
  obtain ⟨hruns, t, enough, left, hends, hlaw, hnone, hsubmitted, hwaiting, hqueue, hdone⟩ :=
    (lawful limit hdelay [] Component.first (serve queueOf PostingWork.perform)).run_serving_given
      (fun ⟨_, hbooks, _⟩ => hbooks.paid) (serves start) Empty.elim (between_new True clock hnew)
      (law_new limit hdelay .new clock hnew) rows start (debited_new hwf hlast hnew) hworks
  replace hsubmitted : t.1.submitted = rows.filter DeadLetterRow.accepted := hsubmitted
  refine ⟨hruns, t, enough, hends, fun hids => ?_, ?_⟩
  all_goals rw [Int.toNat_natCast, ← hsubmitted]
  · refine hlaw.settled hnone hwaiting hqueue ?_
    rw [hsubmitted]
    exact hids.sublist (List.filter_sublist.map _)
  · obtain ⟨moves, hbooks, -⟩ := hlaw
    have hall := hbooks.paid.all hnone
    simp only [recovers_eq] at hall
    exact hdone.posted hall

end Run

/-- Submissions under distinct identifiers to a fresh processor over any ledger that
    was last posted no later than the clock shows, of works that can be done. A run
    never raises, and the ledger holds one debit for each work called so far, from the
    time of its call. Every run comes to an end, and then the payments are settled and
    each payment that recovers is debited once, and no other. -/
theorem debits_recovering (clock : VirtualClock) (capacity : Int)
    (queue : AttemptQueue (DeadLetterWork PostingWork) (DeadLetterWork PostingWork) Empty)
    (hnew : PaymentQueue.new (EventScheduler.new clock) capacity = .ok queue)
    (maximumRetries retryDelay : Int) (engine : DeadLetterProcessor PostingWork Empty)
    (hengine : new queue DeadLetterQueue.new maximumRetries retryDelay = .ok engine)
    (rows : List (DeadLetterRow PostingWork)) (hids : (rows.map (·.paymentId)).Nodup)
    (start : Ledger) (hwf : start.WellFormed) (hlast : start.lastPostedAt ≤ clock.time)
    (hworks : Debitable start ((rows.filter DeadLetterRow.accepted).map (·.work))) :
    (∀ rounds, ∃ ended t,
      (runPosting rounds).run (Watched.given submitRow queueOf engine rows, start) = .ok ended t ∧
      Debited start t.1.invoked (t.1.now queueOf) t.2) ∧
    ∃ t enough, (∀ rounds, enough ≤ rounds →
        (runPosting rounds).run (Watched.given submitRow queueOf engine rows, start)
          = .ok true t) ∧
      Settled maximumRetries.toNat (rows.filter DeadLetterRow.accepted) t.1 ∧
      DebitedOnce start (((rows.filter DeadLetterRow.accepted).filter fun row =>
        !Fails maximumRetries.toNat row).map (·.work)) t.2 := by
  obtain ⟨hruns, t, enough, hends, hsettled, hposted⟩ := run_posting clock capacity queue hnew
    maximumRetries retryDelay engine hengine rows start hwf hlast hworks
  exact ⟨hruns, t, enough, hends, hsettled hids, hposted⟩

/-- The payments of `run_dead_letter_scenario`. -/
def scenarioRows : List (DeadLetterRow PostingWork) :=
  [{ paymentId := "PAY-SUCCESS-001", requestId := "REQ-001",
      work := deadLetterPost "PAY-SUCCESS-001" 10_000 },
    { paymentId := "PAY-EXHAUSTED", requestId := "REQ-002",
      work := deadLetterPost "PAY-EXHAUSTED" 20_000
      failures := List.replicate 3 "processor unavailable", originalState := .processing },
    { paymentId := "PAY-INVALID-WORKFLOW", requestId := "REQ-003",
      work := deadLetterPost "PAY-INVALID-WORKFLOW" 30_000
      permanentReason := some .invalidWorkflowState, originalState := .received
      diagnostic := some "PaymentCompleted arrived before PaymentValidated" },
    { paymentId := "PAY-STALE-EVENT", requestId := "REQ-004",
      work := deadLetterPost "PAY-STALE-EVENT" 40_000
      permanentReason := some .staleEvent, originalState := .completed
      diagnostic := some "Event revision is older than completed payment state" },
    { paymentId := "PAY-SUCCESS-002", requestId := "REQ-005",
      work := deadLetterPost "PAY-SUCCESS-002" 5_000 }]

theorem debits_recovering_scenario :
    ∃ rounds t, (runPosting rounds).run (Watched.given submitRow queueOf
          (⟨oneAMinute _ _, .new, 2, 2, [], [], 0, numeral_pos passes⟩) scenarioRows,
            fundedWith 100_000) = .ok true t ∧
      replay t.2.entries = .ok 85_000 ∧ t.1.engine.statistics.activeQueueSize = 0 := by
  have hworks : Debitable (fundedWith 100_000)
      ((scenarioRows.filter DeadLetterRow.accepted).map (·.work)) :=
    ⟨by decide, by decide, by decide⟩
  obtain ⟨-, t, enough, hends, hsettled, hposted⟩ := debits_recovering ⟨0, by decide⟩ 1
    (oneAMinute _ _) rfl 2 2 _ rfl scenarioRows (by decide) (fundedWith 100_000)
    (fundedWith_wellFormed _ _) (by decide) hworks
  obtain ⟨-, -, -, hactive⟩ := hsettled
  exact ⟨enough, t, hends enough (le_refl _), hposted.replay, hactive⟩

end DeadLetterProcessor

namespace RetryScheduler

/-- Run what is on the scheduler of a retry scheduler whose works post to a ledger. -/
def runPosting (rounds : Nat) : Action (Observed PostingWork Empty × Ledger) Bool :=
  EventScheduler.run ((Component.first.comp (Watched.engineOf.comp queueOf)).comp schedulerOf)
    (call (Component.first.comp Watched.engineOf)
      (Watched.perform queueOf Component.first (serve queueOf PostingWork.perform)) Empty.elim)
    rounds

/-- What is measured of payments that are all done with is known from their scripts. -/
structure Measured (policy : RetryPolicy) (rows : List (RetryRow PostingWork))
    (statistics : RetryStatistics) : Prop where
  totalPayments : statistics.totalPayments = rows.length
  totalRetries : statistics.totalRetries
    = (rows.map fun row => min row.failureScript.length policy.maximumRetries).sum
  successfulRecoveries : statistics.successfulRecoveries = rows.countP fun row =>
    0 < row.failureScript.length ∧ row.failureScript.length ≤ policy.maximumRetries
  permanentFailures : statistics.permanentFailures = rows.countP fun row =>
    policy.maximumRetries < row.failureScript.length
  averageAttempts : statistics.averageAttemptsHundredths
    = (statistics.totalRetries + statistics.totalPayments) * 100 / statistics.totalPayments
  maximumAttempts : statistics.maximumAttempts = (rows.map fun row =>
    min row.failureScript.length policy.maximumRetries + 1).foldl max 0
  retryQueueSize : statistics.retryQueueSize = 0

theorem Settled.measured {policy : RetryPolicy} {rows : List (RetryRow PostingWork)}
    {self : Observed PostingWork Empty} (h : Settled policy rows self)
    (hpending : self.engine.pendingRetries = 0) : Measured policy rows self.engine.statistics := by
  obtain ⟨hpayments, -, -⟩ := h
  have hlength : self.engine.payments.length = rows.length := by rw [hpayments, List.length_map]
  -- Every payment makes an attempt, and one more for each failure with a retry left.
  have hattempts : (self.engine.payments.map (·.attempts)).sum
      = (rows.map fun row => min row.failureScript.length policy.maximumRetries).sum
        + rows.length := by
    rw [hpayments, List.map_map]
    clear hpayments hlength
    induction rows with
    | nil => rfl
    | cons row rows ih =>
        simp only [List.map_cons, List.sum_cons, List.length_cons, Function.comp_apply] at ih ⊢
        omega
  have hretries : (self.engine.payments.map fun payment => payment.attempts - 1).sum
      = (rows.map fun row => min row.failureScript.length policy.maximumRetries).sum := by
    rw [hpayments, List.map_map]
    rfl
  have hrecoveries : (self.engine.payments.countP fun payment =>
      1 < payment.attempts && payment.finalOutcome = some .succeeded)
      = rows.countP fun row => decide (0 < row.failureScript.length ∧
        row.failureScript.length ≤ policy.maximumRetries) := by
    rw [hpayments, List.countP_map]
    refine List.countP_congr fun row _ => ?_
    by_cases hle : row.failureScript.length ≤ policy.maximumRetries
    · simp [hle]
    · simp [hle]
  refine
    { totalPayments := hlength
      totalRetries := hretries
      successfulRecoveries := hrecoveries
      permanentFailures := ?_
      averageAttempts := ?_
      maximumAttempts := ?_
      retryQueueSize := hpending }
  · change self.engine.payments.countP _ = _
    rw [hpayments, List.countP_map]
    refine List.countP_congr fun row _ => ?_
    by_cases hle : row.failureScript.length ≤ policy.maximumRetries
    · simp [hle]
    · simp [hle, Nat.lt_of_not_le hle]
  · change (if self.engine.payments.length = 0 then 0 else _ * 100 / _)
      = ((self.engine.payments.map fun payment => payment.attempts - 1).sum
        + self.engine.payments.length) * 100 / self.engine.payments.length
    rw [hattempts, hretries, hlength]
    split_ifs with hempty
    · rw [hempty, Nat.div_zero]
    · rfl
  · change (self.engine.payments.map (·.attempts)).foldl max 0 = _
    rw [hpayments, List.map_map]
    rfl

/-- The same of a retry scheduler, whose statistics are what the scripts say. -/
theorem debits_retried (policy : RetryPolicy) (clock : VirtualClock) (capacity : Int)
    (queue : AttemptQueue (RetryWork PostingWork) (RetryTimer PostingWork) Empty)
    (hnew : PaymentQueue.new (EventScheduler.new clock) capacity = .ok queue)
    (rows : List (RetryRow PostingWork)) (hids : (rows.map (·.paymentId)).Nodup)
    (start : Ledger) (hwf : start.WellFormed) (hlast : start.lastPostedAt ≤ clock.time)
    (hworks : Debitable start ((rows.filter RetryRow.accepted).map (·.work))) :
    (∀ rounds, ∃ ended t,
      (runPosting rounds).run (Watched.given submitRow queueOf (new queue policy) rows, start)
        = .ok ended t ∧
      Debited start t.1.invoked (t.1.now queueOf) t.2) ∧
    ∃ t enough, (∀ rounds, enough ≤ rounds →
        (runPosting rounds).run (Watched.given submitRow queueOf (new queue policy) rows, start)
          = .ok true t) ∧
      Settled policy (rows.filter RetryRow.accepted) t.1 ∧
      Measured policy (rows.filter RetryRow.accepted) t.1.engine.statistics ∧
      DebitedOnce start (((rows.filter RetryRow.accepted).filter fun row =>
        row.failureScript.length ≤ policy.maximumRetries).map (·.work)) t.2 := by
  obtain ⟨hruns, t, enough, left, hends, hlaw, hnone, hsubmitted, -, hqueue, hdone⟩ :=
    (lawful policy Component.first (serve queueOf PostingWork.perform)).run_serving_given
      (fun hlaw => hlaw.books.paid) (serves start) Empty.elim (between_new True clock hnew)
      (law_new policy clock hnew) rows start (debited_new hwf hlast hnew) hworks
  replace hsubmitted : t.1.submitted = rows.filter RetryRow.accepted := hsubmitted
  have hsettled : Settled policy t.1.submitted t.1 := by
    refine hlaw.settled hnone ?_
    rw [hsubmitted]
    exact hids.sublist (List.filter_sublist.map _)
  -- Nothing is on the queue, so no retry is pending.
  have hpending : t.1.engine.pendingRetries = 0 := by
    have htimers : t.1.engine.queue.pendingTimers = 0 := by
      unfold PaymentQueue.pendingTimers
      rw [show t.1.engine.queue.scheduler.queue = [] from hqueue]
      rfl
    rw [hlaw.pending, htimers]
    rfl
  refine ⟨hruns, t, enough, hends, ?_, ?_, ?_⟩
  all_goals rw [← hsubmitted]
  · exact hsettled
  · exact hsettled.measured hpending
  · exact hdone.posted (hlaw.books.paid.all hnone)

/-- The payments of `run_retry_scenario`. -/
def scenarioRows : List (RetryRow PostingWork) :=
  [⟨"PAY-IMMEDIATE", [], retryPost "PAY-IMMEDIATE"⟩,
    ⟨"PAY-ONE-RETRY", ["processor unavailable"], retryPost "PAY-ONE-RETRY"⟩,
    ⟨"PAY-MULTIPLE", ["connection reset", "processor unavailable"], retryPost "PAY-MULTIPLE"⟩,
    ⟨"PAY-EXHAUSTED", List.replicate 4 "service unavailable", retryPost "PAY-EXHAUSTED"⟩]

theorem debits_retried_scenario :
    ∃ rounds t, (runPosting rounds).run (Watched.given submitRow queueOf
          (new (oneAMinute _ _)) scenarioRows, fundedWith 10_000) = .ok true t ∧
      replay t.2.entries = .ok 9_700 ∧
      t.1.engine.statistics.totalRetries = 6 ∧
      t.1.engine.statistics.successfulRecoveries = 2 := by
  have hworks : Debitable (fundedWith 10_000)
      ((scenarioRows.filter RetryRow.accepted).map (·.work)) :=
    ⟨by decide, by decide, by decide⟩
  obtain ⟨-, t, enough, hends, -, hmeasured, hposted⟩ := debits_retried {} ⟨0, by decide⟩ 1
    (oneAMinute _ _) rfl scenarioRows (by decide) (fundedWith 10_000)
    (fundedWith_wellFormed _ _) (by decide) hworks
  exact ⟨enough, t, hends enough (le_refl _), hposted.replay, hmeasured.totalRetries,
    hmeasured.successfulRecoveries⟩

end RetryScheduler

end BankSim
