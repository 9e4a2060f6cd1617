import BankSim.Theory.Agreement
import BankSim.Theory.DeadLetterOutcomes
import BankSim.Theory.Retries

/-!
# The Two Engines Agree

The retry scheduler counts attempts and asks how many retries remain. The
dead-letter processor counts retries and asks whether there were enough. Both are
lawful, and for submissions without a permanent reason their terms are the same.
So they agree.

## Main definitions

* `Submission`: What either engine can be given.
* `SameFate`: What both have made of a payment.

## Theorems

* `Submission.sameTerms`: The engines make the same of a submission.
* `sameFates`: Payments with the same attempts left have the same fate.
* `engines_agree`: The two engines agree.
-/

namespace BankSim

open Exec PaymentQueue Places

/-- A submission that either engine can be given. It has no permanent reason, and
    the request identifier that only one of them asks for is not blank. -/
@[ext]
structure Submission (ω : Type) where
  paymentId : String
  failures : List String
  work : ω
  requestId : String
  originalState : WorkflowState
  diagnostic : Option String
  requestId_visible : isBlank requestId = false

instance {ω : Type} [DecidableEq ω] : DecidableEq (Submission ω) :=
  fun _ _ => decidable_of_iff _ Submission.ext_iff.symm

namespace Submission

variable {ω : Type}

/-- As the retry scheduler gets it. -/
def retryRow (row : Submission ω) : RetryRow ω where
  paymentId := row.paymentId
  failureScript := row.failures
  work := row.work

/-- As the dead-letter processor gets it. -/
def deadLetterRow (row : Submission ω) : DeadLetterRow ω where
  paymentId := row.paymentId
  requestId := row.requestId
  work := row.work
  failures := row.failures
  originalState := row.originalState
  diagnostic := row.diagnostic

/-- The engines make the same of a submission. -/
theorem sameTerms (policy : RetryPolicy) :
    SameTerms retryRow deadLetterRow (RetryScheduler.terms policy)
      (DeadLetterProcessor.terms policy.maximumRetries : Terms (DeadLetterRow ω) ω) where
  accepted row := by
    change (!isBlank row.paymentId && !row.failures.any isBlank)
      = (!(isBlank row.paymentId || isBlank row.requestId) && !row.failures.any isBlank)
    rw [row.requestId_visible, Bool.or_false]
  paymentId _ := rfl
  work _ := rfl
  total _ := rfl
  recovers row := (Bool.true_and _).symm

end Submission

variable {ω ξ ρ : Type}

/-- A client and a retry scheduler, after some steps. -/
def RetryScheduler.ran (client : Client (Submission ω) ω ξ ρ)
    (s : RetryScheduler.Observed ω ξ × ρ) (steps : List (ClientStep (Submission ω) ξ)) :
    RetryScheduler.Observed ω ξ × ρ :=
  finalState (ClientStep.exec Submission.retryRow RetryScheduler.submitRow RetryScheduler.queueOf
    client (RetryScheduler.attempt (Component.first.comp Watched.engineOf)
      (Watched.perform RetryScheduler.queueOf Component.first fun work =>
        Client.call Submission.retryRow RetryScheduler.submitRow RetryScheduler.queueOf
          (client.perform work)))
    RetryScheduler.retry) s steps

/-- The same client and a dead-letter processor. -/
def DeadLetterProcessor.ranFor (client : Client (Submission ω) ω ξ ρ)
    (s : DeadLetterProcessor.Observed ω ξ × ρ) (steps : List (ClientStep (Submission ω) ξ)) :
    DeadLetterProcessor.Observed ω ξ × ρ :=
  finalState (ClientStep.exec Submission.deadLetterRow DeadLetterProcessor.submitRow
    DeadLetterProcessor.queueOf client
    (DeadLetterProcessor.attempt (Component.first.comp Watched.engineOf)
      (Watched.perform DeadLetterProcessor.queueOf Component.first fun work =>
        Client.call Submission.deadLetterRow DeadLetterProcessor.submitRow
          DeadLetterProcessor.queueOf (client.perform work)))
    DeadLetterProcessor.retry) s steps

/-- Both engines have made the same of a payment. -/
structure SameFate (entries : List DeadLetterEntry) (payment : RetryPayment)
    (other : DeadLetterPayment) : Prop where
  paymentId : payment.paymentId = other.paymentId
  attempts : payment.attempts = other.attempts
  succeeded : payment.finalOutcome = some .succeeded ↔ other.completed = true
  failed : payment.finalOutcome = some .permanentlyFailed ↔ other.isolated = true ∧
    ∃ entry ∈ entries, entry.paymentId = other.paymentId ∧ entry.reason = .retryLimitExceeded

/-- A payment with so many attempts left, which is isolated if and only if it has
    failed for good. -/
theorem sameFate_after (policy : RetryPolicy) (row : Submission ω) {left : Nat} {isolated : Bool}
    {entries : List DeadLetterEntry}
    (hisolated : isolated = true ↔ left = 0 ∧ row.retryRow.recovers policy = false)
    (hentry : isolated = true → ∃ entry ∈ entries, entry.paymentId = row.paymentId ∧
      entry.reason = .retryLimitExceeded) :
    SameFate entries (row.retryRow.after policy left false)
      (row.deadLetterRow.after policy.maximumRetries left false isolated) where
  paymentId := rfl
  attempts := rfl
  succeeded := by
    have hrecovers : row.deadLetterRow.recovers policy.maximumRetries
        = row.retryRow.recovers policy := Bool.true_and _
    unfold RetryRow.after DeadLetterRow.after RetryRow.outcome
    rw [hrecovers]
    by_cases hleft : 0 < left
    · simp [hleft, Nat.pos_iff_ne_zero.mp hleft]
    · cases hsucceeds : row.retryRow.recovers policy <;> simp [Nat.eq_zero_of_not_pos hleft]
  failed := by
    have hfailed : (row.retryRow.after policy left false).finalOutcome = some .permanentlyFailed ↔
        isolated = true := by
      rw [hisolated]
      unfold RetryRow.after RetryRow.outcome
      by_cases hleft : 0 < left
      · simp [hleft, Nat.pos_iff_ne_zero.mp hleft]
      · cases hsucceeds : row.retryRow.recovers policy <;> simp [Nat.eq_zero_of_not_pos hleft]
    rw [hfailed]
    exact ⟨fun hmarked => ⟨hmarked, hentry hmarked⟩, fun hmarked => hmarked.1⟩

/-- What lawful engines with the same attempts left have made of the payments. -/
theorem sameFates {policy : RetryPolicy} {delay : Int} {left : Nat → Nat}
    {rows : List (Submission ω)} {self : RetryScheduler.Observed ω ξ}
    {other : DeadLetterProcessor.Observed ω ξ} (hlaw : RetryScheduler.Law policy .free left self)
    (hlaw' : DeadLetterProcessor.Law policy.maximumRetries delay [] .free left other)
    (hrows : self.submitted = rows.map Submission.retryRow)
    (hrows' : other.submitted = rows.map Submission.deadLetterRow)
    (hids : (self.submitted.map (·.paymentId)).Nodup) :
    List.Forall₂ (SameFate other.engine.deadLetters.entries) self.engine.payments
      other.engine.payments := by
  rcases hlaw' with ⟨moves, hbooks, hmoves, -, -⟩
  have hids' : (other.submitted.map (·.paymentId)).Nodup := by
    rw [hrows', List.map_map]
    rw [hrows, List.map_map] at hids
    exact hids
  refine List.forall₂_iff_get.mpr ⟨?_, fun i hi hi' => ?_⟩
  · rw [hlaw.books.length, hbooks.length, hrows, hrows', List.length_map, List.length_map]
  · have hpayment := hlaw.books.payments i
    have hpayment' := hbooks.payments i
    rw [List.getElem?_eq_getElem hi, hrows, List.getElem?_map] at hpayment
    rw [List.getElem?_eq_getElem hi', hrows', List.getElem?_map] at hpayment'
    cases hrow : rows[i]? with
    | none =>
        rw [hrow] at hpayment
        cases hpayment
    | some row =>
        rw [hrow] at hpayment hpayment'
        have hfound : other.submitted[i]? = some row.deadLetterRow := by
          rw [hrows', List.getElem?_map, hrow]
          rfl
        simp only [List.get_eq_getElem]
        rw [Option.some.inj hpayment, Option.some.inj hpayment']
        have hrecovers : row.deadLetterRow.recovers policy.maximumRetries
            = row.retryRow.recovers policy := Bool.true_and _
        refine sameFate_after policy row ?_ fun hmarked => ?_
        · rw [decide_eq_true_iff, ← hrecovers]
          constructor
          · intro hmem
            rcases hmoves.failed i hmem with ⟨hdone, failed, hfailed, hfails⟩
            cases hfound.symm.trans hfailed
            exact ⟨hdone, hfails⟩
          · rintro ⟨hdone, hfails⟩
            exact hmoves.mem_of_failed (hids'.sublist (List.filter_sublist.map _)) hfound hdone
              ((DeadLetterProcessor.fails_iff _ _).mpr hfails)
        · -- Its entry was made when it was isolated.
          rcases List.mem_map.mp (of_decide_eq_true hmarked) with ⟨move, hmove, rfl⟩
          refine ⟨row.deadLetterRow.entryAt policy.maximumRetries move.2, ?_, rfl, rfl⟩
          rw [hmoves.entries, List.nil_append]
          exact List.mem_filterMap.mpr ⟨move, hmove, by rw [hfound]; rfl⟩

/-- The two retry engines agree. The client is any program that does not raise: a
    work or a callback may submit more, and put callbacks on the scheduler, according
    to the time, its memory and what was granted before. After any steps both
    engines have called the same works at the same times, the client cannot tell them
    apart, and if no two payments share an identifier then each payment has made as
    many attempts with both, has succeeded with one if it is completed with the other,
    and has failed permanently with one if it is isolated with the other. -/
theorem engines_agree (client : Client (Submission ω) ω ξ ρ) (clock : VirtualClock)
    (capacity : Int) (queue : AttemptQueue (RetryWork ω) (RetryTimer ω) ξ)
    (hnew : PaymentQueue.new (EventScheduler.new clock) capacity = .ok queue)
    (queue' : AttemptQueue (DeadLetterWork ω) (DeadLetterWork ω) ξ)
    (hnew' : PaymentQueue.new (EventScheduler.new clock) capacity = .ok queue')
    (maximumRetries retryDelay : Int) (policy : RetryPolicy)
    (hpolicy : RetryPolicy.new maximumRetries retryDelay = .ok policy)
    (engine : DeadLetterProcessor ω ξ)
    (hengine : DeadLetterProcessor.new queue' DeadLetterQueue.new maximumRetries retryDelay
      = .ok engine)
    (memory : ρ) (steps : List (ClientStep (Submission ω) ξ)) :
    let s := RetryScheduler.ran client (Watched.new (RetryScheduler.new queue policy), memory) steps
    let t := DeadLetterProcessor.ranFor client (Watched.new engine, memory) steps
    s.1.invoked = t.1.invoked ∧ s.2 = t.2 ∧
      (∃ rows : List (Submission ω), s.1.submitted = rows.map Submission.retryRow ∧
        t.1.submitted = rows.map Submission.deadLetterRow) ∧
      ((s.1.submitted.map (·.paymentId)).Nodup →
        List.Forall₂ (SameFate t.1.engine.deadLetters.entries) s.1.engine.payments
          t.1.engine.payments) := by
  intro s t
  rcases DeadLetterProcessor.new_ok hengine with ⟨limit, hdelay, rfl, hlimit⟩
  -- Both were given the same limit and the same delay.
  obtain rfl : policy = ⟨limit, retryDelay, hdelay⟩ := by
    subst hlimit
    unfold RetryPolicy.new at hpolicy
    rw [if_neg (by omega), dif_neg (by omega)] at hpolicy
    cases hpolicy
    rfl
  have hstart : AgreeBetween Submission.retryRow Submission.deadLetterRow RetryScheduler.queueOf
      DeadLetterProcessor.queueOf (RetryScheduler.Law ⟨limit, retryDelay, hdelay⟩)
      (DeadLetterProcessor.Law limit retryDelay [])
      (Watched.new (RetryScheduler.new queue ⟨limit, retryDelay, hdelay⟩), memory)
      (Watched.new ⟨queue', .new, limit, retryDelay, [], [], 0, hdelay⟩, memory) := by
    refine ⟨between_new True clock hnew, between_new True clock hnew', fun _ => 0, [],
      RetryScheduler.law_new _ clock hnew,
      DeadLetterProcessor.law_new limit hdelay DeadLetterQueue.new clock hnew', rfl, rfl, rfl,
      outline_new hnew hnew', rfl⟩
  rcases agree_steps (RetryScheduler.lawful _ _ _)
    (DeadLetterProcessor.lawful limit hdelay [] _ _) (Submission.sameTerms _) hstart steps with
    ⟨-, -, left, rows, hagree⟩
  exact ⟨hagree.invoked, hagree.memory, ⟨rows, hagree.submitted, hagree.submitted'⟩,
    fun hids => sameFates hagree.law hagree.law' hagree.submitted hagree.submitted' hids⟩

/-- A client whose works count how often they are called. -/
def counting : Client (Submission String) String Empty Nat where
  perform _ _ memory := .done (memory + 1)
  other callback := callback.elim

/-- A payment that recovers and one that does not, with one retry allowed. -/
def recoversAndFails : List (ClientStep (Submission String) Empty) :=
  [.ask (.submit ⟨"PAY-1", ["timeout"], "post 1", "REQ-1", .validated, none, by decide⟩),
    .ask (.submit ⟨"PAY-2", ["timeout", "timeout"], "post 2", "REQ-2", .validated, none,
      by decide⟩)] ++ List.replicate 8 .runNext

theorem engines_agree_recoversAndFails :
    ∃ s t, s = RetryScheduler.ran counting
        (Watched.new (RetryScheduler.new (oneAMinute _ _) ⟨1, 2, by decide⟩), 0) recoversAndFails ∧
      t = DeadLetterProcessor.ranFor counting
        (Watched.new ⟨oneAMinute _ _, .new, 1, 2, [], [], 0, by decide⟩, 0) recoversAndFails ∧
      s.1.invoked = [("post 1", 4)] ∧ s.1.invoked = t.1.invoked ∧ s.2 = t.2 ∧
      List.Forall₂ (SameFate t.1.engine.deadLetters.entries) s.1.engine.payments
        t.1.engine.payments := by
  rcases engines_agree counting ⟨0, by decide⟩ 1 (oneAMinute _ _) rfl (oneAMinute _ _) rfl 1 2
    ⟨1, 2, by decide⟩ rfl ⟨oneAMinute _ _, .new, 1, 2, [], [], 0, by decide⟩ rfl 0 recoversAndFails
    with ⟨hinvoked, hmemory, -, hfates⟩
  exact ⟨_, _, rfl, rfl, by decide +kernel, hinvoked, hmemory, hfates (by decide +kernel)⟩

end BankSim
