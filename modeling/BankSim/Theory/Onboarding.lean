import BankSim.Library.Journal
import BankSim.Theory.ApplicationWorkflow

/-!
# Onboarding

What the operations of an application do over whole runs, refused calls caught.

`journalled` is the connection to the code: an operation is accepted exactly
when the history it leaves is a workflow of the region. That needs the fields
of the application to agree with its history, so the invariant of the argument
is that they are what `readHistory` makes of it. Both results on whole runs
follow from the general rule for machines with a journal: which histories
occur, and what can still happen to an application at any point of its life.

## Main definitions

* `Allowed`, `writes`: When a call is accepted and what it writes.
* `recorded`: The application with a fact recorded.
* `Told`: The fields agree with the history.

## Theorems

* `exec_of_allowed`, `exec_of_refused`: What one call does.
* `journalled`: An application keeps a journal.
* `history_iff`: The histories of applications, and what they say.
* `decided_finalState`: A decision is never changed.
* `prospects`: What can still happen to an application.
-/

namespace BankSim

namespace MemberApplication

open Exec

def facts (self : MemberApplication) : List Fact :=
  self.history.map fun record => (record.event, record.detail)

/-- The records carry the numbers 1, 2 and so on. -/
def Numbered (history : List TransitionRecord) : Prop :=
  history.map (·.sequence) = List.range' 1 history.length

def view (self : MemberApplication) : View :=
  ⟨self.status, self.eligibilityStatus, self.identityVerificationStatus, self.rejectionReason⟩

/-! ### What a call does -/

/-- The fact a call records when it is allowed, if it ever is. -/
def writes (region : String) : Call → Option Fact
  | .submit => some submitted
  | .beginReview => some reviewStarted
  | .evaluateEligibility => some (evaluated region)
  | .recordIdentityVerification .notStarted => none
  | .recordIdentityVerification .passed => some passed
  | .recordIdentityVerification .failed => some failed
  | .approve => some approved
  | .reject none => none
  | .reject (some reason) => some (rejected reason)

/-- The call that recorded a fact. -/
def callOf : Fact → Option Call
  | (.created, _) => none
  | (.submitted, _) => some .submit
  | (.reviewStarted, _) => some .beginReview
  | (.eligibilityEvaluated, _) => some .evaluateEligibility
  | (.identityVerificationRecorded, detail) =>
      some (.recordIdentityVerification
        (if detail = IdentityVerificationStatus.passed.value then .passed else .failed))
  | (.approved, _) => some .approve
  | (.rejected, detail) => some (.reject (reasons.find? fun reason => reason.value = detail))

/-- A call is known by the fact it records. -/
theorem callOf_of_writes {region : String} {c : Call} {fact : Fact}
    (h : writes region c = some fact) : callOf fact = some c := by
  cases c with
  | submit | beginReview | evaluateEligibility | approve =>
      cases h
      rfl
  | recordIdentityVerification result =>
      cases result <;> cases h <;> rfl
  | reject reason =>
      cases reason with
      | none => cases h
      | some reason =>
          cases h
          simp only [callOf, rejected, find_reason]

/-- When a call is accepted. -/
def Allowed (view : View) : Call → Prop
  | .submit => view.status = .draft
  | .beginReview => view.status = .submitted
  | .evaluateEligibility => view.status = .underReview ∧ view.eligibilityStatus = .notEvaluated
  | .recordIdentityVerification result =>
      view.status = .underReview ∧ result ≠ .notStarted ∧
        view.identityVerificationStatus = .notStarted
  | .approve =>
      view.status = .underReview ∧ view.eligibilityStatus = .eligible ∧
        view.identityVerificationStatus = .passed
  | .reject none => False
  | .reject (some reason) =>
      view.status = .underReview ∧
        (reason = .ineligible → view.eligibilityStatus = .ineligible) ∧
        (reason = .identityVerificationFailed → view.identityVerificationStatus = .failed)

/-- A call is accepted exactly when its fact may come next. -/
theorem next_iff_allowed {region : String} {view : View} {c : Call} {fact : Fact}
    (hwrites : writes region c = some fact) : Next region view fact ↔ Allowed view c := by
  constructor
  · intro hnext
    -- A fact is of one call only, which is found again from it.
    have hcall := callOf_of_writes hwrites
    cases hnext with
    | submitted hstatus =>
        obtain rfl := Option.some.inj hcall
        exact hstatus
    | reviewStarted hstatus =>
        obtain rfl := Option.some.inj hcall
        exact hstatus
    | evaluated hstatus hnew =>
        obtain rfl := Option.some.inj hcall
        exact ⟨hstatus, hnew⟩
    | passed hstatus hnew =>
        obtain rfl := Option.some.inj hcall
        exact ⟨hstatus, nofun, hnew⟩
    | failed hstatus hnew =>
        obtain rfl := Option.some.inj hcall
        exact ⟨hstatus, nofun, hnew⟩
    | approved hstatus heligible hpassed =>
        obtain rfl := Option.some.inj hcall
        exact ⟨hstatus, heligible, hpassed⟩
    | rejected hstatus reason hineligible hfailed =>
        simp only [callOf, rejected, find_reason, Option.some.injEq] at hcall
        subst hcall
        exact ⟨hstatus, hineligible, hfailed⟩
  · intro hallowed
    cases c with
    | submit =>
        cases hwrites
        exact .submitted hallowed
    | beginReview =>
        cases hwrites
        exact .reviewStarted hallowed
    | evaluateEligibility =>
        cases hwrites
        exact .evaluated hallowed.1 hallowed.2
    | recordIdentityVerification result =>
        cases result with
        | notStarted => exact absurd rfl hallowed.2.1
        | passed =>
            cases hwrites
            exact .passed hallowed.1 hallowed.2.2
        | failed =>
            cases hwrites
            exact .failed hallowed.1 hallowed.2.2
    | approve =>
        cases hwrites
        exact .approved hallowed.1 hallowed.2.1 hallowed.2.2
    | reject reason =>
        cases reason with
        | none => exact hallowed.elim
        | some reason =>
            cases hwrites
            exact .rejected hallowed.1 reason hallowed.2.1 hallowed.2.2

/-- The application with a fact recorded and its fields changed accordingly. -/
def recorded (self : MemberApplication) (fact : Fact) : MemberApplication :=
  { self with
    status := (self.view.read fact).status
    eligibilityStatus := (self.view.read fact).eligibilityStatus
    identityVerificationStatus := (self.view.read fact).identityVerificationStatus
    rejectionReason := (self.view.read fact).rejectionReason
    history := self.history ++ [⟨self.history.length + 1, fact.1, fact.2⟩] }

theorem recorded_view (self : MemberApplication) (fact : Fact) :
    (self.recorded fact).view = self.view.read fact := rfl

theorem recorded_facts (self : MemberApplication) (fact : Fact) :
    (self.recorded fact).facts = self.facts ++ [fact] :=
  List.map_append

theorem requireStatus_run (self : MemberApplication) (expected : ApplicationStatus)
    (operation : String) :
    (requireStatus expected operation).run self =
      if self.status = expected then .ok () self
      else .error (.invalidTransition
        ("cannot " ++ operation ++ " application while status is " ++ self.status.value)) self := by
  unfold requireStatus
  rw [run_bind_get]
  by_cases h : self.status = expected
  · rw [if_neg (not_not.mpr h), if_pos h]
    rfl
  · rw [if_pos h, if_neg h]
    rfl

/-- A call whose status check passes goes on from the same state. -/
theorem run_of_status {α : Type} {self : MemberApplication} {expected : ApplicationStatus}
    {operation : String} {rest : Unit → EStateM ApplicationError MemberApplication α}
    (h : self.status = expected) :
    (requireStatus expected operation >>= rest).run self = (rest ()).run self :=
  run_bind_of_ok (by rw [requireStatus_run, if_pos h])

/-- A call whose status check fails is refused. -/
theorem refused_of_status {α : Type} {self : MemberApplication} {expected : ApplicationStatus}
    {operation : String} {rest : Unit → EStateM ApplicationError MemberApplication α}
    (h : self.status ≠ expected) :
    ∃ e, (requireStatus expected operation >>= rest).run self = .error e self :=
  ⟨_, run_bind_of_error (by rw [requireStatus_run, if_neg h])⟩

/-- An accepted call records its fact. -/
theorem exec_of_allowed {self : MemberApplication} {c : Call} {fact : Fact}
    (hallowed : Allowed self.view c) (hwrites : writes self.residentialRegion c = some fact) :
    (exec c).run self = .ok () (self.recorded fact) := by
  cases c with
  | submit =>
      cases hwrites
      exact run_of_status hallowed
  | beginReview =>
      cases hwrites
      exact run_of_status hallowed
  | evaluateEligibility =>
      cases hwrites
      have hnew : self.eligibilityStatus = .notEvaluated := hallowed.2
      refine run_bind_of_ok (a := eligibilityOf self.residentialRegion) ?_
      rw [evaluateEligibility, run_of_status hallowed.1]
      simp only [run_bind_get, if_neg (not_not.mpr hnew), recorded, View.read_evaluated]
      rfl
  | recordIdentityVerification result =>
      have hnew : self.identityVerificationStatus = .notStarted := hallowed.2.2
      rw [exec, recordIdentityVerification, run_of_status hallowed.1]
      simp only [if_neg hallowed.2.1, run_bind_get, if_neg (not_not.mpr hnew)]
      cases result with
      | notStarted => exact absurd rfl hallowed.2.1
      | passed =>
          cases hwrites
          rfl
      | failed =>
          cases hwrites
          rfl
  | approve =>
      cases hwrites
      have heligible : self.eligibilityStatus = .eligible := hallowed.2.1
      have hpassed : self.identityVerificationStatus = .passed := hallowed.2.2
      rw [exec, approve, run_of_status hallowed.1]
      simp only [run_bind_get, if_neg (not_not.mpr heligible), if_neg (not_not.mpr hpassed)]
      rfl
  | reject reason =>
      cases reason with
      | none => exact hallowed.elim
      | some reason =>
          cases hwrites
          obtain ⟨hstatus, hineligible, hfailed⟩ := hallowed
          -- Both conditions on the reason were checked, so neither refusal applies.
          have hfirst : ¬ (reason = .ineligible ∧ self.eligibilityStatus ≠ .ineligible) :=
            fun h => h.2 (hineligible h.1)
          have hsecond : ¬ (reason = .identityVerificationFailed ∧
              self.identityVerificationStatus ≠ .failed) :=
            fun h => h.2 (hfailed h.1)
          rw [exec, reject, run_of_status hstatus]
          simp only [run_bind_get, if_neg hfirst, if_neg hsecond, recorded, View.read_rejected]
          rfl

/-- A call that is not accepted raises and changes nothing. -/
theorem exec_of_refused {self : MemberApplication} {c : Call} (h : ¬ Allowed self.view c) :
    ∃ e, (exec c).run self = .error e self := by
  cases c with
  | submit => exact refused_of_status h
  | beginReview => exact refused_of_status h
  | evaluateEligibility =>
      by_cases hstatus : self.status = .underReview
      · have hdone : self.eligibilityStatus ≠ .notEvaluated := fun hnew => h ⟨hstatus, hnew⟩
        refine ⟨.invalidTransition "eligibility has already been evaluated",
          run_bind_of_error ?_⟩
        rw [evaluateEligibility, run_of_status hstatus]
        simp only [run_bind_get, if_pos hdone]
        rfl
      · obtain ⟨e, he⟩ := refused_of_status hstatus
        exact ⟨e, run_bind_of_error he⟩
  | recordIdentityVerification result =>
      by_cases hstatus : self.status = .underReview
      · rw [exec, recordIdentityVerification, run_of_status hstatus]
        by_cases hresult : result = .notStarted
        · simp only [if_pos hresult]
          exact ⟨_, rfl⟩
        · have hdone : self.identityVerificationStatus ≠ .notStarted :=
            fun hnew => h ⟨hstatus, hresult, hnew⟩
          simp only [if_neg hresult, run_bind_get, if_pos hdone]
          exact ⟨_, rfl⟩
      · exact refused_of_status hstatus
  | approve =>
      by_cases hstatus : self.status = .underReview
      · rw [exec, approve, run_of_status hstatus]
        by_cases heligible : self.eligibilityStatus = .eligible
        · have hidentity : self.identityVerificationStatus ≠ .passed :=
            fun hpassed => h ⟨hstatus, heligible, hpassed⟩
          simp only [run_bind_get, if_neg (not_not.mpr heligible), if_pos hidentity]
          exact ⟨_, rfl⟩
        · simp only [run_bind_get, ne_eq, if_pos heligible]
          exact ⟨_, rfl⟩
      · exact refused_of_status hstatus
  | reject reason =>
      by_cases hstatus : self.status = .underReview
      · cases reason with
        | none => exact ⟨_, run_of_status hstatus⟩
        | some reason =>
            rw [exec, reject, run_of_status hstatus]
            by_cases hineligible : reason = .ineligible ∧ self.eligibilityStatus ≠ .ineligible
            · simp only [run_bind_get, if_pos hineligible]
              exact ⟨_, rfl⟩
            · -- If the first refusal does not apply then the second one does.
              have hfailed : reason = .identityVerificationFailed ∧
                  self.identityVerificationStatus ≠ .failed := by
                by_contra hnot
                exact h ⟨hstatus, fun hreason => by_contra fun hne => hineligible ⟨hreason, hne⟩,
                  fun hreason => by_contra fun hne => hnot ⟨hreason, hne⟩⟩
              simp only [run_bind_get, if_neg hineligible, if_pos hfailed]
              exact ⟨_, rfl⟩
      · exact refused_of_status hstatus

/-- A call is refused, or records its fact. -/
theorem after_exec (application : MemberApplication) (c : Call) :
    after (exec c) application = application ∨
      ∃ fact, Allowed application.view c ∧ writes application.residentialRegion c = some fact ∧
        after (exec c) application = application.recorded fact := by
  by_cases hallowed : Allowed application.view c
  · cases hwrites : writes application.residentialRegion c with
    | none =>
        cases c with
        | recordIdentityVerification result =>
            cases result with
            | notStarted => exact absurd rfl hallowed.2.1
            | _ => cases hwrites
        | reject reason =>
            cases reason with
            | none => exact hallowed.elim
            | some _ => cases hwrites
        | _ => cases hwrites
    | some fact =>
        exact Or.inr ⟨fact, hallowed, rfl, after_of_ok (exec_of_allowed hallowed hwrites)⟩
  · obtain ⟨e, he⟩ := exec_of_refused hallowed
    exact Or.inl (after_of_error he)

/-! ### Applications keep a journal -/

/-- The fields agree with the history, whose records are numbered. -/
structure Told (region : String) (application : MemberApplication) : Prop where
  region_eq : application.residentialRegion = region
  view_eq : application.view = readHistory application.facts
  numbered : Numbered application.history

theorem numbered_snoc {history : List TransitionRecord} (h : Numbered history) (fact : Fact) :
    Numbered (history ++ [⟨history.length + 1, fact.1, fact.2⟩]) := by
  unfold Numbered at h ⊢
  rw [List.map_append, h, List.length_append, List.length_singleton, List.range'_1_concat,
    List.map_singleton, Nat.add_comm 1]

theorem told_recorded {region : String} {application : MemberApplication}
    (h : Told region application)
    (fact : Fact) : Told region (application.recorded fact) := by
  refine ⟨h.region_eq, ?_, numbered_snoc h.numbered fact⟩
  rw [recorded_view, recorded_facts, readHistory_snoc, h.view_eq]

/-- An operation is accepted exactly when the history it leaves is a workflow
    of the region. -/
theorem journalled (region : String) :
    Journalled exec facts (Told region) (writes region) (Workflow region) where
  accepts application c fact htold hworkflow hwrites hmore := by
    have hallowed : Allowed application.view c := by
      rw [← next_iff_allowed hwrites, htold.view_eq]
      exact (workflow_snoc_iff hworkflow fact).mp hmore
    have hrun : (exec c).run application = .ok () (application.recorded fact) :=
      exec_of_allowed hallowed (by rw [htold.region_eq, hwrites])
    rw [after_of_ok hrun]
    exact ⟨told_recorded htold fact, recorded_facts application fact⟩
  refuses application c htold hworkflow hnone := by
    rcases after_exec application c with hsame | ⟨fact, hallowed, hwrites, -⟩
    · exact hsame
    · rw [htold.region_eq] at hwrites
      refine absurd ?_ (hnone fact hwrites)
      rw [workflow_snoc_iff hworkflow, ← htold.view_eq, next_iff_allowed hwrites]
      exact hallowed
  writable facts fact hne hmore := by
    have hnext := (workflow_snoc_iff (workflow_of_snoc facts fact hne hmore) fact).mp hmore
    cases hnext with
    | submitted => exact ⟨.submit, rfl⟩
    | reviewStarted => exact ⟨.beginReview, rfl⟩
    | evaluated => exact ⟨.evaluateEligibility, rfl⟩
    | passed => exact ⟨.recordIdentityVerification .passed, rfl⟩
    | failed => exact ⟨.recordIdentityVerification .failed, rfl⟩
    | approved => exact ⟨.approve, rfl⟩
    | rejected _ reason => exact ⟨.reject (some reason), rfl⟩

/-- What the constructor makes is an application at the start of its workflow. -/
theorem told_new {applicationId applicantName residentialRegion : String}
    {application : MemberApplication}
    (h : new applicationId applicantName residentialRegion = .ok application) :
    Told application.residentialRegion application ∧ application.facts = [created] := by
  simp only [new, bind, Except.bind] at h
  split at h
  · cases h
  split at h
  · cases h
  split at h
  · cases h
  cases h
  exact ⟨⟨rfl, rfl, rfl⟩, rfl⟩

/-- Records that are numbered are known by what they say. -/
theorem numbered_ext {records others : List TransitionRecord} (h : Numbered records)
    (hothers : Numbered others)
    (hfacts : (records.map fun record => (record.event, record.detail))
      = others.map fun record => (record.event, record.detail)) : records = others := by
  have hlength : records.length = others.length := by
    simpa only [List.length_map] using congrArg List.length hfacts
  unfold Numbered at h hothers
  have hsequence : records.map (·.sequence) = others.map (·.sequence) := by
    rw [h, hothers, hlength]
  apply List.ext_getElem hlength
  intro i hi hi'
  have hs := List.getElem_of_eq hsequence (i := i) (by simpa using hi)
  have hf := List.getElem_of_eq hfacts (i := i) (by simpa using hi)
  simp only [List.getElem_map, Prod.mk.injEq] at hs hf
  exact TransitionRecord.ext hs hf.1 hf.2

section Runs

variable {applicationId applicantName residentialRegion : String}
    {application : MemberApplication}

/-- After any run the fields agree with the history, and the history is a
    workflow. -/
theorem run_told (h : new applicationId applicantName residentialRegion = .ok application)
    (calls : List Call) :
    Told application.residentialRegion (finalState exec application calls) ∧
      Workflow application.residentialRegion (finalState exec application calls).facts := by
  obtain ⟨htold, hfacts⟩ := told_new h
  exact ((journalled application.residentialRegion).grows htold
    (by rw [hfacts]; exact .created) calls).1

/-- The histories of applications are the numbered workflows, all of them and
    nothing else, and at any time the fields of an application are what its
    history says. -/
theorem history_iff (h : new applicationId applicantName residentialRegion = .ok application) :
    (∀ records, (∃ calls, (finalState exec application calls).history = records) ↔
      Numbered records ∧ Workflow application.residentialRegion
        (records.map fun record => (record.event, record.detail))) ∧
    ∀ calls, (finalState exec application calls).view
      = readHistory (finalState exec application calls).facts := by
  constructor
  · intro records
    obtain ⟨htold, hfacts⟩ := told_new h
    constructor
    · rintro ⟨calls, rfl⟩
      obtain ⟨hrun, hworkflow⟩ := run_told h calls
      exact ⟨hrun.numbered, hworkflow⟩
    · rintro ⟨hnumbered, hworkflow⟩
      obtain ⟨rest, hrest⟩ := workflow_head hworkflow
      have hstart : Workflow application.residentialRegion application.facts := by
        rw [hfacts]
        exact .created
      have hreach := (journalled application.residentialRegion).journal_iff htold hstart
        (by rw [hfacts]; exact List.cons_ne_nil _ _) workflow_of_snoc rest
      rw [hfacts, ← hrest] at hreach
      obtain ⟨calls, hcalls⟩ := hreach.mpr hworkflow
      exact ⟨calls, numbered_ext (run_told h calls).1.numbered hnumbered hcalls⟩
  · exact fun calls => (run_told h calls).1.view_eq

end Runs

/-! The applicant of the approved scenario. -/

theorem history_iff_alexHarbor : ∃ application,
    new "HCCU-0001" "Alex Harbor" "Hampton Roads" = .ok application ∧
    (∀ records, (∃ calls, (finalState exec application calls).history = records) ↔
      Numbered records ∧ Workflow application.residentialRegion
        (records.map fun record => (record.event, record.detail))) ∧
    ∀ calls, (finalState exec application calls).view
      = readHistory (finalState exec application calls).facts :=
  ⟨_, rfl, history_iff
    (rfl : new "HCCU-0001" "Alex Harbor" "Hampton Roads" = .ok _)⟩

example : successfulOnboarding.map view = .ok ⟨.approved, .eligible, .passed, none⟩ ∧
    ineligibleOnboarding.map view = .ok ⟨.rejected, .ineligible, .notStarted, some .ineligible⟩ ∧
    failedVerificationOnboarding.map view
      = .ok ⟨.rejected, .eligible, .failed, some .identityVerificationFailed⟩ :=
  ⟨rfl, rfl, rfl⟩

/-! ### What can still happen -/

/-- No call is accepted any more. -/
def Decided (application : MemberApplication) : Prop :=
  application.status = .approved ∨ application.status = .rejected

theorem decided_after {application : MemberApplication} (h : Decided application) (c : Call) :
    after (exec c) application = application := by
  rcases after_exec application c with hsame | ⟨fact, hallowed, -, -⟩
  · exact hsame
  · -- Every call wants a status before the decision.
    exfalso
    have hstatus : application.status = .draft ∨ application.status = .submitted ∨
        application.status = .underReview := by
      cases c with
      | submit => exact Or.inl hallowed
      | beginReview => exact Or.inr (Or.inl hallowed)
      | reject reason =>
          cases reason with
          | none => exact hallowed.elim
          | some reason => exact Or.inr (Or.inr hallowed.1)
      | _ => exact Or.inr (Or.inr hallowed.1)
    rcases h with h | h <;> rcases hstatus with hs | hs | hs <;> cases h.symm.trans hs

theorem decided_finalState {application : MemberApplication} (h : Decided application)
    (calls : List Call) : finalState exec application calls = application := by
  induction calls with
  | nil => rfl
  | cons c calls ih => rw [finalState_cons, decided_after h, ih]

/-- A failed identity check is not repeated. -/
theorem failed_after {application : MemberApplication}
    (h : application.identityVerificationStatus = .failed) (c : Call) :
    (after (exec c) application).identityVerificationStatus = .failed := by
  rcases after_exec application c with hsame | ⟨fact, hallowed, hwrites, hafter⟩
  · rw [hsame, h]
  · rw [hafter]
    cases c with
    | recordIdentityVerification result => exact absurd (h.symm.trans hallowed.2.2) nofun
    | reject reason =>
        cases reason with
        | none => cases hwrites
        | some reason =>
            cases hwrites
            exact h
    | _ =>
        cases hwrites
        exact h

section Runs

variable {applicationId applicantName residentialRegion : String}
    {application : MemberApplication}

/-- What the language allows after a run, some continuation of the run does. -/
theorem run_reaches (h : new applicationId applicantName residentialRegion = .ok application)
    (calls : List Call) {rest : List Fact}
    (hrest : Workflow application.residentialRegion
      ((finalState exec application calls).facts ++ rest)) :
    ∃ more, (finalState exec application (calls ++ more)).status
      = (readHistory ((finalState exec application calls).facts ++ rest)).status := by
  obtain ⟨htold, hworkflow⟩ := run_told h calls
  have hne : (finalState exec application calls).facts ≠ [] := by
    intro hnil
    rw [hnil] at hworkflow
    exact workflow_ne_nil hworkflow
  obtain ⟨more, hmore⟩ := ((journalled application.residentialRegion).journal_iff htold hworkflow
    hne workflow_of_snoc rest).mpr hrest
  refine ⟨more, ?_⟩
  rw [← hmore, ← finalState_append, ← (run_told h (calls ++ more)).1.view_eq]
  rfl

/-- At any point of its life, an application can still be approved exactly
    when its region is served, its identity check has not failed and it was
    not rejected, and can still be rejected exactly when it was not approved;
    once it is decided, nothing changes it. -/
theorem prospects (h : new applicationId applicantName residentialRegion = .ok application)
    (calls : List Call) :
    ((∃ more, (finalState exec application (calls ++ more)).status = .approved) ↔
      application.residentialRegion ∈ eligibleRegions ∧
        (finalState exec application calls).identityVerificationStatus ≠ .failed ∧
        (finalState exec application calls).status ≠ .rejected) ∧
    ((∃ more, (finalState exec application (calls ++ more)).status = .rejected) ↔
      (finalState exec application calls).status ≠ .approved) ∧
    (Decided (finalState exec application calls) → ∀ more,
      finalState exec application (calls ++ more) = finalState exec application calls) := by
  obtain ⟨htold, hworkflow⟩ := run_told h calls
  have hview := htold.view_eq
  refine ⟨⟨?_, ?_⟩, ⟨?_, ?_⟩, ?_⟩
  · -- An approved history has passed all checks, and what failed is never undone.
    rintro ⟨more, hmore⟩
    obtain ⟨htold', hworkflow'⟩ := run_told h (calls ++ more)
    have happroved := workflow_approved hworkflow' (htold'.view_eq ▸ hmore)
    rw [← htold'.view_eq] at happroved
    refine ⟨mem_eligibleRegions_iff.mp happroved.1, fun hfailed => ?_, fun hrejected => ?_⟩
    · have hstill := @invariant_finalState _ _ _ _ exec
        (fun t => t.identityVerificationStatus = .failed) (fun t c ht => failed_after ht c) _
        hfailed more
      rw [← finalState_append] at hstill
      cases hstill.symm.trans happroved.2
    · rw [finalState_append, decided_finalState (Or.inr hrejected), hrejected] at hmore
      cases hmore
  · rintro ⟨hregion, hidentity, hstatus⟩
    obtain ⟨rest, hrest, happroved⟩ := workflow_approvable hworkflow
      (mem_eligibleRegions_iff.mpr hregion) (hview ▸ hidentity) (hview ▸ hstatus)
    obtain ⟨more, hmore⟩ := run_reaches h calls hrest
    exact ⟨more, hmore.trans happroved⟩
  · rintro ⟨more, hmore⟩ happroved
    rw [finalState_append, decided_finalState (Or.inl happroved), happroved] at hmore
    cases hmore
  · intro hstatus
    obtain ⟨rest, hrest, hrejected⟩ := workflow_rejectable hworkflow (hview ▸ hstatus)
    obtain ⟨more, hmore⟩ := run_reaches h calls hrest
    exact ⟨more, hmore.trans hrejected⟩
  · intro hdecided more
    rw [finalState_append, decided_finalState hdecided]

end Runs

theorem prospects_alexHarbor : ∃ application,
    new "HCCU-0001" "Alex Harbor" "Hampton Roads" = .ok application ∧
    ((∃ more, (finalState exec application ([.submit, .beginReview] ++ more)).status
        = .approved) ↔
      application.residentialRegion ∈ eligibleRegions ∧
        (finalState exec application [.submit, .beginReview]).identityVerificationStatus
          ≠ .failed ∧
        (finalState exec application [.submit, .beginReview]).status ≠ .rejected) ∧
    ((∃ more, (finalState exec application ([.submit, .beginReview] ++ more)).status
        = .rejected) ↔
      (finalState exec application [.submit, .beginReview]).status ≠ .approved) ∧
    (Decided (finalState exec application [.submit, .beginReview]) → ∀ more,
      finalState exec application ([.submit, .beginReview] ++ more)
        = finalState exec application [.submit, .beginReview]) :=
  ⟨_, rfl, prospects (rfl : new "HCCU-0001" "Alex Harbor" "Hampton Roads" = .ok _)
    [.submit, .beginReview]⟩

end MemberApplication

end BankSim
