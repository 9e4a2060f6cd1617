import BankSim.Core.Onboarding

/-!
# The Application Workflow

The language of the histories an application can have, and what a history
says. Nothing here runs an operation.

`Workflow region` is written as a reviewer would: the application is created,
submitted and taken into review; the review establishes eligibility and
identity, each at most once and in either order; and it ends, if it does, in an
approval that both support or in a rejection for a reason that is not
contradicted by what was established.

`readHistory` goes through a history and keeps the fields up to date, details
read back from their texts. `workflow_snoc_iff` connects the two: whether a
workflow may go on with a fact is decided by the fields alone.

## Main definitions

* `View`, `readHistory`: The fields of an application, read off its history.
* `Checks`, `Workflow`: The language of the histories.
* `Next`: What may come next, by the fields.

## Theorems

* `readHistory_review`: What a review has established.
* `workflow_snoc_iff`: How a workflow goes on.
* `workflow_of_snoc`: What a workflow grew from.
* `workflow_approvable`, `workflow_rejectable`: Where a decision is still open.
* `workflow_approved`: What an approved history has established.
-/

namespace BankSim

namespace MemberApplication

/-- What a record says, its number aside. -/
abbrev Fact := ApplicationEvent × String

/-- The fields that the operations change. -/
structure View where
  status : ApplicationStatus
  eligibilityStatus : EligibilityStatus
  identityVerificationStatus : IdentityVerificationStatus
  rejectionReason : Option RejectionReason
  deriving DecidableEq, Repr

/-- The reasons in the order of their definition. -/
def reasons : List RejectionReason :=
  [.incompleteApplication, .ineligible, .identityVerificationFailed]

/-- What a fact changes, its detail read back from the text. -/
def View.read (view : View) : Fact → View
  | (.created, _) => view
  | (.submitted, _) => { view with status := .submitted }
  | (.reviewStarted, _) => { view with status := .underReview }
  | (.eligibilityEvaluated, detail) =>
      { view with
        eligibilityStatus :=
          if detail = EligibilityStatus.eligible.value then .eligible else .ineligible }
  | (.identityVerificationRecorded, detail) =>
      { view with
        identityVerificationStatus :=
          if detail = IdentityVerificationStatus.passed.value then .passed else .failed }
  | (.approved, _) => { view with status := .approved, rejectionReason := none }
  | (.rejected, detail) =>
      { view with
        status := .rejected
        rejectionReason := reasons.find? fun reason => reason.value = detail }

/-- The fields, read off a history from its first fact on. -/
def readHistory (facts : List Fact) : View :=
  facts.foldl View.read ⟨.draft, .notEvaluated, .notStarted, none⟩

theorem readHistory_snoc (facts : List Fact) (fact : Fact) :
    readHistory (facts ++ [fact]) = (readHistory facts).read fact :=
  List.foldl_concat ..

/-! ### The language -/

/-- The outcome of the service-region rule. -/
def eligibilityOf (region : String) : EligibilityStatus :=
  if region ∈ eligibleRegions then .eligible else .ineligible

def created : Fact := (.created, ApplicationStatus.draft.value)
def submitted : Fact := (.submitted, ApplicationStatus.submitted.value)
def reviewStarted : Fact := (.reviewStarted, ApplicationStatus.underReview.value)
def evaluated (region : String) : Fact := (.eligibilityEvaluated, (eligibilityOf region).value)
def passed : Fact := (.identityVerificationRecorded, IdentityVerificationStatus.passed.value)
def failed : Fact := (.identityVerificationRecorded, IdentityVerificationStatus.failed.value)
def approved : Fact := (.approved, ApplicationStatus.approved.value)
def rejected (reason : RejectionReason) : Fact := (.rejected, reason.value)

/-- What comes before a review. -/
def opening : List Fact := [created, submitted, reviewStarted]

/-- What a review may establish: eligibility and identity, each at most once,
    in either order. -/
structure Checks (region : String) (checks : List Fact) : Prop where
  fact : ∀ fact ∈ checks, fact = evaluated region ∨ fact = passed ∨ fact = failed
  once : (checks.map Prod.fst).Nodup

/-- The histories of an application of a region. -/
inductive Workflow (region : String) : List Fact → Prop
  | created : Workflow region [created]
  | submitted : Workflow region [created, submitted]
  | review {checks : List Fact} (h : Checks region checks) :
      Workflow region (opening ++ checks)
  | approved {checks : List Fact} (h : Checks region checks)
      (heligible : eligibilityOf region = .eligible) (hevaluated : evaluated region ∈ checks)
      (hpassed : passed ∈ checks) :
      Workflow region (opening ++ checks ++ [approved])
  | rejected {checks : List Fact} (h : Checks region checks) (reason : RejectionReason)
      (hineligible : reason = .ineligible →
        eligibilityOf region = .ineligible ∧ evaluated region ∈ checks)
      (hfailed : reason = .identityVerificationFailed → failed ∈ checks) :
      Workflow region (opening ++ checks ++ [rejected reason])

/-! Facts of different events differ, and so do the two outcomes of the identity
check. -/

@[simp] theorem passed_ne_evaluated (region : String) : passed ≠ evaluated region := by
  simp [passed, evaluated]

@[simp] theorem failed_ne_evaluated (region : String) : failed ≠ evaluated region := by
  simp [failed, evaluated]

@[simp] theorem evaluated_ne_passed (region : String) : evaluated region ≠ passed := by
  simp [passed, evaluated]

@[simp] theorem evaluated_ne_failed (region : String) : evaluated region ≠ failed := by
  simp [failed, evaluated]

@[simp] theorem passed_ne_failed : passed ≠ failed := by decide

@[simp] theorem failed_ne_passed : failed ≠ passed := by decide

theorem checks_nil (region : String) : Checks region [] :=
  ⟨fun _ h => absurd h List.not_mem_nil, List.nodup_nil⟩

/-- A review goes on with what it has not established. -/
theorem checks_snoc_iff {region : String} {checks : List Fact} {fact : Fact} :
    Checks region (checks ++ [fact]) ↔ Checks region checks ∧ fact.1 ∉ checks.map Prod.fst ∧
      (fact = evaluated region ∨ fact = passed ∨ fact = failed) := by
  constructor
  · intro h
    have hnodup := h.once
    rw [List.map_append, List.nodup_append] at hnodup
    refine ⟨⟨fun f hf => h.fact f (List.mem_append_left _ hf), hnodup.1⟩, ?_, ?_⟩
    · intro hmem
      exact hnodup.2.2 _ hmem _ (by simp) rfl
    · exact h.fact fact (List.mem_append_right _ List.mem_cons_self)
  · rintro ⟨h, hnew, hfact⟩
    constructor
    · intro f hf
      rcases List.mem_append.mp hf with hf | hf
      · exact h.fact f hf
      · rw [List.mem_singleton.mp hf]
        exact hfact
    · rw [List.map_append, List.nodup_append]
      refine ⟨h.once, by simp, ?_⟩
      rintro a ha b hb rfl
      rw [List.map_singleton, List.mem_singleton] at hb
      exact hnew (hb ▸ ha)

theorem eligibilityOf_cases (region : String) :
    eligibilityOf region = .eligible ∨ eligibilityOf region = .ineligible := by
  unfold eligibilityOf
  split
  · exact Or.inl rfl
  · exact Or.inr rfl

theorem mem_eligibleRegions_iff {region : String} :
    eligibilityOf region = .eligible ↔ region ∈ eligibleRegions := by
  unfold eligibilityOf
  by_cases h : region ∈ eligibleRegions <;> simp [h]

/-- The outcome of the rule is read back from its text. -/
theorem read_eligibility (region : String) :
    (if (eligibilityOf region).value = EligibilityStatus.eligible.value then
      EligibilityStatus.eligible else .ineligible) = eligibilityOf region := by
  rcases eligibilityOf_cases region with h | h
  · rw [h, if_pos rfl]
  · rw [h, if_neg (by decide)]

theorem find_reason (reason : RejectionReason) :
    (reasons.find? fun other => other.value = reason.value) = some reason := by
  cases reason <;> decide

/-! What each fact changes. -/

@[simp] theorem View.read_submitted (view : View) :
    view.read submitted = { view with status := .submitted } := rfl

@[simp] theorem View.read_reviewStarted (view : View) :
    view.read reviewStarted = { view with status := .underReview } := rfl

@[simp] theorem View.read_evaluated (view : View) (region : String) :
    view.read (evaluated region) = { view with eligibilityStatus := eligibilityOf region } := by
  simp only [View.read, evaluated, read_eligibility]

@[simp] theorem View.read_passed (view : View) :
    view.read passed = { view with identityVerificationStatus := .passed } := rfl

@[simp] theorem View.read_failed (view : View) :
    view.read failed = { view with identityVerificationStatus := .failed } := rfl

@[simp] theorem View.read_approved (view : View) :
    view.read approved = { view with status := .approved, rejectionReason := none } := rfl

@[simp] theorem View.read_rejected (view : View) (reason : RejectionReason) :
    view.read (rejected reason)
      = { view with status := .rejected, rejectionReason := some reason } := by
  simp only [View.read, rejected, find_reason]

/-- Which events have established something so far. -/
theorem mem_events_iff {region : String} {checks : List Fact} (h : Checks region checks) :
    (ApplicationEvent.eligibilityEvaluated ∈ checks.map Prod.fst ↔ evaluated region ∈ checks) ∧
      (ApplicationEvent.identityVerificationRecorded ∈ checks.map Prod.fst ↔
        passed ∈ checks ∨ failed ∈ checks) := by
  constructor
  · refine ⟨fun hmem => ?_, fun hmem => List.mem_map_of_mem (f := Prod.fst) hmem⟩
    obtain ⟨fact, hfact, hevent⟩ := List.mem_map.mp hmem
    rcases h.fact fact hfact with rfl | rfl | rfl
    · exact hfact
    · cases hevent
    · cases hevent
  · constructor
    · intro hmem
      obtain ⟨fact, hfact, hevent⟩ := List.mem_map.mp hmem
      rcases h.fact fact hfact with rfl | rfl | rfl
      · cases hevent
      · exact Or.inl hfact
      · exact Or.inr hfact
    · rintro (hmem | hmem)
      · exact List.mem_map_of_mem (f := Prod.fst) hmem
      · exact List.mem_map_of_mem (f := Prod.fst) hmem

/-- A review never establishes that identity was both passed and failed. -/
theorem not_passed_and_failed {region : String} {checks : List Fact} (h : Checks region checks) :
    ¬ (passed ∈ checks ∧ failed ∈ checks) := by
  rintro ⟨hpassed, hfailed⟩
  have hsame := List.inj_on_of_nodup_map h.once hpassed hfailed rfl
  exact absurd hsame (by decide)

/-- The fields of an application whose review has reached these facts. -/
def reviewed (region : String) (checks : List Fact) : View :=
  ⟨.underReview,
    if evaluated region ∈ checks then eligibilityOf region else .notEvaluated,
    if passed ∈ checks then .passed else if failed ∈ checks then .failed else .notStarted,
    none⟩

/-- What a review has established is read off its facts. -/
theorem readHistory_review {region : String} {checks : List Fact} (h : Checks region checks) :
    readHistory (opening ++ checks) = reviewed region checks := by
  induction checks using List.reverseRecOn with
  | nil => rfl
  | append_singleton checks fact ih =>
      obtain ⟨hchecks, hnew, hfact⟩ := checks_snoc_iff.mp h
      obtain ⟨heligibility, hidentity⟩ := mem_events_iff hchecks
      rw [← List.append_assoc, readHistory_snoc, ih hchecks]
      rcases hfact with rfl | rfl | rfl
      · rw [show (evaluated region).1 = .eligibilityEvaluated from rfl, heligibility] at hnew
        simp [reviewed, hnew]
      · rw [show passed.1 = .identityVerificationRecorded from rfl, hidentity, not_or] at hnew
        simp [reviewed, hnew]
      · rw [show failed.1 = .identityVerificationRecorded from rfl, hidentity, not_or] at hnew
        simp [reviewed, hnew]

/-! ### How a workflow goes on -/

/-- Given the fields, what may come next. -/
inductive Next (region : String) (view : View) : Fact → Prop
  | submitted (hstatus : view.status = .draft) : Next region view submitted
  | reviewStarted (hstatus : view.status = .submitted) : Next region view reviewStarted
  | evaluated (hstatus : view.status = .underReview)
      (hnew : view.eligibilityStatus = .notEvaluated) : Next region view (evaluated region)
  | passed (hstatus : view.status = .underReview)
      (hnew : view.identityVerificationStatus = .notStarted) : Next region view passed
  | failed (hstatus : view.status = .underReview)
      (hnew : view.identityVerificationStatus = .notStarted) : Next region view failed
  | approved (hstatus : view.status = .underReview)
      (heligible : view.eligibilityStatus = .eligible)
      (hpassed : view.identityVerificationStatus = .passed) : Next region view approved
  | rejected (hstatus : view.status = .underReview) (reason : RejectionReason)
      (hineligible : reason = .ineligible → view.eligibilityStatus = .ineligible)
      (hfailed : reason = .identityVerificationFailed →
        view.identityVerificationStatus = .failed) : Next region view (rejected reason)

/-! What the review has established, in terms of its facts. -/

theorem reviewed_notEvaluated_iff {region : String} {checks : List Fact} :
    (reviewed region checks).eligibilityStatus = .notEvaluated ↔ evaluated region ∉ checks := by
  unfold reviewed
  by_cases hmem : evaluated region ∈ checks <;>
    rcases eligibilityOf_cases region with h | h <;> simp [h, hmem]

theorem reviewed_eligible_iff {region : String} {checks : List Fact} :
    (reviewed region checks).eligibilityStatus = .eligible ↔
      eligibilityOf region = .eligible ∧ evaluated region ∈ checks := by
  unfold reviewed
  by_cases hmem : evaluated region ∈ checks <;>
    rcases eligibilityOf_cases region with h | h <;> simp [h, hmem]

theorem reviewed_ineligible_iff {region : String} {checks : List Fact} :
    (reviewed region checks).eligibilityStatus = .ineligible ↔
      eligibilityOf region = .ineligible ∧ evaluated region ∈ checks := by
  unfold reviewed
  by_cases hmem : evaluated region ∈ checks <;>
    rcases eligibilityOf_cases region with h | h <;> simp [h, hmem]

theorem reviewed_notStarted_iff {region : String} {checks : List Fact} :
    (reviewed region checks).identityVerificationStatus = .notStarted ↔
      ¬ (passed ∈ checks ∨ failed ∈ checks) := by
  unfold reviewed
  by_cases hpassed : passed ∈ checks <;> by_cases hfailed : failed ∈ checks <;>
    simp [hpassed, hfailed]

theorem reviewed_passed_iff {region : String} {checks : List Fact} :
    (reviewed region checks).identityVerificationStatus = .passed ↔ passed ∈ checks := by
  unfold reviewed
  by_cases hpassed : passed ∈ checks <;> by_cases hfailed : failed ∈ checks <;>
    simp [hpassed, hfailed]

theorem reviewed_failed_iff {region : String} {checks : List Fact} (h : Checks region checks) :
    (reviewed region checks).identityVerificationStatus = .failed ↔ failed ∈ checks := by
  have hboth := not_passed_and_failed h
  unfold reviewed
  by_cases hpassed : passed ∈ checks <;> by_cases hfailed : failed ∈ checks <;>
    simp_all

theorem snoc_inj {facts others : List Fact} {fact other : Fact}
    (h : facts ++ [fact] = others ++ [other]) : facts = others ∧ fact = other := by
  obtain ⟨hfacts, hfact⟩ := List.append_inj' h rfl
  exact ⟨hfacts, List.singleton_inj.mp hfact⟩

theorem workflow_ne_nil {region : String} : ¬ Workflow region [] := by
  intro h
  generalize hnil : ([] : List Fact) = facts at h
  cases h <;> simp [opening] at hnil

/-- Facts of a review go on with a check that was not made, or with a decision
    that the checks support. -/
theorem next_reviewed_iff {region : String} {checks : List Fact} (h : Checks region checks)
    (fact : Fact) : Next region (reviewed region checks) fact ↔
      Checks region (checks ++ [fact]) ∨
      (fact = approved ∧ eligibilityOf region = .eligible ∧ evaluated region ∈ checks ∧
        passed ∈ checks) ∨
      ∃ reason, fact = rejected reason ∧
        (reason = .ineligible → eligibilityOf region = .ineligible ∧ evaluated region ∈ checks) ∧
        (reason = .identityVerificationFailed → failed ∈ checks) := by
  obtain ⟨heligibility, hidentity⟩ := mem_events_iff h
  have hunder : (reviewed region checks).status = .underReview := rfl
  rw [checks_snoc_iff]
  -- What a check or a decision asks of the fields is what it asks of the checks.
  constructor
  · intro hnext
    cases hnext with
    | submitted hstatus => cases hstatus
    | reviewStarted hstatus => cases hstatus
    | evaluated _ hnew =>
        exact Or.inl ⟨h, fun hmem => reviewed_notEvaluated_iff.mp hnew (heligibility.mp hmem),
          Or.inl rfl⟩
    | passed _ hnew =>
        exact Or.inl ⟨h, fun hmem => reviewed_notStarted_iff.mp hnew (hidentity.mp hmem),
          Or.inr (Or.inl rfl)⟩
    | failed _ hnew =>
        exact Or.inl ⟨h, fun hmem => reviewed_notStarted_iff.mp hnew (hidentity.mp hmem),
          Or.inr (Or.inr rfl)⟩
    | approved _ heligible hpassed =>
        obtain ⟨hregion, hevaluated⟩ := reviewed_eligible_iff.mp heligible
        exact Or.inr (Or.inl ⟨rfl, hregion, hevaluated, reviewed_passed_iff.mp hpassed⟩)
    | rejected _ reason hineligible hfailed =>
        exact Or.inr (Or.inr ⟨reason, rfl,
          fun hreason => reviewed_ineligible_iff.mp (hineligible hreason),
          fun hreason => (reviewed_failed_iff h).mp (hfailed hreason)⟩)
  · rintro (⟨-, hnew, hfact⟩ | ⟨rfl, hregion, hevaluated, hpassed⟩ |
      ⟨reason, rfl, hineligible, hfailed⟩)
    · rcases hfact with rfl | rfl | rfl
      · exact .evaluated hunder (reviewed_notEvaluated_iff.mpr fun hmem =>
          hnew (heligibility.mpr hmem))
      · exact .passed hunder (reviewed_notStarted_iff.mpr fun hmem => hnew (hidentity.mpr hmem))
      · exact .failed hunder (reviewed_notStarted_iff.mpr fun hmem => hnew (hidentity.mpr hmem))
    · exact .approved hunder (reviewed_eligible_iff.mpr ⟨hregion, hevaluated⟩)
        (reviewed_passed_iff.mpr hpassed)
    · exact .rejected hunder reason
        (fun hreason => reviewed_ineligible_iff.mpr (hineligible hreason))
        (fun hreason => (reviewed_failed_iff h).mpr (hfailed hreason))

/-- What a workflow grew from is a workflow. -/
theorem workflow_of_snoc {region : String} (facts : List Fact) (fact : Fact) (hne : facts ≠ [])
    (h : Workflow region (facts ++ [fact])) : Workflow region facts := by
  generalize hall : facts ++ [fact] = all at h
  cases h with
  | created => exact absurd (snoc_inj (show facts ++ [fact] = [] ++ [created] from hall)).1 hne
  | submitted =>
      obtain ⟨rfl, -⟩ := snoc_inj (show facts ++ [fact] = [created] ++ [submitted] from hall)
      exact .created
  | @review checks hchecks =>
      cases checks using List.reverseRecOn with
      | nil =>
          obtain ⟨rfl, -⟩ := snoc_inj
              (show facts ++ [fact] = [created, submitted] ++ [reviewStarted] from hall)
          exact .submitted
      | append_singleton checks check =>
          rw [← List.append_assoc] at hall
          obtain ⟨rfl, -⟩ := snoc_inj hall
          exact .review (checks_snoc_iff.mp hchecks).1
  | approved hchecks =>
      obtain ⟨rfl, -⟩ := snoc_inj hall
      exact .review hchecks
  | rejected hchecks =>
      obtain ⟨rfl, -⟩ := snoc_inj hall
      exact .review hchecks

/-- A history with one more fact is a workflow exactly when the fields allow
    the fact. -/
theorem workflow_snoc_iff {region : String} {facts : List Fact} (h : Workflow region facts)
    (fact : Fact) : Workflow region (facts ++ [fact]) ↔ Next region (readHistory facts) fact := by
  constructor
  · -- The last fact of a workflow is told from its shape, and the rest is the history.
    intro hmore
    generalize hall : facts ++ [fact] = all at hmore
    cases hmore with
    | created =>
        obtain ⟨rfl, -⟩ := snoc_inj (show facts ++ [fact] = [] ++ [created] from hall)
        exact absurd h workflow_ne_nil
    | submitted =>
        obtain ⟨rfl, rfl⟩ := snoc_inj (show facts ++ [fact] = [created] ++ [submitted] from hall)
        exact .submitted rfl
    | @review checks hchecks =>
        cases checks using List.reverseRecOn with
        | nil =>
            obtain ⟨rfl, rfl⟩ := snoc_inj
              (show facts ++ [fact] = [created, submitted] ++ [reviewStarted] from hall)
            exact .reviewStarted rfl
        | append_singleton checks check =>
            rw [← List.append_assoc] at hall
            obtain ⟨rfl, rfl⟩ := snoc_inj hall
            have hbefore := (checks_snoc_iff.mp hchecks).1
            rw [readHistory_review hbefore]
            exact (next_reviewed_iff hbefore fact).mpr (Or.inl hchecks)
    | approved hchecks heligible hevaluated hpassed =>
        obtain ⟨rfl, rfl⟩ := snoc_inj hall
        rw [readHistory_review hchecks]
        exact (next_reviewed_iff hchecks _).mpr
          (Or.inr (Or.inl ⟨rfl, heligible, hevaluated, hpassed⟩))
    | rejected hchecks reason hineligible hfailed =>
        obtain ⟨rfl, rfl⟩ := snoc_inj hall
        rw [readHistory_review hchecks]
        exact (next_reviewed_iff hchecks _).mpr
          (Or.inr (Or.inr ⟨reason, rfl, hineligible, hfailed⟩))
  · -- Which facts the fields allow is told from the shape of the history.
    intro hnext
    cases h with
    | created =>
        cases hnext with
        | submitted => exact .submitted
        | _ => contradiction
    | submitted =>
        cases hnext with
        | reviewStarted => exact .review (checks_nil region)
        | _ => contradiction
    | review hchecks =>
        rw [readHistory_review hchecks, next_reviewed_iff hchecks] at hnext
        rcases hnext with hmore | ⟨rfl, heligible, hevaluated, hpassed⟩ |
          ⟨reason, rfl, hineligible, hfailed⟩
        · rw [List.append_assoc]
          exact .review hmore
        · exact .approved hchecks heligible hevaluated hpassed
        · exact .rejected hchecks reason hineligible hfailed
    | approved =>
        rw [readHistory_snoc] at hnext
        cases hnext <;> contradiction
    | rejected =>
        rw [readHistory_snoc, View.read_rejected] at hnext
        cases hnext <;> contradiction

theorem workflow_head {region : String} {facts : List Fact} (h : Workflow region facts) :
    ∃ rest, facts = [created] ++ rest := by
  cases h with
  | created => exact ⟨[], rfl⟩
  | submitted => exact ⟨[submitted], rfl⟩
  | review => exact ⟨_, rfl⟩
  | approved => exact ⟨_, rfl⟩
  | rejected => exact ⟨_, rfl⟩

/-- A review that has not failed identity can establish what an approval
    needs. -/
theorem checks_complete {region : String} {checks : List Fact} (h : Checks region checks)
    (hfailed : failed ∉ checks) : ∃ rest, Checks region (checks ++ rest) ∧
      evaluated region ∈ checks ++ rest ∧ passed ∈ checks ++ rest := by
  have hevaluated : ∃ rest, Checks region (checks ++ rest) ∧ evaluated region ∈ checks ++ rest ∧
      failed ∉ checks ++ rest := by
    by_cases hmem : evaluated region ∈ checks
    · exact ⟨[], by rwa [List.append_nil], by rwa [List.append_nil], by rwa [List.append_nil]⟩
    · refine ⟨[evaluated region], checks_snoc_iff.mpr ⟨h, ?_, Or.inl rfl⟩, by simp, by simpa⟩
      exact fun hevent => hmem ((mem_events_iff h).1.mp hevent)
  obtain ⟨rest, hrest, hmem, hno⟩ := hevaluated
  by_cases hpassed : passed ∈ checks ++ rest
  · exact ⟨rest, hrest, hmem, hpassed⟩
  · refine ⟨rest ++ [passed], ?_, ?_, ?_⟩
    · rw [← List.append_assoc]
      refine checks_snoc_iff.mpr ⟨hrest, fun hevent => ?_, Or.inr (Or.inl rfl)⟩
      exact ((mem_events_iff hrest).2.mp hevent).elim hpassed hno
    · rw [← List.append_assoc]
      exact List.mem_append_left _ hmem
    · simp

/-- Where a history can still lead to an approval. -/
theorem workflow_approvable {region : String} {facts : List Fact} (h : Workflow region facts)
    (heligible : eligibilityOf region = .eligible)
    (hidentity : (readHistory facts).identityVerificationStatus ≠ .failed)
    (hstatus : (readHistory facts).status ≠ .rejected) :
    ∃ rest, Workflow region (facts ++ rest) ∧ (readHistory (facts ++ rest)).status = .approved := by
  -- From a review, the checks that are missing come first, and then the decision.
  have hreview : ∀ checks, Checks region checks → failed ∉ checks →
      ∃ rest, Workflow region (opening ++ checks ++ rest) ∧
        (readHistory (opening ++ checks ++ rest)).status = .approved := by
    intro checks hchecks hfailed
    obtain ⟨rest, hrest, hevaluated, hpassed⟩ := checks_complete hchecks hfailed
    refine ⟨rest ++ [approved], ?_, ?_⟩
    · rw [← List.append_assoc, List.append_assoc opening]
      exact .approved hrest heligible hevaluated hpassed
    · rw [← List.append_assoc, readHistory_snoc, View.read_approved]
  cases h with
  | created =>
      obtain ⟨rest, hrest⟩ := hreview [] (checks_nil region) List.not_mem_nil
      exact ⟨[submitted, reviewStarted] ++ rest, hrest⟩
  | submitted =>
      obtain ⟨rest, hrest⟩ := hreview [] (checks_nil region) List.not_mem_nil
      exact ⟨[reviewStarted] ++ rest, hrest⟩
  | review hchecks =>
      rw [readHistory_review hchecks] at hidentity
      exact hreview _ hchecks fun hmem => hidentity ((reviewed_failed_iff hchecks).mpr hmem)
  | approved hchecks _ hevaluated hpassed =>
      refine ⟨[], ?_, ?_⟩
      · rw [List.append_nil]
        exact .approved hchecks heligible hevaluated hpassed
      · rw [List.append_nil, readHistory_snoc, View.read_approved]
  | rejected =>
      rw [readHistory_snoc, View.read_rejected] at hstatus
      exact absurd rfl hstatus

/-- Where a history can still lead to a rejection. -/
theorem workflow_rejectable {region : String} {facts : List Fact} (h : Workflow region facts)
    (hstatus : (readHistory facts).status ≠ .approved) :
    ∃ rest, Workflow region (facts ++ rest) ∧ (readHistory (facts ++ rest)).status = .rejected := by
  -- An incomplete application is rejected whatever the review established.
  have hreview : ∀ checks, Checks region checks →
      ∃ rest, Workflow region (opening ++ checks ++ rest) ∧
        (readHistory (opening ++ checks ++ rest)).status = .rejected := by
    intro checks hchecks
    refine ⟨[rejected .incompleteApplication], .rejected hchecks _ nofun nofun, ?_⟩
    rw [readHistory_snoc, View.read_rejected]
  cases h with
  | created =>
      obtain ⟨rest, hrest⟩ := hreview [] (checks_nil region)
      exact ⟨[submitted, reviewStarted] ++ rest, hrest⟩
  | submitted =>
      obtain ⟨rest, hrest⟩ := hreview [] (checks_nil region)
      exact ⟨[reviewStarted] ++ rest, hrest⟩
  | review hchecks => exact hreview _ hchecks
  | approved =>
      rw [readHistory_snoc, View.read_approved] at hstatus
      exact absurd rfl hstatus
  | rejected hchecks reason hineligible hfailed =>
      refine ⟨[], ?_, ?_⟩
      · rw [List.append_nil]
        exact .rejected hchecks reason hineligible hfailed
      · rw [List.append_nil, readHistory_snoc, View.read_rejected]

/-- What an approved history has established. -/
theorem workflow_approved {region : String} {facts : List Fact} (h : Workflow region facts)
    (hstatus : (readHistory facts).status = .approved) :
    eligibilityOf region = .eligible ∧
      (readHistory facts).identityVerificationStatus = .passed := by
  cases h with
  | created | submitted => cases hstatus
  | review hchecks =>
      rw [readHistory_review hchecks] at hstatus
      cases hstatus
  | approved hchecks heligible _ hpassed =>
      rw [readHistory_snoc, View.read_approved, readHistory_review hchecks]
      exact ⟨heligible, (@reviewed_passed_iff region _).mpr hpassed⟩
  | rejected =>
      rw [readHistory_snoc, View.read_rejected] at hstatus
      cases hstatus

end MemberApplication

end BankSim
