import BankSim.Core.Basic

/-!
# Member Onboarding

`onboarding.py`: a membership application moves through a review to a decision.
It is changed only by its six operations. Each of them checks the status first,
then its own condition, and appends one record to the history when it is
allowed.

The two exception classes of the module are its own, so they are not among the
`ErrorKind`s the banking workflows share. Type tests (`isinstance`) are what
the types below say.

## Main definitions

* `MemberApplication`: An application, with its history.
* `MemberApplication.new`: The constructor with its checks.
* `MemberApplication.submit`, `MemberApplication.beginReview`,
  `MemberApplication.evaluateEligibility`,
  `MemberApplication.recordIdentityVerification`, `MemberApplication.approve`,
  `MemberApplication.reject`: The operations.
* `MemberApplication.Call`: An operation with its argument.
* `successfulOnboarding`, `ineligibleOnboarding`,
  `failedVerificationOnboarding`: The scenarios.
-/

namespace BankSim

open Exec

/-- `ApplicationValidationError` and `InvalidApplicationTransition`, with their
    messages. -/
inductive ApplicationError
  | applicationValidation (message : String)
  | invalidTransition (message : String)
  deriving DecidableEq, Repr

/-- States through which a membership application may progress. -/
inductive ApplicationStatus
  | draft
  | submitted
  | underReview
  | approved
  | rejected
  deriving DecidableEq, Repr

def ApplicationStatus.value : ApplicationStatus → String
  | .draft => "Draft"
  | .submitted => "Submitted"
  | .underReview => "Under review"
  | .approved => "Approved"
  | .rejected => "Rejected"

/-- Result of applying the fictional service-region rule. -/
inductive EligibilityStatus
  | notEvaluated
  | eligible
  | ineligible
  deriving DecidableEq, Repr

def EligibilityStatus.value : EligibilityStatus → String
  | .notEvaluated => "Not evaluated"
  | .eligible => "Eligible"
  | .ineligible => "Ineligible"

/-- Simulated identity-verification outcome. -/
inductive IdentityVerificationStatus
  | notStarted
  | passed
  | failed
  deriving DecidableEq, Repr

def IdentityVerificationStatus.value : IdentityVerificationStatus → String
  | .notStarted => "Not started"
  | .passed => "Passed"
  | .failed => "Failed"

/-- Explicit reasons for a rejected application. -/
inductive RejectionReason
  | incompleteApplication
  | ineligible
  | identityVerificationFailed
  deriving DecidableEq, Repr

def RejectionReason.value : RejectionReason → String
  | .incompleteApplication => "Incomplete application"
  | .ineligible => "Ineligible"
  | .identityVerificationFailed => "Identity verification failed"

/-- Workflow facts retained in deterministic order. -/
inductive ApplicationEvent
  | created
  | submitted
  | reviewStarted
  | eligibilityEvaluated
  | identityVerificationRecorded
  | approved
  | rejected
  deriving DecidableEq, Repr

/-- A sequenced application event. -/
@[ext]
structure TransitionRecord where
  sequence : Nat
  event : ApplicationEvent
  detail : String
  deriving DecidableEq, Repr

/-- `ELIGIBLE_REGIONS`. -/
def eligibleRegions : List String :=
  ["Hampton Roads", "Southeastern Virginia", "Virginia Eastern Shore"]

/-- `value.strip()`. -/
def strip (value : String) : String :=
  String.ofList ((value.toList.dropWhile isSpace).rdropWhile isSpace)

/-- Text as the constructor stores it: nothing left to strip, and not empty. -/
structure RequiredText (text : String) : Prop where
  stripped : strip text = text
  nonblank : isBlank text = false

theorem toList_strip (value : String) :
    (strip value).toList = (value.toList.dropWhile isSpace).rdropWhile isSpace :=
  String.toList_ofList

/-- Dropping from the back stops at a front that is to be kept. -/
theorem rdropWhile_cons_of_not {α : Type} {p : α → Bool} {a : α} (ha : ¬ p a) (l : List α) :
    (a :: l).rdropWhile p = a :: l.rdropWhile p := by
  induction l using List.reverseRecOn with
  | nil => simp [List.rdropWhile_singleton, ha]
  | append_singleton l b ih =>
      rw [← List.cons_append, List.rdropWhile_concat, List.rdropWhile_concat, ih]
      split <;> rfl

/-- What stripping leaves of text that is not blank starts with a character
    that is not white space. -/
theorem requiredText_strip {value : String} (h : isBlank value = false) :
    RequiredText (strip value) := by
  have hkept : value.toList.dropWhile isSpace ≠ [] := by
    intro hnil
    rw [List.dropWhile_eq_nil_iff] at hnil
    rw [isBlank, List.all_eq_true.mpr hnil] at h
    cases h
  have hhead := List.head_dropWhile_not isSpace hkept
  obtain ⟨c, rest, hcons⟩ := List.exists_cons_of_ne_nil hkept
  simp only [hcons, List.head_cons] at hhead
  have hlist : (strip value).toList = c :: rest.rdropWhile isSpace := by
    rw [toList_strip, hcons, rdropWhile_cons_of_not (by rw [hhead]; exact Bool.false_ne_true)]
  constructor
  · rw [← String.toList_inj, toList_strip, hlist, List.dropWhile_cons, hhead]
    rw [if_neg Bool.false_ne_true, rdropWhile_cons_of_not (by rw [hhead]; exact Bool.false_ne_true),
      List.rdropWhile_idempotent]
  · rw [isBlank, hlist, List.all_cons, hhead, Bool.false_and]

/-- A membership application changed only through allowed domain operations. -/
@[ext]
structure MemberApplication where
  applicationId : String
  applicantName : String
  residentialRegion : String
  status : ApplicationStatus
  eligibilityStatus : EligibilityStatus
  identityVerificationStatus : IdentityVerificationStatus
  rejectionReason : Option RejectionReason
  history : List TransitionRecord
  applicationId_required : RequiredText applicationId
  applicantName_required : RequiredText applicantName
  residentialRegion_required : RequiredText residentialRegion

instance : DecidableEq MemberApplication :=
  fun _ _ => decidable_of_iff _ MemberApplication.ext_iff.symm

namespace MemberApplication

/-- `_required_text`. -/
def requiredText (value fieldName : String) : Except ApplicationError {text // RequiredText text} :=
  if h : isBlank value then
    .error (.applicationValidation (fieldName ++ " cannot be blank"))
  else
    .ok ⟨strip value, requiredText_strip (nonblank_of_not h)⟩

def new (applicationId applicantName residentialRegion : String) :
    Except ApplicationError MemberApplication := do
  let ⟨applicationId, applicationId_required⟩ ← requiredText applicationId "application identifier"
  let ⟨applicantName, applicantName_required⟩ ← requiredText applicantName "applicant name"
  let ⟨residentialRegion, residentialRegion_required⟩ ←
    requiredText residentialRegion "residential region"
  return {
    applicationId, applicantName, residentialRegion
    status := .draft
    eligibilityStatus := .notEvaluated
    identityVerificationStatus := .notStarted
    rejectionReason := none
    history := [⟨1, .created, ApplicationStatus.draft.value⟩]
    applicationId_required, applicantName_required, residentialRegion_required }

/-- `_require_status`. -/
def requireStatus (expected : ApplicationStatus) (operation : String) :
    EStateM ApplicationError MemberApplication Unit := do
  let self ← get
  if self.status ≠ expected then
    throw (.invalidTransition
      ("cannot " ++ operation ++ " application while status is " ++ self.status.value))

/-- `_record`. -/
def record (event : ApplicationEvent) (detail : String) :
    EStateM ApplicationError MemberApplication Unit :=
  modify fun self =>
    { self with history := self.history ++ [⟨self.history.length + 1, event, detail⟩] }

def submit : EStateM ApplicationError MemberApplication Unit := do
  requireStatus .draft "submit"
  modify fun self => { self with status := .submitted }
  record .submitted ApplicationStatus.submitted.value

def beginReview : EStateM ApplicationError MemberApplication Unit := do
  requireStatus .submitted "begin review for"
  modify fun self => { self with status := .underReview }
  record .reviewStarted ApplicationStatus.underReview.value

/-- Apply the fixed, fictional service-region eligibility rule. -/
def evaluateEligibility : EStateM ApplicationError MemberApplication EligibilityStatus := do
  requireStatus .underReview "evaluate eligibility for"
  let self ← get
  if self.eligibilityStatus ≠ .notEvaluated then
    throw (.invalidTransition "eligibility has already been evaluated")
  let eligibilityStatus : EligibilityStatus :=
    if self.residentialRegion ∈ eligibleRegions then .eligible else .ineligible
  modify fun self => { self with eligibilityStatus }
  record .eligibilityEvaluated eligibilityStatus.value
  return eligibilityStatus

def recordIdentityVerification (result : IdentityVerificationStatus) :
    EStateM ApplicationError MemberApplication Unit := do
  requireStatus .underReview "record identity verification for"
  if result = .notStarted then
    throw (.applicationValidation "identity verification result must be Passed or Failed")
  let self ← get
  if self.identityVerificationStatus ≠ .notStarted then
    throw (.invalidTransition "identity verification has already been recorded")
  modify fun self => { self with identityVerificationStatus := result }
  record .identityVerificationRecorded result.value

def approve : EStateM ApplicationError MemberApplication Unit := do
  requireStatus .underReview "approve"
  let self ← get
  if self.eligibilityStatus ≠ .eligible then
    throw (.invalidTransition "approval requires eligible status")
  if self.identityVerificationStatus ≠ .passed then
    throw (.invalidTransition "approval requires passed identity verification")
  modify fun self => { self with status := .approved, rejectionReason := none }
  record .approved ApplicationStatus.approved.value

def reject (reason : Option RejectionReason) : EStateM ApplicationError MemberApplication Unit := do
  requireStatus .underReview "reject"
  match reason with
  | none => throw (.applicationValidation "rejection requires a reason")
  | some reason =>
      let self ← get
      if reason = .ineligible ∧ self.eligibilityStatus ≠ .ineligible then
        throw (.invalidTransition "ineligible rejection requires ineligible status")
      if reason = .identityVerificationFailed ∧ self.identityVerificationStatus ≠ .failed then
        throw (.invalidTransition "identity-verification rejection requires a failed result")
      modify fun self => { self with status := .rejected, rejectionReason := some reason }
      record .rejected reason.value

/-- An operation with its argument. -/
inductive Call
  | submit
  | beginReview
  | evaluateEligibility
  | recordIdentityVerification (result : IdentityVerificationStatus)
  | approve
  | reject (reason : Option RejectionReason)
  deriving DecidableEq, Repr

/-- Make a call, its result thrown away. -/
def exec : Call → EStateM ApplicationError MemberApplication Unit
  | .submit => submit
  | .beginReview => beginReview
  | .evaluateEligibility => do let _ ← evaluateEligibility
  | .recordIdentityVerification result => recordIdentityVerification result
  | .approve => approve
  | .reject reason => reject reason

/-- Run a script on an application. -/
def scripted (script : EStateM ApplicationError MemberApplication Unit)
    (application : MemberApplication) : Except ApplicationError MemberApplication :=
  match script.run application with
  | .ok _ application => .ok application
  | .error e _ => .error e

end MemberApplication

open MemberApplication

def successfulOnboarding : Except ApplicationError MemberApplication := do
  let application ← new "HCCU-0001" "Alex Harbor" "Hampton Roads"
  application.scripted do
    submit
    beginReview
    let _ ← evaluateEligibility
    recordIdentityVerification .passed
    approve

def ineligibleOnboarding : Except ApplicationError MemberApplication := do
  let application ← new "HCCU-0002" "Morgan Bay" "Northern Virginia"
  application.scripted do
    submit
    beginReview
    let _ ← evaluateEligibility
    reject (some .ineligible)

def failedVerificationOnboarding : Except ApplicationError MemberApplication := do
  let application ← new "HCCU-0003" "Taylor Shoal" "Hampton Roads"
  application.scripted do
    submit
    beginReview
    let _ ← evaluateEligibility
    recordIdentityVerification .failed
    reject (some .identityVerificationFailed)

end BankSim
