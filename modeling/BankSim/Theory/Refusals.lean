import BankSim.Theory.Ach
import BankSim.Theory.Conservation

/-!
# What the Ledger Objects to

The ledger numbers its own entries, so an entry that a workflow builds is
refused for one of two reasons only. Its identifier is taken, or its time is
before that of the last entry. Everything else that can go wrong goes wrong
before the ledger is asked, and with another message.

`Operation.Presents` is how far an operation has to come for the ledger to be
asked, and `operation_error_iff` says that the two refusals are then decided
by identifiers and times alone. A transfer asks for two entries at once. The
second is one later than the first and has another identifier, so it can only
be refused for its own.

## Main definitions

* `Ledger.objection`: What the ledger has against an identifier and a time.
* `Operation.Presents`: The operation comes to present its entries.
* `Operation.entryIds`: The identifiers of its entries.
* `Operation.objection`: What the ledger has against its entries.

## Theorems

* `Posting.post_error_iff`: When a posting is refused, and why.
* `operation_error_iff`: When an operation is refused, and why.
* `objection_taken_iff`, `objection_backward_iff`: The two reasons.
-/

namespace BankSim

open Exec

/-- The refusal of an identifier that the ledger has already. -/
def idTaken : Raised :=
  ledgerError "entry identifier must be unique"

/-- The refusal of a time before that of the last entry. -/
def timeBackward : Raised :=
  ledgerError "posting time cannot move backward"

/-- One of the two refusals. -/
def Raised.Objects (e : Raised) : Prop :=
  e = idTaken ∨ e = timeBackward

instance : DecidablePred Raised.Objects :=
  fun _ => inferInstanceAs (Decidable (_ ∨ _))

/-! ### Errors from before the ledger is asked -/

theorem Money.not_objects {cents : Int} {e : Raised} (h : Money.new cents = .error e) :
    ¬ e.Objects := by
  unfold Money.new at h
  split_ifs at h
  cases h
  decide

theorem LedgerEntry.not_objects {entryId accountId description : String} {amount : Money}
    {entryType : EntryType} {sequence postedAt : Int}
    {originalTransferId achReturnId : Option String} {e : Raised}
    (h : LedgerEntry.new entryId accountId amount entryType description sequence postedAt
      originalTransferId achReturnId = .error e) : ¬ e.Objects := by
  unfold LedgerEntry.new at h
  split_ifs at h <;> cases h <;> decide

theorem sumPending_not_objects {pending : List PendingTransaction} {expected : Int}
    {seenIds : List String} {debits credits : Int} {e : Raised}
    (h : sumPending pending expected seenIds debits credits = .error e) : ¬ e.Objects := by
  induction pending generalizing expected seenIds debits credits with
  | nil => cases h
  | cons transaction pending ih =>
      rw [sumPending] at h
      split_ifs at h
      · cases h
        decide
      · cases h
        decide
      · cases hkind : transaction.transactionType <;> rw [hkind] at h <;> exact ih h

theorem replayFrom_not_objects {entries : List LedgerEntry} {expected balance : Int} {e : Raised}
    (h : replayFrom expected balance entries = .error e) : ¬ e.Objects := by
  induction entries generalizing expected balance with
  | nil => cases h
  | cons entry entries ih =>
      rw [replayFrom] at h
      split_ifs at h
      · cases h
        decide
      · exact ih h

theorem projectBalances_not_objects {ledger : Ledger} {pending : List PendingTransaction}
    {e : Raised} (h : projectBalances ledger pending = .error e) : ¬ e.Objects := by
  unfold projectBalances at h
  cases hsum : sumPending pending 1 [] 0 0 with
  | error e' =>
      rw [hsum] at h
      cases h
      exact sumPending_not_objects hsum
  | ok totals =>
      rw [hsum] at h
      cases hreplay : replay ledger.entries with
      | error e' =>
          rw [hreplay] at h
          cases h
          exact replayFrom_not_objects hreplay
      | ok current =>
          rw [hreplay] at h
          cases h

/-! ### One entry -/

namespace Ledger

/-- What the ledger has against the next entry, of which only the identifier
    and the time matter. -/
def objection (ledger : Ledger) (entryId : String) (postedAt : Int) : Option Raised :=
  if entryId ∈ ledger.entryIds then some idTaken
  else if postedAt < ledger.lastPostedAt then some timeBackward
  else none

theorem refusal_eq_objection {ledger : Ledger} {entry : LedgerEntry}
    (h : entry.sequence = ledger.entries.length + 1) :
    ledger.refusal entry = ledger.objection entry.entryId entry.postedAt := by
  rw [refusal, if_neg (not_not.mpr h)]
  rfl

end Ledger

namespace Posting

/-- The data is valid in itself: an empty ledger accepts it. -/
def Valid (posting : Posting) : Prop :=
  posting.Fits Ledger.new

instance (posting : Posting) : Decidable posting.Valid :=
  inferInstanceAs (Decidable (posting.Fits Ledger.new))

variable {posting : Posting} {ledger : Ledger}

/-- The entry that a valid posting is built into, whether or not the ledger
    accepts it. -/
def built (h : posting.Valid) (ledger : Ledger) : LedgerEntry :=
  { entry h with sequence := ledger.entries.length + 1, sequence_pos := ledger.next_sequence_pos }

/-- A valid posting comes to be looked at by the ledger. -/
theorem post_of_valid (h : posting.Valid) : posting.post.run ledger =
    match ledger.objection posting.entryId posting.postedAt with
    | some e => .error e ledger
    | none => .ok () (ledger.push (built h ledger)) := by
  rw [post, run_bind_get, run_bind_lift_ok (Money.new_of_pos posting.cents h.cents_pos)]
  refine (run_bind_lift_ok (LedgerEntry.new_self (built h ledger))).trans ?_
  rw [Ledger.append_run, Ledger.refusal_eq_objection rfl]
  rfl

/-- A posting is refused for its identifier or its time exactly when it is
    valid in itself and the ledger has that against it. -/
theorem post_error_iff {e : Raised} (he : e.Objects) :
    outcome posting.post ledger = .error e ↔
      posting.Valid ∧ ledger.objection posting.entryId posting.postedAt = some e := by
  by_cases hvalid : posting.Valid
  · rw [outcome, post_of_valid hvalid]
    cases ledger.objection posting.entryId posting.postedAt with
    | some e' => simp [hvalid]
    | none => simp
  · -- The constructors raised something else.
    refine iff_of_false (fun herror => ?_) fun h => hvalid h.1
    cases hrun : posting.post.run ledger with
    | ok a final =>
        rw [outcome, hrun] at herror
        cases herror
    | error e' final =>
        rw [outcome, hrun] at herror
        cases herror
        rw [post, run_bind_get] at hrun
        cases hmoney : Money.new posting.cents with
        | error e' =>
            rw [hmoney, run_bind_lift_error rfl] at hrun
            cases hrun
            exact Money.not_objects hmoney he
        | ok amount =>
            rw [run_bind_lift_ok hmoney] at hrun
            cases hbuilt : LedgerEntry.new posting.entryId posting.accountId amount
                posting.entryType posting.description (ledger.entries.length + 1) posting.postedAt
                posting.originalTransferId posting.achReturnId with
            | error e' =>
                rw [run_bind_lift_error hbuilt] at hrun
                cases hrun
                exact LedgerEntry.not_objects hbuilt he
            | ok built =>
                have hpostedAt : built.postedAt = posting.postedAt :=
                  ((LedgerEntry.new_ok_iff _ _ _ _ _ _ _ _ _ _).mp hbuilt).2.2.2.2.2.2.1
                exact hvalid (fits_of_built hmoney hbuilt (Finset.notMem_empty _)
                  (hpostedAt ▸ built.postedAt_nonneg))

end Posting

/-! ### Operations -/

/-- What the ledger has against entries with these identifiers, the first of
    them posted at the given time and each of the others one later. -/
def Ledger.objections : Finset String → Int → Int → List String → Option Raised
  | _, _, _, [] => none
  | ids, last, postedAt, entryId :: entryIds =>
      if entryId ∈ ids then some idTaken
      else if postedAt < last then some timeBackward
      else objections (insert entryId ids) postedAt (postedAt + 1) entryIds

/-- Two entries that are numbered and timed one after the other are refused for
    what the ledger has against them. -/
theorem Ledger.firstRefusal_pair {ledger : Ledger} {debit credit : LedgerEntry}
    (hdebit : debit.sequence = ledger.entries.length + 1)
    (hcredit : credit.sequence = ledger.entries.length + 1 + 1)
    (hposted : credit.postedAt = debit.postedAt + 1) :
    Guarded.firstRefusal refusal push ledger [debit, credit]
      = objections ledger.entryIds ledger.lastPostedAt debit.postedAt
          [debit.entryId, credit.entryId] := by
  have hsecond : credit.sequence = (ledger.push debit).entries.length + 1 := by
    rw [push_entries, List.length_append, List.length_singleton, hcredit]
    push_cast
    rfl
  rw [Guarded.firstRefusal, refusal_eq_objection hdebit, objection, objections]
  split_ifs with hid hlast
  · rfl
  · rfl
  · change Guarded.firstRefusal refusal push (ledger.push debit) [credit] = _
    rw [Guarded.firstRefusal, refusal_eq_objection hsecond, objection, push_entryIds,
      push_lastPostedAt, hposted, objections]
    split_ifs <;> rfl

namespace Operation

/-- The operation comes to present its entries to the ledger: there are funds
    for it, and the text of its entries is not blank. -/
def Presents (ledger : Ledger) : Operation → Prop
  | .postDeposit request => isBlank (orDefault request.description "Deposit") = false
  | .processWithdrawal request pending =>
      (∃ projection, projectBalances ledger pending = .ok projection ∧
        request.amountCents ≤ projection.availableBalance) ∧
      isBlank (orDefault request.description "Withdrawal") = false
  | .processTransfer request =>
      request.amountCents ≤ accountBalance ledger request.sourceAccountId ∧
      isBlank (orDefault request.description "Internal transfer") = false

/-- The identifiers of the entries that the operation presents. -/
def entryIds : Operation → List String
  | .postDeposit request => [request.depositId ++ "-ENTRY"]
  | .processWithdrawal request _ => [request.withdrawalId ++ "-ENTRY"]
  | .processTransfer request => [request.transferId ++ "-DEBIT", request.transferId ++ "-CREDIT"]

/-- What the ledger has against the entries that the operation presents. -/
def objection (ledger : Ledger) (op : Operation) : Option Raised :=
  Ledger.objections ledger.entryIds ledger.lastPostedAt (ledger.entries.length + 1) op.entryIds

end Operation

theorem postOne_error_iff {entryId accountId description : String} {cents : Int}
    {entryType : EntryType} {ledger : Ledger} {e : Raised} (he : e.Objects) (hcents : 0 < cents)
    (hid : isBlank entryId = false) (hac : isBlank accountId = false) :
    outcome (postOne entryId accountId cents entryType description) ledger = .error e ↔
      isBlank description = false ∧
        ledger.objection entryId (ledger.entries.length + 1) = some e := by
  rw [outcome, postOne, run_bind_get, ← outcome, Posting.post_error_iff he]
  refine and_congr_left fun _ => ⟨fun hvalid => hvalid.description_nonblank, fun hde => ?_⟩
  have hpostedAt : (0 : Int) ≤ ledger.entries.length + 1 := by omega
  exact
    { cents_pos := hcents, entryId_nonblank := hid, accountId_nonblank := hac
      description_nonblank := hde, postedAt_nonneg := hpostedAt
      originalTransferId_nonblank := rfl, achReturnId_nonblank := rfl
      fresh := Finset.notMem_empty _, last_le := hpostedAt }

/-- An entry that is complete but for its text can be built exactly when the
    text is not blank. -/
theorem LedgerEntry.new_returns_iff {entryId accountId description : String} {amount : Money}
    {entryType : EntryType} {sequence postedAt : Int} (hid : isBlank entryId = false)
    (hac : isBlank accountId = false) (hse : 0 < sequence) (hpo : 0 ≤ postedAt) :
    (∃ entry, LedgerEntry.new entryId accountId amount entryType description sequence postedAt
      = .ok entry) ↔ isBlank description = false := by
  constructor
  · rintro ⟨entry, hentry⟩
    have hde := ((LedgerEntry.new_ok_iff _ _ _ _ _ _ _ _ _ _).mp hentry).2.2.2.2.1
    exact hde ▸ entry.description_nonblank
  · intro hde
    let entry : LedgerEntry := ⟨entryId, accountId, amount, entryType, description, sequence,
      postedAt, none, none, hid, hac, hde, hse, hpo, rfl, rfl⟩
    exact ⟨entry, entry.new_self⟩

/-- A deposit is refused for what the ledger has against its entry, if its text
    is not blank. -/
theorem postDeposit_error_iff {request : DepositRequest} {ledger : Ledger} {e : Raised}
    (he : e.Objects) : outcome (postDeposit request) ledger = .error e ↔
      (Operation.postDeposit request).Presents ledger ∧
        (Operation.postDeposit request).objection ledger = some e := by
  rw [postDeposit_eq]
  refine outcome_bind_pure_error_iff.trans ((postOne_error_iff he request.amountCents_pos
    (isBlank_append_of_suffix _ _ (by decide)) request.accountId_nonblank).trans ?_)
  rfl

/-- A withdrawal is, if there are funds for it as well. -/
theorem processWithdrawal_error_iff {request : WithdrawalRequest}
    {pending : List PendingTransaction} {ledger : Ledger} {e : Raised} (he : e.Objects) :
    outcome (processWithdrawal request pending) ledger = .error e ↔
      (Operation.processWithdrawal request pending).Presents ledger ∧
        (Operation.processWithdrawal request pending).objection ledger = some e := by
  rw [outcome, processWithdrawal_eq]
  cases hproject : projectBalances ledger pending with
  | error e' =>
      refine iff_of_false (fun herror => ?_) ?_
      · cases herror
        exact projectBalances_not_objects hproject he
      · rintro ⟨⟨⟨projection, hsome, -⟩, -⟩, -⟩
        cases hproject.symm.trans hsome
  | ok projection =>
      by_cases hfunds : request.amountCents > projection.availableBalance
      · simp only [hfunds, if_true]
        refine iff_of_false (fun herror => by cases herror) ?_
        rintro ⟨⟨⟨other, hsome, hcovered⟩, -⟩, -⟩
        cases hproject.symm.trans hsome
        exact absurd hcovered (not_le.mpr hfunds)
      · simp only [hfunds, if_false]
        refine outcome_bind_pure_error_iff.trans ((postOne_error_iff he request.amountCents_pos
          (isBlank_append_of_suffix _ _ (by decide)) request.accountId_nonblank).trans ?_)
        refine and_congr_left fun _ => ⟨fun hde => ?_, fun h => h.2⟩
        exact ⟨⟨projection, hproject, not_lt.mp hfunds⟩, hde⟩

/-- A transfer is refused for what the ledger has against its two entries, if
    there are funds for it and its text is not blank. -/
theorem processTransfer_error_iff {request : TransferRequest} {ledger : Ledger} {e : Raised}
    (he : e.Objects) : outcome (processTransfer request) ledger = .error e ↔
      (Operation.processTransfer request).Presents ledger ∧
        (Operation.processTransfer request).objection ledger = some e := by
  by_cases hfunds : request.amountCents > accountBalance ledger request.sourceAccountId
  · rw [outcome, processTransfer_rejects request ledger hfunds]
    refine iff_of_false (fun herror => by cases herror) ?_
    rintro ⟨⟨hcovered, -⟩, -⟩
    exact absurd hcovered (not_le.mpr hfunds)
  have hmoney := Money.new_of_pos request.amountCents request.amountCents_pos
  have hdebit := @LedgerEntry.new_returns_iff (request.transferId ++ "-DEBIT")
    request.sourceAccountId (orDefault request.description "Internal transfer")
    ⟨request.amountCents, request.amountCents_pos⟩ .debit (ledger.entries.length + 1)
    (ledger.entries.length + 1) (isBlank_append_of_suffix _ _ (by decide))
    request.sourceAccountId_nonblank (by omega) (by omega)
  have hcredit := @LedgerEntry.new_returns_iff (request.transferId ++ "-CREDIT")
    request.destinationAccountId (orDefault request.description "Internal transfer")
    ⟨request.amountCents, request.amountCents_pos⟩ .credit (ledger.entries.length + 1 + 1)
    (ledger.entries.length + 1 + 1) (isBlank_append_of_suffix _ _ (by decide))
    request.destinationAccountId_nonblank (by omega) (by omega)
  by_cases hde : isBlank (orDefault request.description "Internal transfer") = false
  · rcases hdebit.mpr hde with ⟨debit, hdebit⟩
    rcases hcredit.mpr hde with ⟨credit, hcredit⟩
    rw [outcome, processTransfer, run_bind_get]
    simp only [hfunds, if_false, run_bind_lift_ok hmoney, run_bind_lift_ok hdebit,
      run_bind_lift_ok hcredit]
    rcases (LedgerEntry.new_ok_iff _ _ _ _ _ _ _ _ _ _).mp hdebit with
      ⟨hdid, -, -, -, -, hdse, hdpo, -, -⟩
    rcases (LedgerEntry.new_ok_iff _ _ _ _ _ _ _ _ _ _).mp hcredit with
      ⟨hcid, -, -, -, -, hcse, hcpo, -, -⟩
    have hpair := Ledger.firstRefusal_pair hdse hcse (by rw [hcpo, hdpo])
    rw [hdpo, hdid, hcid] at hpair
    refine outcome_bind_pure_error_iff.trans ?_
    rw [Ledger.appendBatch_eq_together _ (List.cons_ne_nil _ _), outcome, Guarded.together_run,
      hpair, Operation.objection, Operation.entryIds]
    have hpresents : (Operation.processTransfer request).Presents ledger :=
      ⟨not_lt.mp hfunds, hde⟩
    rw [and_iff_right hpresents]
    cases Ledger.objections ledger.entryIds ledger.lastPostedAt (ledger.entries.length + 1)
        [request.transferId ++ "-DEBIT", request.transferId ++ "-CREDIT"] with
    | some e' => simp
    | none => simp
  · -- The first of the two constructors raises.
    refine iff_of_false (fun herror => ?_) fun h => hde h.1.2
    cases hbuilt : LedgerEntry.new (request.transferId ++ "-DEBIT") request.sourceAccountId
        ⟨request.amountCents, request.amountCents_pos⟩ .debit
        (orDefault request.description "Internal transfer") (ledger.entries.length + 1)
        (ledger.entries.length + 1) with
    | ok debit => exact hde (hdebit.mp ⟨debit, hbuilt⟩)
    | error e' =>
        rw [outcome, processTransfer, run_bind_get] at herror
        simp only [hfunds, if_false, run_bind_lift_ok hmoney, run_bind_lift_error hbuilt] at herror
        cases herror
        exact LedgerEntry.not_objects hbuilt he

/-- An operation is refused for an identifier or a time exactly when it comes
    to present its entries and the ledger has that against them. -/
theorem operation_error_iff (op : Operation) {ledger : Ledger} {e : Raised} (he : e.Objects) :
    outcome op.exec ledger = .error e ↔ op.Presents ledger ∧ op.objection ledger = some e := by
  cases op with
  | postDeposit request => exact outcome_bind_pure_error_iff.trans (postDeposit_error_iff he)
  | processWithdrawal request pending =>
      exact outcome_bind_pure_error_iff.trans (processWithdrawal_error_iff he)
  | processTransfer request =>
      exact outcome_bind_pure_error_iff.trans (processTransfer_error_iff he)

/-! ### The two reasons -/

namespace Ledger

variable {ids : Finset String} {last postedAt : Int} {entryId : String} {entryIds : List String}

/-- Entries that are not too early are refused exactly when one of their
    identifiers is taken. -/
theorem objections_taken_iff (hlast : last ≤ postedAt) (hnodup : entryIds.Nodup) :
    objections ids last postedAt entryIds = some idTaken ↔ ∃ entryId ∈ entryIds, entryId ∈ ids := by
  induction entryIds generalizing ids last postedAt with
  | nil => simp [objections]
  | cons entryId entryIds ih =>
      rw [objections, if_neg (not_lt.mpr hlast)]
      by_cases hid : entryId ∈ ids
      · rw [if_pos hid]
        exact iff_of_true rfl ⟨entryId, List.mem_cons_self, hid⟩
      · rw [if_neg hid, ih (by omega) (List.nodup_cons.mp hnodup).2]
        -- The identifier that has just been added is not repeated.
        constructor
        · rintro ⟨other, hmem, hother⟩
          rcases Finset.mem_insert.mp hother with rfl | hother
          · exact absurd hmem (List.nodup_cons.mp hnodup).1
          · exact ⟨other, List.mem_cons_of_mem _ hmem, hother⟩
        · rintro ⟨other, hmem, hother⟩
          rcases List.mem_cons.mp hmem with rfl | hmem
          · exact absurd hother hid
          · exact ⟨other, hmem, Finset.mem_insert_of_mem hother⟩

/-- Entries whose first is not too early are not refused for a time. -/
theorem objections_ne_backward (hlast : last ≤ postedAt) :
    objections ids last postedAt entryIds ≠ some timeBackward := by
  induction entryIds generalizing ids last postedAt with
  | nil => exact fun h => nomatch h
  | cons entryId entryIds ih =>
      rw [objections, if_neg (not_lt.mpr hlast)]
      split_ifs
      · decide
      · exact ih (by omega)

/-- Entries are refused for a time exactly when the first of them is too early
    and its identifier is new. -/
theorem objections_backward_iff :
    objections ids last postedAt (entryId :: entryIds) = some timeBackward ↔
      entryId ∉ ids ∧ postedAt < last := by
  rw [objections]
  split_ifs with hid hlast
  · exact iff_of_false (by decide) fun h => h.1 hid
  · exact iff_of_true rfl ⟨hid, hlast⟩
  · exact iff_of_false (objections_ne_backward (by omega)) fun h => hlast h.2

theorem objection_backward_iff {ledger : Ledger} :
    ledger.objection entryId postedAt = some timeBackward ↔
      entryId ∉ ledger.entryIds ∧ postedAt < ledger.lastPostedAt :=
  @objections_backward_iff _ _ _ _ []

end Ledger

end BankSim
