import BankSim.Theory.Refusals

/-!
# Operations That Derive the Same Entry

A workflow derives the identifiers of its entries from that of its request.
A transfer has two suffixes of its own, but deposits and withdrawals have the
same one, and what tells a deposit from a withdrawal does not reach the
identifier of the entry. The ledger takes an identifier once.

The ledger of a run holds the identifiers derived by the operations that
posted, and no others. When no two deposits have the same identifier, and no
two withdrawals and no two transfers, then an operation is refused for its
identifier exactly when it is the twin of an operation that has posted: a
deposit with the identifier of a withdrawal, or the other way about.

## Main definitions

* `Operation.postedFrom`: The operations of a run that post.
* `Operation.Twin`: A deposit and a withdrawal with one identifier.
* `Operation.IdsDistinct`: Requests of one kind have distinct identifiers.

## Theorems

* `mem_entryIds_after`: The identifiers an operation adds to the ledger.
* `mem_entryIds_finalState`: The identifiers a run adds.
* `shares_iff_twin`: The operations that derive a common identifier.
* `entryIds_collide_iff`: When an operation of a run is refused for one.
-/

namespace BankSim

open Exec

namespace Operation

/-- The operation returns with its entries posted. -/
def posted (op : Operation) (ledger : Ledger) : Bool :=
  match outcome op.exec ledger with
  | .ok (.deposit deposit) => deposit.status = .posted
  | .ok (.withdrawal withdrawal) => withdrawal.status = .posted
  | .ok (.transfer result) => result.transfer.status = .posted
  | .error _ => false

/-- The operations that post in a run from this ledger. -/
def postedFrom : Ledger → List Operation → List Operation
  | _, [] => []
  | ledger, op :: ops =>
      if op.posted ledger then op :: postedFrom (after op.exec ledger) ops
      else postedFrom (after op.exec ledger) ops

def depositId : Operation → Option String
  | .postDeposit request => some request.depositId
  | _ => none

def withdrawalId : Operation → Option String
  | .processWithdrawal request _ => some request.withdrawalId
  | _ => none

def transferId : Operation → Option String
  | .processTransfer request => some request.transferId
  | _ => none

/-- Requests of one kind have distinct identifiers. -/
structure IdsDistinct (ops : List Operation) : Prop where
  deposits : (ops.filterMap depositId).Nodup
  withdrawals : (ops.filterMap withdrawalId).Nodup
  transfers : (ops.filterMap transferId).Nodup

/-- A deposit and a withdrawal whose requests have the same identifier. -/
def Twin : Operation → Operation → Prop
  | .postDeposit deposit, .processWithdrawal withdrawal _ =>
      deposit.depositId = withdrawal.withdrawalId
  | .processWithdrawal withdrawal _, .postDeposit deposit =>
      withdrawal.withdrawalId = deposit.depositId
  | _, _ => False

instance : DecidableRel Twin
  | .postDeposit _, .processWithdrawal _ _ => inferInstanceAs (Decidable (_ = _))
  | .processWithdrawal _ _, .postDeposit _ => inferInstanceAs (Decidable (_ = _))
  | .postDeposit _, .postDeposit _ => isFalse id
  | .postDeposit _, .processTransfer _ => isFalse id
  | .processWithdrawal _ _, .processWithdrawal _ _ => isFalse id
  | .processWithdrawal _ _, .processTransfer _ => isFalse id
  | .processTransfer _, .postDeposit _ => isFalse id
  | .processTransfer _, .processWithdrawal _ _ => isFalse id
  | .processTransfer _, .processTransfer _ => isFalse id

/-! ### The identifiers in the ledger -/

/-- Posting one entry adds its identifier. -/
theorem mem_entryIds_posts {ledger final : Ledger} {entryId accountId : String} {cents : Int}
    {entryType : EntryType} (h : Posts ledger final entryId accountId cents entryType)
    (other : String) : other ∈ final.entryIds ↔ other ∈ ledger.entryIds ∨ other = entryId := by
  rcases h with ⟨entry, -, rfl, rfl, -⟩
  rw [Ledger.push_entryIds, Finset.mem_insert, or_comm]

/-- An operation that posts adds the identifiers of its entries, and any other
    adds none. -/
theorem mem_entryIds_after (op : Operation) (ledger : Ledger) (entryId : String) :
    entryId ∈ (after op.exec ledger).entryIds ↔
      entryId ∈ ledger.entryIds ∨ op.posted ledger ∧ entryId ∈ op.entryIds := by
  rcases operation_cases op ledger with ⟨e, hout, hsame⟩ | ⟨request, deposit, rfl, hout, hrun⟩ |
    ⟨request, pending, withdrawal, rfl, hout, hrun⟩ | ⟨request, result, rfl, hout, hrun⟩
  · rw [posted, hout, hsame]
    simp
  · rcases postDeposit_ok request _ _ deposit hrun with ⟨rfl, hposts⟩
    rw [mem_entryIds_posts hposts, posted, hout, entryIds]
    simp
  · rcases (processWithdrawal_ok request pending _ _ withdrawal hrun).2 with
      ⟨hstatus, hsame⟩ | ⟨hstatus, -, hposts, -⟩
    · rw [posted, hout, hsame]
      simp [hstatus]
    · rw [mem_entryIds_posts hposts, posted, hout, entryIds]
      simp [hstatus]
  · by_cases hfunds : request.amountCents > accountBalance ledger request.sourceAccountId
    · rw [processTransfer_rejects request ledger hfunds, EStateM.Result.ok.injEq] at hrun
      rw [posted, hout, ← hrun.1, ← hrun.2]
      simp
    · rcases processTransfer_posts request _ _ result hfunds hrun with
        ⟨hstatus, debit, credit, -, -, hfinal, hdid, -, -, -, hcid, -, -, -⟩
      rw [hfinal, Ledger.push_entryIds, Ledger.push_entryIds, hdid, hcid, posted, hout, entryIds]
      simp only [Finset.mem_insert, hstatus, decide_true, true_and, List.mem_cons,
        List.not_mem_nil, or_false]
      tauto

/-- The ledger after a run holds the identifiers it held before and those of
    the operations that posted. -/
theorem mem_entryIds_finalState (ops : List Operation) (ledger : Ledger) (entryId : String) :
    entryId ∈ (finalState exec ledger ops).entryIds ↔
      entryId ∈ ledger.entryIds ∨ ∃ op ∈ postedFrom ledger ops, entryId ∈ op.entryIds := by
  induction ops generalizing ledger with
  | nil => simp [postedFrom]
  | cons op ops ih =>
      rw [finalState_cons, ih, mem_entryIds_after, postedFrom, or_assoc]
      by_cases hposted : op.posted ledger
      · simp [hposted]
      · simp [hposted]

theorem postedFrom_sublist (ops : List Operation) (ledger : Ledger) :
    (postedFrom ledger ops).Sublist ops := by
  induction ops generalizing ledger with
  | nil => exact List.Sublist.refl _
  | cons op ops ih =>
      rw [postedFrom]
      split_ifs
      · exact (ih _).cons_cons op
      · exact (ih _).cons op

/-! ### The operations that collide -/

/-- What occurs once in a list has not occurred before. -/
theorem ne_of_earlier {f : Operation → Option String} {earlier later : List Operation}
    {op other : Operation} {requestId : String}
    (hnodup : ((earlier ++ op :: later).filterMap f).Nodup) (hmem : other ∈ earlier)
    (hop : f op = some requestId) : f other ≠ some requestId := by
  intro hother
  rw [List.filterMap_append, List.filterMap_cons_some hop] at hnodup
  exact List.disjoint_of_nodup_append hnodup (List.mem_filterMap.mpr ⟨other, hmem, hother⟩)
    List.mem_cons_self

/-- Deposits and withdrawals derive one identifier from one identifier. -/
theorem shares_entry_iff (a b : String) :
    (∃ entryId ∈ [a ++ "-ENTRY"], entryId ∈ [b ++ "-ENTRY"]) ↔ a = b := by
  simp only [List.mem_singleton, exists_eq_left]
  exact ⟨append_suffix_inj, fun h => by rw [h]⟩

/-- Transfers have suffixes of their own. -/
theorem shares_none (a b : String) :
    ¬ ∃ entryId ∈ [a ++ "-ENTRY"], entryId ∈ [b ++ "-DEBIT", b ++ "-CREDIT"] := by
  have hdebit : a ++ "-ENTRY" ≠ b ++ "-DEBIT" :=
    append_suffix_ne a b (by decide) (by decide) (by decide)
  have hcredit : a ++ "-ENTRY" ≠ b ++ "-CREDIT" :=
    append_suffix_ne a b (by decide) (by decide) (by decide)
  simp only [List.mem_cons, List.not_mem_nil, or_false, exists_eq_left]
  exact not_or.mpr ⟨hdebit, hcredit⟩

/-- The debit of one transfer is not the credit of another. -/
theorem shares_pair_iff (a b : String) :
    (∃ entryId ∈ [a ++ "-DEBIT", a ++ "-CREDIT"], entryId ∈ [b ++ "-DEBIT", b ++ "-CREDIT"]) ↔
      a = b := by
  have hsides : ∀ c d : String, c ++ "-DEBIT" ≠ d ++ "-CREDIT" := fun c d =>
    append_suffix_ne c d (by decide) (by decide) (by decide)
  simp only [List.mem_cons, List.not_mem_nil, or_false]
  constructor
  · rintro ⟨entryId, rfl | rfl, hsame | hsame⟩
    · exact append_suffix_inj hsame
    · exact absurd hsame (hsides a b)
    · exact absurd hsame.symm (hsides b a)
    · exact append_suffix_inj hsame
  · rintro rfl
    exact ⟨a ++ "-DEBIT", Or.inl rfl, Or.inl rfl⟩

/-- An operation derives an identifier that an earlier one has derived exactly
    when the two are twins. -/
theorem shares_iff_twin {earlier later : List Operation} {op other : Operation}
    (hdistinct : IdsDistinct (earlier ++ op :: later)) (hmem : other ∈ earlier) :
    (∃ entryId ∈ op.entryIds, entryId ∈ other.entryIds) ↔ op.Twin other := by
  cases op with
  | postDeposit deposit =>
      cases other with
      | postDeposit deposit' =>
          refine iff_of_false (fun h => ?_) id
          refine ne_of_earlier hdistinct.deposits hmem rfl (congrArg some ?_)
          exact ((shares_entry_iff _ _).mp h).symm
      | processWithdrawal withdrawal pending => exact shares_entry_iff _ _
      | processTransfer transfer => exact iff_of_false (shares_none _ _) id
  | processWithdrawal withdrawal pending =>
      cases other with
      | postDeposit deposit => exact shares_entry_iff _ _
      | processWithdrawal withdrawal' pending' =>
          refine iff_of_false (fun h => ?_) id
          refine ne_of_earlier hdistinct.withdrawals hmem rfl (congrArg some ?_)
          exact ((shares_entry_iff _ _).mp h).symm
      | processTransfer transfer => exact iff_of_false (shares_none _ _) id
  | processTransfer transfer =>
      cases other with
      | postDeposit deposit =>
          refine iff_of_false ?_ id
          rintro ⟨entryId, htransfer, hentry⟩
          exact shares_none _ _ ⟨entryId, hentry, htransfer⟩
      | processWithdrawal withdrawal pending =>
          refine iff_of_false ?_ id
          rintro ⟨entryId, htransfer, hentry⟩
          exact shares_none _ _ ⟨entryId, hentry, htransfer⟩
      | processTransfer transfer' =>
          refine iff_of_false (fun h => ?_) id
          refine ne_of_earlier hdistinct.transfers hmem rfl (congrArg some ?_)
          exact ((shares_pair_iff _ _).mp h).symm

theorem nodup_entryIds (op : Operation) : op.entryIds.Nodup := by
  cases op with
  | postDeposit request => exact List.nodup_singleton _
  | processWithdrawal request pending => exact List.nodup_singleton _
  | processTransfer request =>
      refine List.nodup_cons.mpr ⟨fun hmem => ?_, List.nodup_singleton _⟩
      exact append_suffix_ne _ _ (by decide) (by decide) (by decide) (List.mem_singleton.mp hmem)

/-- In a run of deposits, withdrawals and transfers on one new ledger, with
    distinct identifiers among the requests of each kind, an operation is
    refused for its entry identifier exactly when it comes to present its
    entries and an earlier operation has posted that is its twin. -/
theorem entryIds_collide_iff (ops : List Operation) (hdistinct : IdsDistinct ops)
    (earlier : List Operation) (op : Operation) (later : List Operation)
    (hsplit : ops = earlier ++ op :: later) :
    outcome op.exec (finalState exec Ledger.new earlier)
        = .error (ledgerError "entry identifier must be unique") ↔
      op.Presents (finalState exec Ledger.new earlier) ∧
        ∃ other ∈ postedFrom Ledger.new earlier, op.Twin other := by
  subst hsplit
  have hlast := (operated_finalState earlier).posted_le
  refine (operation_error_iff op (Or.inl rfl)).trans (and_congr_right fun _ => ?_)
  refine (Ledger.objections_taken_iff (by omega) op.nodup_entryIds).trans ?_
  -- What the ledger holds was derived by an earlier operation.
  constructor
  · rintro ⟨entryId, hop, hmem⟩
    rcases (mem_entryIds_finalState earlier Ledger.new entryId).mp hmem with
      hempty | ⟨other, hposted, hother⟩
    · exact absurd hempty (Finset.notMem_empty entryId)
    · have hearlier := (postedFrom_sublist earlier Ledger.new).subset hposted
      exact ⟨other, hposted, (shares_iff_twin hdistinct hearlier).mp ⟨entryId, hop, hother⟩⟩
  · rintro ⟨other, hposted, htwin⟩
    have hearlier := (postedFrom_sublist earlier Ledger.new).subset hposted
    rcases (shares_iff_twin hdistinct hearlier).mpr htwin with ⟨entryId, hop, hother⟩
    exact ⟨entryId, hop, (mem_entryIds_finalState earlier Ledger.new entryId).mpr
      (Or.inr ⟨other, hposted, hother⟩)⟩

/-- A deposit of $500.00. -/
def sampleDeposit (depositId : String)
    (hid : isBlank depositId = false := by exact Eq.refl false) : Operation :=
  .postDeposit
    { depositId, accountId := "HCCU-DEMO-001", amountCents := 50000
      description := "Initial deposit", depositId_nonblank := hid }

/-- A withdrawal of $120.00. -/
def sampleWithdrawal (withdrawalId : String)
    (hid : isBlank withdrawalId = false := by exact Eq.refl false) : Operation :=
  .processWithdrawal
    { withdrawalId, accountId := "HCCU-DEMO-001", amountCents := 12000
      description := "Cash withdrawal", withdrawalId_nonblank := hid } []

/-- A withdrawal with an identifier of its own is not refused for it. -/
theorem entryIds_collide_iff_sample :
    IdsDistinct [sampleDeposit "DEP-0001", sampleWithdrawal "WDR-0001"] ∧
      outcome (sampleWithdrawal "WDR-0001").exec
          (finalState exec Ledger.new [sampleDeposit "DEP-0001"])
        ≠ .error (ledgerError "entry identifier must be unique") := by
  have hdistinct : IdsDistinct [sampleDeposit "DEP-0001", sampleWithdrawal "WDR-0001"] :=
    ⟨by decide, by decide, by decide⟩
  have hno : ¬ ∃ other ∈ postedFrom Ledger.new [sampleDeposit "DEP-0001"],
      (sampleWithdrawal "WDR-0001").Twin other := by
    decide
  exact ⟨hdistinct, fun h => hno ((entryIds_collide_iff _ hdistinct _ _ [] rfl).mp h).2⟩

/-- A withdrawal with the identifier of a deposit is. -/
theorem twin_withdrawal_refused :
    IdsDistinct [sampleDeposit "TXN-0001", sampleWithdrawal "TXN-0001"] ∧
      outcome (sampleWithdrawal "TXN-0001").exec
          (finalState exec Ledger.new [sampleDeposit "TXN-0001"])
        = .error (ledgerError "entry identifier must be unique") :=
  ⟨⟨by decide, by decide, by decide⟩, by rfl⟩

end Operation

end BankSim
