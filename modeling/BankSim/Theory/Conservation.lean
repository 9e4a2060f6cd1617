import BankSim.Theory.Operations

/-!
# Runs of Immediate Operations

Deposits, withdrawals and transfers in any order on one ledger, starting
empty, with every exception caught.

The cash law needs no invariant beyond well-formedness: an operation that
returns changes the total by what it reports, and one that raises changes
nothing, so the total of a run is the sum of its reports. Splitting the same
total by account gives the second half of the law.

Solvency of single accounts does not follow. A transfer asks its source
account, but a withdrawal asks the projection of the whole ledger, so it can
spend what another account deposited. `WithdrawalCovered` is the condition on
the state before a withdrawal under which that does not happen: the account
itself covers the amount, or one of the later steps stops the withdrawal
anyway. `solvent_iff_covered` says that it is exact, along every run.

## Main definitions

* `Operation`: A call of one of the three operations.
* `depositedCents`, `withdrawnCents`: What the results of a run report.
* `Operated`: The invariant of ledgers only these operations wrote.
* `Solvent`: No account is negative.
* `WithdrawalCovered`: A withdrawal does not spend another account's money.

## Theorems

* `exec_extends`: An operation appends accepted entries, possibly none.
* `totalCents_exec`: An operation changes the total by what it reports.
* `cash_conservation`: The replay is the deposits less the withdrawals.
* `solvent_after_iff`: One operation keeps solvency exactly when covered.
* `solvent_iff_covered`: A run keeps solvency exactly when covered.
* `withdrawal_overdraws`: A run that leaves an account negative.
-/

namespace BankSim

open Exec

/-- A call of one of the immediate operations. -/
inductive Operation
  | postDeposit (request : DepositRequest)
  | processWithdrawal (request : WithdrawalRequest) (pending : List PendingTransaction)
  | processTransfer (request : TransferRequest)

/-- What an operation returns. -/
inductive OperationResult
  | deposit (deposit : Deposit)
  | withdrawal (withdrawal : Withdrawal)
  | transfer (result : TransferResult)
  deriving DecidableEq

namespace Operation

/-- Make the call. -/
def exec : Operation → Action Ledger OperationResult
  | .postDeposit request => do
      let deposit ← BankSim.postDeposit request
      return .deposit deposit
  | .processWithdrawal request pending => do
      let withdrawal ← BankSim.processWithdrawal request pending
      return .withdrawal withdrawal
  | .processTransfer request => do
      let result ← BankSim.processTransfer request
      return .transfer result

/-- The pending snapshot of a withdrawal holds no pending credit. -/
def PendingDebitsOnly : Operation → Prop
  | .processWithdrawal _ pending =>
      ∀ transaction ∈ pending, transaction.transactionType = .pendingDebit
  | _ => True

end Operation

/-- What one call reports as deposited. -/
def depositedBy : Except Raised OperationResult → Int
  | .ok (.deposit deposit) => if deposit.status = .posted then deposit.amountCents else 0
  | _ => 0

/-- What one call reports as withdrawn. -/
def withdrawnBy : Except Raised OperationResult → Int
  | .ok (.withdrawal withdrawal) =>
      if withdrawal.status = .posted then withdrawal.amountCents else 0
  | _ => 0

/-- The amounts of the deposits that were returned as posted. -/
def depositedCents (results : List (Except Raised OperationResult)) : Int :=
  (results.map depositedBy).sum

/-- The amounts of the withdrawals that were returned as posted. -/
def withdrawnCents (results : List (Except Raised OperationResult)) : Int :=
  (results.map withdrawnBy).sum

theorem atomic_operation (op : Operation) (ledger : Ledger) : Atomic op.exec ledger := by
  cases op with
  | postDeposit request =>
      exact atomic_bind_returns (atomic_postDeposit request ledger)
        fun _ _ _ => not_raises_pure _ _
  | processWithdrawal request pending =>
      exact atomic_bind_returns (atomic_processWithdrawal request pending ledger)
        fun _ _ _ => not_raises_pure _ _
  | processTransfer request =>
      exact atomic_bind_returns (atomic_processTransfer request ledger)
        fun _ _ _ => not_raises_pure _ _

/-- What a caught call did, by kind: it raised and changed nothing, or it
    returned the result of its operation. -/
theorem operation_cases (op : Operation) (ledger : Ledger) :
    (∃ e, outcome op.exec ledger = .error e ∧ after op.exec ledger = ledger) ∨
      (∃ request deposit, op = .postDeposit request ∧
        outcome op.exec ledger = .ok (.deposit deposit) ∧
        (postDeposit request).run ledger = .ok deposit (after op.exec ledger)) ∨
      (∃ request pending withdrawal, op = .processWithdrawal request pending ∧
        outcome op.exec ledger = .ok (.withdrawal withdrawal) ∧
        (processWithdrawal request pending).run ledger
          = .ok withdrawal (after op.exec ledger)) ∨
      (∃ request result, op = .processTransfer request ∧
        outcome op.exec ledger = .ok (.transfer result) ∧
        (processTransfer request).run ledger = .ok result (after op.exec ledger)) := by
  cases hrun : op.exec.run ledger with
  | error e final =>
      -- Whatever raised, the operation is atomic.
      refine Or.inl ⟨e, outcome_of_error hrun, ?_⟩
      rw [after_of_error hrun]
      exact atomic_operation op ledger e final hrun
  | ok result final =>
      rw [outcome_of_ok hrun, after_of_ok hrun]
      refine Or.inr ?_
      cases op with
      | postDeposit request =>
          rcases run_bind_ok_iff.mp hrun with ⟨deposit, _, hcall, hreturn⟩
          cases hreturn
          exact Or.inl ⟨request, deposit, rfl, rfl, hcall⟩
      | processWithdrawal request pending =>
          rcases run_bind_ok_iff.mp hrun with ⟨withdrawal, _, hcall, hreturn⟩
          cases hreturn
          exact Or.inr (Or.inl ⟨request, pending, withdrawal, rfl, rfl, hcall⟩)
      | processTransfer request =>
          rcases run_bind_ok_iff.mp hrun with ⟨transfer, _, hcall, hreturn⟩
          cases hreturn
          exact Or.inr (Or.inr ⟨request, transfer, rfl, rfl, hcall⟩)

/-- The entries an operation appends, possibly none, are all accepted, and
    each is posted at its own sequence number. -/
theorem exec_extends (op : Operation) (ledger : Ledger) : ∃ entries,
    Guarded.firstRefusal Ledger.refusal Ledger.push ledger entries = none ∧
      after op.exec ledger = entries.foldl Ledger.push ledger ∧
      ∀ entry ∈ entries, entry.postedAt = entry.sequence := by
  have hnone : Guarded.firstRefusal Ledger.refusal Ledger.push ledger [] = none := rfl
  have hone : ∀ final entryId accountId cents entryType,
      Posts ledger final entryId accountId cents entryType → ∃ entries,
        Guarded.firstRefusal Ledger.refusal Ledger.push ledger entries = none ∧
          final = entries.foldl Ledger.push ledger ∧
          ∀ entry ∈ entries, entry.postedAt = entry.sequence := by
    rintro final entryId accountId cents entryType ⟨entry, href, rfl, -, -, -, -, hposted⟩
    refine ⟨[entry], by simp only [Guarded.firstRefusal, href], rfl, fun e he => ?_⟩
    rw [List.mem_singleton.mp he, hposted, ((Ledger.refusal_eq_none_iff _ _).mp href).1]
  rcases operation_cases op ledger with ⟨e, -, hsame⟩ | ⟨request, deposit, -, -, hrun⟩ |
    ⟨request, pending, withdrawal, -, -, hrun⟩ | ⟨request, result, -, -, hrun⟩
  · exact ⟨[], hnone, hsame, fun _ h => absurd h List.not_mem_nil⟩
  · exact hone _ _ _ _ _ (postDeposit_ok request _ _ deposit hrun).2
  · rcases (processWithdrawal_ok request pending _ _ withdrawal hrun).2 with
      ⟨-, hsame⟩ | ⟨-, -, hposts, -⟩
    · exact ⟨[], hnone, hsame, fun _ h => absurd h List.not_mem_nil⟩
    · exact hone _ _ _ _ _ hposts
  · by_cases hfunds : request.amountCents > accountBalance ledger request.sourceAccountId
    · rw [processTransfer_rejects request ledger hfunds, EStateM.Result.ok.injEq] at hrun
      exact ⟨[], hnone, hrun.2.symm, fun _ h => absurd h List.not_mem_nil⟩
    · rcases processTransfer_posts request _ _ result hfunds hrun with
        ⟨-, debit, credit, -, hfirst, hfinal, -, -, -, hdpo, -, -, -, hcpo⟩
      refine ⟨[debit, credit], hfirst, hfinal, fun e he => ?_⟩
      -- Both entries were accepted in turn, so their sequence numbers are known.
      rcases (Guarded.firstRefusal_cons_eq_none_iff _ _ _ _ _).mp hfirst with ⟨hdebit, hrest⟩
      have hcredit := ((Guarded.firstRefusal_cons_eq_none_iff _ _ _ _ _).mp hrest).1
      have hdseq := ((Ledger.refusal_eq_none_iff _ _).mp hdebit).1
      have hcseq := ((Ledger.refusal_eq_none_iff _ _).mp hcredit).1
      rw [Ledger.push_entries, List.length_append, List.length_singleton] at hcseq
      push_cast at hcseq
      rcases List.mem_cons.mp he with rfl | he
      · rw [hdpo, hdseq]
      · rw [List.mem_singleton.mp he, hcpo, hcseq]

/-- What a ledger written only by these operations keeps: it is well formed,
    and no entry is posted later than the number of entries. -/
structure Operated (ledger : Ledger) : Prop where
  wellFormed : ledger.WellFormed
  posted_le : ledger.lastPostedAt ≤ ledger.entries.length

theorem operated_new : Operated Ledger.new :=
  ⟨Ledger.wellFormed_new, le_refl _⟩

theorem operated_exec (op : Operation) (ledger : Ledger) (h : Operated ledger) :
    Operated (after op.exec ledger) := by
  rcases exec_extends op ledger with ⟨entries, hnone, hafter, hposted⟩
  rw [hafter]
  refine Guarded.firstRefusal_none_invariant _ _ (fun l entry hmem hl haccept => ?_) h hnone
  refine ⟨Ledger.wellFormed_push l entry hl.wellFormed haccept, ?_⟩
  have hseq := ((Ledger.refusal_eq_none_iff l entry).mp haccept).1
  rw [Ledger.push_lastPostedAt, hposted entry hmem, hseq, Ledger.push_entries,
    List.length_append, List.length_singleton]
  push_cast
  exact le_refl _

/-- The ledger after any run of operations is well formed. -/
theorem operated_finalState (ops : List Operation) :
    Operated (finalState Operation.exec Ledger.new ops) :=
  invariant_finalState (fun ledger op => operated_exec op ledger) operated_new ops

/-! ### The cash law -/

theorem totalCents_posts {ledger final : Ledger} {entryId accountId : String} {cents : Int}
    {entryType : EntryType} (h : Posts ledger final entryId accountId cents entryType) :
    totalCents final.entries = totalCents ledger.entries +
      if entryType = .credit then cents else -cents := by
  rcases h with ⟨entry, -, rfl, -, -, rfl, rfl, -⟩
  rw [totalCents_push]
  cases hty : entry.entryType with
  | credit => rw [signedCents_credit hty, if_pos rfl]
  | debit => rw [signedCents_debit hty, if_neg EntryType.debit_ne_credit]

/-- An operation changes the total by what it reports, and by nothing when it
    raises. -/
theorem totalCents_exec (op : Operation) (ledger : Ledger) :
    totalCents (after op.exec ledger).entries = totalCents ledger.entries
      + depositedBy (outcome op.exec ledger) - withdrawnBy (outcome op.exec ledger) := by
  rcases operation_cases op ledger with ⟨e, hout, hsame⟩ | ⟨request, deposit, -, hout, hrun⟩ |
    ⟨request, pending, withdrawal, -, hout, hrun⟩ | ⟨request, result, -, hout, hrun⟩
  · rw [hout, hsame]
    simp only [depositedBy, withdrawnBy]
    ring
  · rcases postDeposit_ok request _ _ deposit hrun with ⟨rfl, hposts⟩
    rw [hout, totalCents_posts hposts]
    simp only [depositedBy, withdrawnBy, if_true]
    ring
  · rcases processWithdrawal_ok request pending _ _ withdrawal hrun with
      ⟨hamount, ⟨hstatus, hsame⟩ | ⟨hstatus, -, hposts, -⟩⟩
    · rw [hout, hsame]
      simp only [depositedBy, withdrawnBy, hstatus, reduceCtorEq, if_false]
      ring
    · rw [hout, totalCents_posts hposts]
      simp only [depositedBy, withdrawnBy, hstatus, hamount, if_true, reduceCtorEq, if_false]
      ring
  · rw [hout]
    simp only [depositedBy, withdrawnBy]
    by_cases hfunds : request.amountCents > accountBalance ledger request.sourceAccountId
    · rw [processTransfer_rejects request ledger hfunds, EStateM.Result.ok.injEq] at hrun
      rw [← hrun.2]
      ring
    · rcases processTransfer_posts request _ _ result hfunds hrun with
        ⟨-, debit, credit, -, -, hfinal, -, -, hdcents, -, -, -, hccents, -⟩
      rw [hfinal, totalCents_push_opposite ledger debit credit _ hdcents hccents]
      ring

/-- The total after a run is the total before it, plus what the run reports as
    deposited, less what it reports as withdrawn. -/
theorem totalCents_finalState (ops : List Operation) (ledger : Ledger) :
    totalCents (finalState Operation.exec ledger ops).entries = totalCents ledger.entries
      + depositedCents (outcomes Operation.exec ledger ops)
      - withdrawnCents (outcomes Operation.exec ledger ops) := by
  induction ops generalizing ledger with
  | nil =>
      simp only [finalState_nil, outcomes, depositedCents, withdrawnCents, List.map_nil,
        List.sum_nil]
      ring
  | cons op ops ih =>
      rw [finalState_cons, ih, totalCents_exec]
      simp only [outcomes, depositedCents, withdrawnCents, List.map_cons, List.sum_cons]
      ring

theorem pendingCents_eq_zero (kind : PendingTransactionType) (pending : List PendingTransaction)
    (h : ∀ transaction ∈ pending, transaction.transactionType ≠ kind) :
    pendingCents kind pending = 0 := by
  have hfilter : pending.filter (fun transaction => transaction.transactionType = kind) = [] :=
    List.filter_eq_nil_iff.mpr fun transaction hmem =>
      by simpa only [decide_eq_true_eq] using h transaction hmem
  rw [pendingCents, hfilter, List.map_nil, List.sum_nil]

/-- With pending debits only, a withdrawal never takes more than the ledger
    holds, so the total stays nonnegative. -/
theorem totalCents_exec_nonneg (op : Operation) (ledger : Ledger) (hwf : ledger.WellFormed)
    (hpending : op.PendingDebitsOnly) (hnonneg : 0 ≤ totalCents ledger.entries) :
    0 ≤ totalCents (after op.exec ledger).entries := by
  have htotal := totalCents_exec op ledger
  rcases operation_cases op ledger with ⟨e, -, hsame⟩ | ⟨request, deposit, -, hout, hrun⟩ |
    ⟨request, pending, withdrawal, rfl, hout, hrun⟩ | ⟨request, result, -, hout, hrun⟩
  · rwa [hsame]
  · have hpos := request.amountCents_pos
    rcases postDeposit_ok request _ _ deposit hrun with ⟨rfl, -⟩
    rw [hout] at htotal
    simp only [depositedBy, withdrawnBy, if_true] at htotal
    omega
  · rcases processWithdrawal_ok request pending _ _ withdrawal hrun with
      ⟨hamount, ⟨-, hsame⟩ | ⟨hstatus, ⟨projection, hproject, hfunds⟩, -, -⟩⟩
    · rwa [hsame]
    · -- No pending credit can raise the projection over what the ledger holds.
      have hdebits := pendingCents_nonneg .pendingDebit pending
      have hcredits : pendingCents .pendingCredit pending = 0 :=
        pendingCents_eq_zero _ _ fun transaction hmem => by
          rw [hpending transaction hmem]
          decide
      have havailable := (projectBalances_ok ledger hwf pending projection hproject).2
      rw [hout] at htotal
      simp only [depositedBy, withdrawnBy, hstatus, hamount, if_true] at htotal
      omega
  · rw [hout] at htotal
    simp only [depositedBy, withdrawnBy] at htotal
    omega

/-- Cash conservation. After any run from an empty ledger, which is every
    reachable state, the replay equals the deposits returned as posted less
    the withdrawals returned as posted, and equals the sum of the balances of
    the accounts in the ledger. If every pending snapshot held only debits it
    is not negative. -/
theorem cash_conservation (ops : List Operation) :
    replay (finalState Operation.exec Ledger.new ops).entries
        = .ok (depositedCents (outcomes Operation.exec Ledger.new ops)
            - withdrawnCents (outcomes Operation.exec Ledger.new ops)) ∧
      replay (finalState Operation.exec Ledger.new ops).entries
        = .ok (∑ accountId ∈ ((finalState Operation.exec Ledger.new ops).entries.map
            (·.accountId)).toFinset,
            accountBalance (finalState Operation.exec Ledger.new ops) accountId) ∧
      ((∀ op ∈ ops, op.PendingDebitsOnly) →
        ∃ balance, replay (finalState Operation.exec Ledger.new ops).entries = .ok balance ∧
          0 ≤ balance) := by
  have hreplay := replay_eq_sum (operated_finalState ops).wellFormed
  refine ⟨?_, ?_, fun hpending => ⟨_, hreplay, ?_⟩⟩
  · -- The empty ledger starts the count at zero.
    rw [hreplay, totalCents_finalState]
    simp only [Ledger.new, totalCents, List.map_nil, List.sum_nil, Int.zero_add]
  · rw [hreplay, sum_accountBalance]
  · have hall : AllStates Operation.exec
        (fun ledger => Operated ledger ∧ 0 ≤ totalCents ledger.entries) Ledger.new ops := by
      refine allStates_of_allSteps (C := fun _ op => op.PendingDebitsOnly) ?_
        ⟨operated_new, le_refl _⟩ (allSteps_of_forall fun _ op hop => hpending op hop)
      rintro ledger op ⟨hop, hnonneg⟩ hdebits
      exact ⟨operated_exec op ledger hop,
        totalCents_exec_nonneg op ledger hop.wellFormed hdebits hnonneg⟩
    exact (allStates_finalState hall).2

/-! ### Solvency -/

/-- No account is negative. -/
def Solvent (ledger : Ledger) : Prop :=
  ∀ accountId, 0 ≤ accountBalance ledger accountId

/-- The withdrawal does not spend another account's money. Either its own
    account covers it, or the projected funds turn it down, or its entry
    cannot be posted: the description is white space, or the identifier is
    taken. -/
def WithdrawalCovered (ledger : Ledger) (request : WithdrawalRequest)
    (pending : List PendingTransaction) : Prop :=
  request.amountCents ≤ accountBalance ledger request.accountId ∨
    (∀ projection, projectBalances ledger pending = .ok projection →
      projection.availableBalance < request.amountCents) ∨
    isBlank (orDefault request.description "Withdrawal") = true ∨
    request.withdrawalId ++ "-ENTRY" ∈ ledger.entryIds

/-- The condition on a call, in the state it is made in. -/
def Operation.Covered (ledger : Ledger) : Operation → Prop
  | .processWithdrawal request pending => WithdrawalCovered ledger request pending
  | _ => True

theorem accountBalance_posts {ledger final : Ledger} {entryId owner : String} {cents : Int}
    {entryType : EntryType} (h : Posts ledger final entryId owner cents entryType)
    (accountId : String) : accountBalance final accountId = accountBalance ledger accountId +
      if owner = accountId then (if entryType = .credit then cents else -cents) else 0 := by
  rcases h with ⟨entry, -, rfl, -, rfl, rfl, rfl, -⟩
  rw [accountBalance_push]
  cases hty : entry.entryType with
  | credit => rw [signedCents_credit hty, if_pos rfl]
  | debit => rw [signedCents_debit hty, if_neg EntryType.debit_ne_credit]

/-- An uncovered withdrawal is posted, and overdraws its account. -/
theorem uncovered_overdraws (request : WithdrawalRequest) (pending : List PendingTransaction)
    (ledger : Ledger) (hop : Operated ledger)
    (huncovered : ¬ WithdrawalCovered ledger request pending) :
    accountBalance (after (Operation.processWithdrawal request pending).exec ledger)
      request.accountId < 0 := by
  unfold WithdrawalCovered at huncovered
  push Not at huncovered
  rcases huncovered with ⟨hfunds, ⟨projection, hproject, havailable⟩, hdescription, hfresh⟩
  -- Nothing stops the entry: it is valid, new, and no entry is posted later.
  have hposted := hop.posted_le
  rcases postOne_returns (request.withdrawalId ++ "-ENTRY") request.accountId
      request.amountCents .debit (orDefault request.description "Withdrawal") ledger
      request.amountCents_pos (isBlank_append_of_suffix _ _ (by decide))
      request.accountId_nonblank (by simpa using hdescription) hfresh (by omega) with
    ⟨final, hpost⟩
  have hrun : (Operation.processWithdrawal request pending).exec.run ledger
      = .ok (.withdrawal ⟨request.withdrawalId, request.accountId, request.amountCents,
          request.description, .posted, none⟩) final := by
    refine run_bind_ok_iff.mpr ⟨_, final, ?_, rfl⟩
    rw [processWithdrawal_eq, hproject]
    simp only [not_lt.mpr havailable, if_false]
    exact run_bind_ok_iff.mpr ⟨_, final, hpost, rfl⟩
  rw [after_of_ok hrun, accountBalance_posts (postOne_ok _ _ _ _ _ _ _ hpost).1, if_pos rfl,
    if_neg EntryType.debit_ne_credit]
  omega

/-- From a solvent state, one operation keeps every account nonnegative
    exactly when it is covered. -/
theorem solvent_after_iff (op : Operation) (ledger : Ledger) (hop : Operated ledger)
    (hsolvent : Solvent ledger) : Solvent (after op.exec ledger) ↔ op.Covered ledger := by
  rcases operation_cases op ledger with ⟨e, hout, hsame⟩ | ⟨request, deposit, rfl, -, hrun⟩ |
    ⟨request, pending, withdrawal, rfl, -, hrun⟩ | ⟨request, result, rfl, -, hrun⟩
  · rw [hsame]
    refine ⟨fun _ => ?_, fun _ => hsolvent⟩
    cases op with
    | postDeposit request => trivial
    | processTransfer request => trivial
    | processWithdrawal request pending =>
        -- An uncovered withdrawal does not raise.
        by_contra huncovered
        have hneg := uncovered_overdraws request pending ledger hop huncovered
        rw [hsame] at hneg
        exact absurd (hsolvent request.accountId) (not_le.mpr hneg)
  · refine ⟨fun _ => trivial, fun _ accountId => ?_⟩
    have hpos := request.amountCents_pos
    have hbefore := hsolvent accountId
    rw [accountBalance_posts (postDeposit_ok request _ _ deposit hrun).2, if_pos rfl]
    split_ifs <;> omega
  · constructor
    · intro hafter
      by_contra huncovered
      have hneg := uncovered_overdraws request pending ledger hop huncovered
      exact absurd (hafter request.accountId) (not_le.mpr hneg)
    · intro hcovered accountId
      have hbefore := hsolvent accountId
      rcases (processWithdrawal_ok request pending _ _ withdrawal hrun).2 with
        ⟨-, hsame⟩ | ⟨-, ⟨projection, hproject, hfunds⟩, hposts, hdescription⟩
      · rw [hsame]
        exact hbefore
      · rw [accountBalance_posts hposts, if_neg EntryType.debit_ne_credit]
        split_ifs with howner
        · subst howner
          -- The withdrawal was posted, so only the first way of being covered is left.
          rcases hcovered with hown | hrejected | hblank | htaken
          · omega
          · exact absurd (hrejected projection hproject) (not_lt.mpr hfunds)
          · rw [hdescription] at hblank
            cases hblank
          · rcases hposts with ⟨entry, href, -, hid, -⟩
            rw [← hid] at htaken
            exact absurd htaken ((Ledger.refusal_eq_none_iff ledger entry).mp href).2.1
        · omega
  · refine ⟨fun _ => trivial, fun _ accountId => ?_⟩
    have hbefore := hsolvent accountId
    by_cases hfunds : request.amountCents > accountBalance ledger request.sourceAccountId
    · rw [processTransfer_rejects request ledger hfunds, EStateM.Result.ok.injEq] at hrun
      rw [← hrun.2]
      exact hbefore
    · rcases processTransfer_posts request _ _ result hfunds hrun with
        ⟨-, debit, credit, -, -, hfinal, -, hdac, hdcents, -, -, hcac, hccents, -⟩
      have hpos := request.amountCents_pos
      rw [hfinal, accountBalance_push_opposite ledger debit credit _ hdcents hccents, hdac, hcac]
      -- The source covers the transfer, so only its own balance can go down, and not below.
      by_cases hsource : request.sourceAccountId = accountId
      · subst hsource
        rw [if_pos rfl]
        split_ifs <;> omega
      · rw [if_neg hsource]
        split_ifs <;> omega

/-- Solvency along a run, exactly. In a run of operations from an empty
    ledger, no state ever has a negative account exactly when every withdrawal
    of the run is covered in the state it is made in. -/
theorem solvent_iff_covered (ops : List Operation) :
    AllStates Operation.exec Solvent Ledger.new ops ↔
      AllSteps Operation.exec (fun ledger op => op.Covered ledger) Ledger.new ops := by
  have hstart : Solvent Ledger.new := fun accountId => le_refl _
  rw [allStates_iff_after]
  refine Iff.trans ⟨fun h => h.2, fun h => ⟨hstart, h⟩⟩
    (allSteps_congr (I := fun ledger => Operated ledger ∧ Solvent ledger) ?_ ?_
      ⟨operated_new, hstart⟩ ops)
  · rintro ledger op ⟨hop, hsolvent⟩ hcovered
    exact ⟨operated_exec op ledger hop,
      (solvent_after_iff op ledger hop hsolvent).mpr hcovered⟩
  · rintro ledger op ⟨hop, hsolvent⟩
    exact solvent_after_iff op ledger hop hsolvent

/-- Account A deposits a dollar and account B, which holds nothing, withdraws
    half of it. -/
def overdraft : List Operation :=
  [ .postDeposit ⟨"DEP-1", "A", 100, "", Eq.refl false, Eq.refl false, numeral_pos passes⟩,
    .processWithdrawal ⟨"WDR-1", "B", 50, "", Eq.refl false, Eq.refl false, numeral_pos passes⟩ [] ]

/-- The whole-ledger check lets account B spend account A's money. -/
theorem withdrawal_overdraws : ¬ Solvent (finalState Operation.exec Ledger.new overdraft) := by
  intro hsolvent
  have hbalance : accountBalance (finalState Operation.exec Ledger.new overdraft) "B" = -50 := by
    decide
  have hnonneg := hsolvent "B"
  omega

end BankSim
