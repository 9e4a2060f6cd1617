import BankSim.Library.Sums
import BankSim.Core.Operations
import BankSim.Theory.Posting

/-!
# What One Operation Does to the Ledger

The three immediate operations, each described once: when it raises, when it
rejects, and which entries it appends when it posts. The descriptions are
equations between states, so nothing later unfolds an operation again.

A deposit and a withdrawal share their last step, which posts one entry whose
posting time is its own sequence number. `postOne` is that step, and `Posts`
what it leaves.

Balances are read through `totalCents`: the replay of a well formed ledger is
the total of its entries, and an account's balance is the total of the
entries of that account. Totals add up along appends, and the totals of all
accounts add up to the total of the ledger.

## Main definitions

* `postOne`: Post an entry at its own sequence number.
* `Posts`: A ledger gained one accepted entry with given data.
* `pendingCents`: The pending debits or credits of a snapshot.

## Theorems

* `accountBalance_eq_totalCents`: An account's balance is a total.
* `accountBalance_push`: How one entry changes an account's balance.
* `accountBalance_push_opposite`: A debit and its credit move money between
  two accounts.
* `sum_accountBalance`: The balances of all accounts add up to the replay.
* `postOne_ok`, `postOne_returns`: When posting one entry returns.
* `postDeposit_ok`: A deposit that returns has posted its credit.
* `projectBalances_ok`: What a projection that returns is.
* `processWithdrawal_ok`: A withdrawal that returns was rejected or posted.
* `processTransfer_rejects`, `processTransfer_posts`: The two outcomes of a
  transfer.
* `processTransfer_conserves`: A transfer is atomic and conserves money.
-/

namespace BankSim

open Exec

theorem accountBalance_foldl (entries : List LedgerEntry) (accountId : String) (start : Int) :
    entries.foldl
        (fun balance entry =>
          if entry.accountId = accountId then balance + entry.signedCents else balance) start
      = start + totalCents (entries.filter fun entry => entry.accountId = accountId) := by
  induction entries generalizing start with
  | nil => simp only [List.foldl_nil, List.filter_nil, totalCents, List.map_nil, List.sum_nil,
      Int.add_zero]
  | cons entry entries ih =>
      rw [List.foldl_cons, ih]
      by_cases h : entry.accountId = accountId
      · simp only [h, if_true, List.filter_cons, decide_true, totalCents, List.map_cons,
          List.sum_cons]
        ring
      · simp only [h, if_false, List.filter_cons, decide_false, Bool.false_eq_true]

/-- An account's balance is the total of the account's entries. -/
theorem accountBalance_eq_totalCents (ledger : Ledger) (accountId : String) :
    accountBalance ledger accountId
      = totalCents (ledger.entries.filter fun entry => entry.accountId = accountId) := by
  rw [accountBalance, accountBalance_foldl, Int.zero_add]

@[simp] theorem accountBalance_new (accountId : String) :
    accountBalance Ledger.new accountId = 0 := rfl

/-- One entry changes the balance of its own account and no other. -/
theorem accountBalance_push (ledger : Ledger) (entry : LedgerEntry) (accountId : String) :
    accountBalance (ledger.push entry) accountId = accountBalance ledger accountId +
      if entry.accountId = accountId then entry.signedCents else 0 := by
  rw [accountBalance_eq_totalCents, accountBalance_eq_totalCents, Ledger.push_entries,
    List.filter_append, totalCents_append]
  by_cases h : entry.accountId = accountId
  · simp only [h, List.filter_cons, decide_true, if_true, List.filter_nil, totalCents,
      List.map_cons, List.map_nil, List.sum_cons, List.sum_nil, Int.add_zero]
  · simp only [h, List.filter_cons, decide_false, Bool.false_eq_true, if_false, List.filter_nil,
      totalCents, List.map_nil, List.sum_nil]

theorem totalCents_push (ledger : Ledger) (entry : LedgerEntry) :
    totalCents (ledger.push entry).entries = totalCents ledger.entries + entry.signedCents := by
  rw [Ledger.push_entries, totalCents_append]
  simp only [totalCents, List.map_cons, List.map_nil, List.sum_cons, List.sum_nil, Int.add_zero]

/-- Two opposite entries move the amount from the first account to the second. -/
theorem accountBalance_push_opposite (ledger : Ledger) (debit credit : LedgerEntry) (cents : Int)
    (hdebit : debit.signedCents = -cents) (hcredit : credit.signedCents = cents)
    (accountId : String) :
    accountBalance ((ledger.push debit).push credit) accountId
      = accountBalance ledger accountId + (if debit.accountId = accountId then -cents else 0)
        + (if credit.accountId = accountId then cents else 0) := by
  rw [accountBalance_push, accountBalance_push, hdebit, hcredit]

/-- Two opposite entries leave the total alone. -/
theorem totalCents_push_opposite (ledger : Ledger) (debit credit : LedgerEntry) (cents : Int)
    (hdebit : debit.signedCents = -cents) (hcredit : credit.signedCents = cents) :
    totalCents ((ledger.push debit).push credit).entries = totalCents ledger.entries := by
  rw [totalCents_push, totalCents_push, hdebit, hcredit]
  ring

/-- The balances of the accounts that occur add up to the total: every entry
    belongs to one account. -/
theorem sum_accountBalance (ledger : Ledger) :
    ∑ accountId ∈ (ledger.entries.map (·.accountId)).toFinset, accountBalance ledger accountId
      = totalCents ledger.entries := by
  simp only [accountBalance_eq_totalCents]
  exact ListSum.sum_keys (·.accountId) (·.signedCents) ledger.entries

theorem signedCents_credit {entry : LedgerEntry} (h : entry.entryType = .credit) :
    entry.signedCents = entry.amount.cents := by
  rw [LedgerEntry.signedCents, if_pos h, Int.one_mul]

theorem signedCents_debit {entry : LedgerEntry} (h : entry.entryType = .debit) :
    entry.signedCents = -entry.amount.cents := by
  rw [LedgerEntry.signedCents, h, if_neg (by decide), Int.neg_one_mul]

/-! ### Posting one entry -/

/-- Post an entry whose posting time is its own sequence number. -/
def postOne (entryId accountId : String) (cents : Int) (entryType : EntryType)
    (description : String) : Action Ledger Unit := do
  let ledger ← get
  Posting.post { entryId, accountId, cents, entryType, description,
                 postedAt := ledger.entries.length + 1 }

/-- The ledger gained one accepted entry with the given data, posted at its
    own sequence number. -/
def Posts (ledger final : Ledger) (entryId accountId : String) (cents : Int)
    (entryType : EntryType) : Prop :=
  ∃ entry, ledger.refusal entry = none ∧ final = ledger.push entry ∧ entry.entryId = entryId ∧
    entry.accountId = accountId ∧ entry.amount.cents = cents ∧ entry.entryType = entryType ∧
    entry.postedAt = ledger.entries.length + 1

theorem atomic_postOne (entryId accountId : String) (cents : Int) (entryType : EntryType)
    (description : String) (ledger : Ledger) :
    Atomic (postOne entryId accountId cents entryType description) ledger :=
  atomic_bind within_get fun _ _ => Posting.atomic_post _ ledger

/-- Posting one entry returns only after appending it. -/
theorem postOne_ok (entryId accountId : String) (cents : Int) (entryType : EntryType)
    (description : String) (ledger final : Ledger)
    (h : (postOne entryId accountId cents entryType description).run ledger = .ok () final) :
    Posts ledger final entryId accountId cents entryType ∧ isBlank description = false := by
  rw [postOne, run_bind_get] at h
  rcases Posting.post_ok h with ⟨hfits, rfl⟩
  exact ⟨⟨Posting.entry hfits, Posting.refusal_entry hfits, rfl, rfl, rfl, rfl, rfl, rfl⟩,
    hfits.description_nonblank⟩

/-- Posting one entry of valid data returns when its identifier is new and no
    entry is posted after the next sequence number. -/
theorem postOne_returns (entryId accountId : String) (cents : Int) (entryType : EntryType)
    (description : String) (ledger : Ledger) (hcents : 0 < cents)
    (hid : isBlank entryId = false) (hac : isBlank accountId = false)
    (hde : isBlank description = false) (hnew : entryId ∉ ledger.entryIds)
    (hlast : ledger.lastPostedAt ≤ ledger.entries.length + 1) :
    ∃ final, (postOne entryId accountId cents entryType description).run ledger
      = .ok () final := by
  have hposted : (0 : Int) ≤ ledger.entries.length + 1 := by omega
  rw [postOne, run_bind_get]
  exact ⟨_, Posting.post_of_fits
    { cents_pos := hcents, entryId_nonblank := hid, accountId_nonblank := hac
      description_nonblank := hde, postedAt_nonneg := hposted
      originalTransferId_nonblank := rfl, achReturnId_nonblank := rfl
      fresh := hnew, last_le := hlast }⟩

/-! ### Deposits -/

theorem postDeposit_eq (request : DepositRequest) : postDeposit request = (do
    postOne (request.depositId ++ "-ENTRY") request.accountId request.amountCents .credit
      (orDefault request.description "Deposit")
    return ⟨request.depositId, request.accountId, request.amountCents, request.description,
      .posted⟩) := by
  simp only [postDeposit, postOne, Posting.post, bind_assoc]
  rfl

theorem atomic_postDeposit (request : DepositRequest) (ledger : Ledger) :
    Atomic (postDeposit request) ledger := by
  rw [postDeposit_eq]
  exact atomic_bind_returns (atomic_postOne _ _ _ _ _ ledger) fun _ _ _ => not_raises_pure _ _

/-- A deposit that returns has posted its credit. -/
theorem postDeposit_ok (request : DepositRequest) (ledger final : Ledger) (deposit : Deposit)
    (h : (postDeposit request).run ledger = .ok deposit final) :
    deposit = ⟨request.depositId, request.accountId, request.amountCents, request.description,
        .posted⟩ ∧
      Posts ledger final (request.depositId ++ "-ENTRY") request.accountId request.amountCents
        .credit := by
  rw [postDeposit_eq] at h
  rcases run_bind_ok_iff.mp h with ⟨_, posted, hpost, hreturn⟩
  cases hreturn
  exact ⟨rfl, (postOne_ok _ _ _ _ _ _ _ hpost).1⟩

/-! ### Withdrawals -/

/-- The two totals `project_balances` collects. -/
def pendingCents (kind : PendingTransactionType) (pending : List PendingTransaction) : Int :=
  ((pending.filter fun transaction => transaction.transactionType = kind).map
    (·.amount.cents)).sum

theorem pendingCents_nonneg (kind : PendingTransactionType) (pending : List PendingTransaction) :
    0 ≤ pendingCents kind pending := by
  refine List.sum_nonneg fun cents hcents => ?_
  rcases List.mem_map.mp hcents with ⟨transaction, -, rfl⟩
  exact le_of_lt transaction.amount.cents_pos

/-- The loop adds the pending debits and credits to its two totals. -/
theorem sumPending_ok (pending : List PendingTransaction) (expected : Int)
    (seenIds : List String) (debits credits : Int) (totals : Int × Int)
    (h : sumPending pending expected seenIds debits credits = .ok totals) :
    totals = (debits + pendingCents .pendingDebit pending,
      credits + pendingCents .pendingCredit pending) := by
  induction pending generalizing expected seenIds debits credits with
  | nil =>
      cases h
      simp only [pendingCents, List.filter_nil, List.map_nil, List.sum_nil, Int.add_zero]
  | cons transaction pending ih =>
      rw [sumPending] at h
      -- The two checks raise; past them the transaction goes into its own total.
      split_ifs at h
      cases hkind : transaction.transactionType with
      | pendingDebit =>
          rw [hkind] at h
          rw [ih _ _ _ _ h]
          simp only [pendingCents, List.filter_cons, hkind, decide_true, if_true, List.map_cons,
            List.sum_cons, reduceCtorEq, decide_false, Bool.false_eq_true, if_false, Int.add_assoc]
      | pendingCredit =>
          rw [hkind] at h
          rw [ih _ _ _ _ h]
          simp only [pendingCents, List.filter_cons, hkind, decide_true, if_true, List.map_cons,
            List.sum_cons, reduceCtorEq, decide_false, Bool.false_eq_true, if_false, Int.add_assoc]

/-- A projection of a well formed ledger that returns is the replay, less the
    pending debits, plus the pending credits. -/
theorem projectBalances_ok (ledger : Ledger) (hwf : ledger.WellFormed)
    (pending : List PendingTransaction) (projection : BalanceProjection)
    (h : projectBalances ledger pending = .ok projection) :
    projection.currentBalance = totalCents ledger.entries ∧
      projection.availableBalance = totalCents ledger.entries
        - pendingCents .pendingDebit pending + pendingCents .pendingCredit pending := by
  unfold projectBalances at h
  cases hsum : sumPending pending 1 [] 0 0 with
  | error e =>
      rw [hsum] at h
      cases h
  | ok totals =>
      rw [hsum, replay_eq_sum hwf] at h
      have htotals := sumPending_ok pending 1 [] 0 0 totals hsum
      rw [Int.zero_add, Int.zero_add] at htotals
      subst htotals
      cases h
      exact ⟨rfl, rfl⟩

theorem processWithdrawal_eq (request : WithdrawalRequest) (pending : List PendingTransaction)
    (ledger : Ledger) : (processWithdrawal request pending).run ledger =
      match projectBalances ledger pending with
      | .error e => .error e ledger
      | .ok projection =>
          if request.amountCents > projection.availableBalance then
            .ok ⟨request.withdrawalId, request.accountId, request.amountCents,
              request.description, .rejected, some insufficientFundsReason⟩ ledger
          else
            (do
              postOne (request.withdrawalId ++ "-ENTRY") request.accountId request.amountCents
                .debit (orDefault request.description "Withdrawal")
              return (⟨request.withdrawalId, request.accountId, request.amountCents,
                request.description, .posted, none⟩ : Withdrawal)).run ledger := by
  rw [processWithdrawal, run_bind_get]
  cases hproject : projectBalances ledger pending with
  | error e => rw [run_bind_lift_error rfl]
  | ok projection =>
      rw [run_bind_lift_ok rfl]
      by_cases hfunds : request.amountCents > projection.availableBalance
      · simp only [hfunds, if_true]
        rfl
      · simp only [hfunds, if_false, postOne, Posting.post, bind_assoc, run_bind_get]

theorem atomic_processWithdrawal (request : WithdrawalRequest)
    (pending : List PendingTransaction) (ledger : Ledger) :
    Atomic (processWithdrawal request pending) ledger := by
  intro e final h
  rw [processWithdrawal_eq] at h
  cases hproject : projectBalances ledger pending with
  | error e' =>
      rw [hproject] at h
      cases h
      rfl
  | ok projection =>
      rw [hproject] at h
      by_cases hfunds : request.amountCents > projection.availableBalance
      · simp only [hfunds, if_true, reduceCtorEq] at h
      · simp only [hfunds, if_false] at h
        exact atomic_bind_returns (atomic_postOne _ _ _ _ _ ledger)
          (fun _ _ _ => not_raises_pure _ _) e final h

/-- A withdrawal that returns was either rejected, changing nothing, or found
    the projected funds and posted its debit. -/
theorem processWithdrawal_ok (request : WithdrawalRequest) (pending : List PendingTransaction)
    (ledger final : Ledger) (withdrawal : Withdrawal)
    (h : (processWithdrawal request pending).run ledger = .ok withdrawal final) :
    withdrawal.amountCents = request.amountCents ∧
      ((withdrawal.status = .rejected ∧ final = ledger) ∨
        (withdrawal.status = .posted ∧
          (∃ projection, projectBalances ledger pending = .ok projection ∧
            request.amountCents ≤ projection.availableBalance) ∧
          Posts ledger final (request.withdrawalId ++ "-ENTRY") request.accountId
            request.amountCents .debit ∧
          isBlank (orDefault request.description "Withdrawal") = false)) := by
  rw [processWithdrawal_eq] at h
  cases hproject : projectBalances ledger pending with
  | error e =>
      rw [hproject] at h
      cases h
  | ok projection =>
      rw [hproject] at h
      by_cases hfunds : request.amountCents > projection.availableBalance
      · simp only [hfunds, if_true] at h
        cases h
        exact ⟨rfl, Or.inl ⟨rfl, rfl⟩⟩
      · simp only [hfunds, if_false] at h
        rcases run_bind_ok_iff.mp h with ⟨_, posted, hpost, hreturn⟩
        cases hreturn
        exact ⟨rfl, Or.inr ⟨rfl, ⟨projection, rfl, not_lt.mp hfunds⟩,
          postOne_ok _ _ _ _ _ _ _ hpost⟩⟩

/-! ### Transfers -/

theorem atomic_processTransfer (request : TransferRequest) (ledger : Ledger) :
    Atomic (processTransfer request) ledger := by
  unfold processTransfer
  refine atomic_bind within_get fun _ _ => ?_
  split_ifs
  · exact atomic_pure _ _
  · refine atomic_bind (within_lift _) fun _ _ => atomic_bind (within_lift _) fun debit _ => ?_
    refine atomic_bind (within_lift _) fun _ _ => atomic_bind (within_lift _) fun credit _ => ?_
    exact atomic_bind_returns (Ledger.atomic_appendBatch [debit, credit] ledger)
      fun _ _ _ => not_raises_pure _ _

/-- A transfer that its source account does not cover is rejected, and
    changes nothing. -/
theorem processTransfer_rejects (request : TransferRequest) (ledger : Ledger)
    (hfunds : request.amountCents > accountBalance ledger request.sourceAccountId) :
    (processTransfer request).run ledger =
      .ok ⟨⟨request.transferId, request.sourceAccountId, request.destinationAccountId,
        request.amountCents, request.description, .rejected, some insufficientFundsReason⟩, []⟩
        ledger := by
  rw [processTransfer, run_bind_get]
  simp only [hfunds, if_true]
  rfl

/-- A covered transfer that returns has posted its debit and its credit, one
    right after the other. -/
theorem processTransfer_posts (request : TransferRequest) (ledger final : Ledger)
    (result : TransferResult)
    (hfunds : ¬ request.amountCents > accountBalance ledger request.sourceAccountId)
    (h : (processTransfer request).run ledger = .ok result final) :
    result.transfer.status = .posted ∧ ∃ debit credit, result.ledgerEntries = [debit, credit] ∧
      Guarded.firstRefusal Ledger.refusal Ledger.push ledger [debit, credit] = none ∧
      final = (ledger.push debit).push credit ∧
      debit.entryId = request.transferId ++ "-DEBIT" ∧
      debit.accountId = request.sourceAccountId ∧
      debit.signedCents = -request.amountCents ∧
      debit.postedAt = ledger.entries.length + 1 ∧
      credit.entryId = request.transferId ++ "-CREDIT" ∧
      credit.accountId = request.destinationAccountId ∧
      credit.signedCents = request.amountCents ∧
      credit.postedAt = ledger.entries.length + 1 + 1 := by
  have hmoney := Money.new_of_pos request.amountCents request.amountCents_pos
  -- The two constructors and the batch are the stages left.
  rw [processTransfer, run_bind_get] at h
  simp only [hfunds, if_false, run_bind_lift_ok hmoney, run_bind_lift_ok_iff] at h
  rcases h with ⟨debit, hdebit, credit, hcredit, happend⟩
  rcases (LedgerEntry.new_ok_iff _ _ _ _ _ _ _ _ _ _).mp hdebit with
    ⟨hdid, hdac, hdam, hdty, -, -, hdpo, -, -⟩
  rcases (LedgerEntry.new_ok_iff _ _ _ _ _ _ _ _ _ _).mp hcredit with
    ⟨hcid, hcac, hcam, hcty, -, -, hcpo, -, -⟩
  rcases run_bind_ok_iff.mp happend with ⟨_, posted, hbatch, hreturn⟩
  cases hreturn
  rw [Ledger.appendBatch_eq_together _ (List.cons_ne_nil _ _)] at hbatch
  rcases (Guarded.together_run_ok_iff _ _ _ _ _).mp hbatch with ⟨hfirst, hfinal⟩
  refine ⟨rfl, debit, credit, rfl, hfirst, hfinal, hdid, hdac, ?_, hdpo, hcid, hcac, ?_, hcpo⟩
  · rw [signedCents_debit hdty, hdam]
  · rw [signedCents_credit hcty, hcam]

/-- Internal transfers are atomic and conserve money. A transfer is rejected,
    with no entries and the ledger unchanged, exactly when its source account
    does not cover it. A posted transfer appended two adjacent entries that
    move the amount from the source to the destination and touch neither any
    other account nor the replay. A transfer that raises changes nothing. -/
theorem processTransfer_conserves (ledger : Ledger) (hreach : ledger.Reachable)
    (request : TransferRequest) :
    (request.amountCents > accountBalance ledger request.sourceAccountId ↔
      ∃ result, (processTransfer request).run ledger = .ok result ledger ∧
        result.transfer.status = .rejected ∧ result.ledgerEntries = []) ∧
    (∀ result final, (processTransfer request).run ledger = .ok result final →
      (result.transfer.status = .rejected →
        request.amountCents > accountBalance ledger request.sourceAccountId) ∧
      (result.transfer.status = .posted →
        (∃ debit credit, result.ledgerEntries = [debit, credit] ∧
          final.entries = ledger.entries ++ [debit, credit]) ∧
        accountBalance final request.sourceAccountId
          = accountBalance ledger request.sourceAccountId - request.amountCents ∧
        accountBalance final request.destinationAccountId
          = accountBalance ledger request.destinationAccountId + request.amountCents ∧
        (∀ accountId, accountId ≠ request.sourceAccountId →
          accountId ≠ request.destinationAccountId →
          accountBalance final accountId = accountBalance ledger accountId) ∧
        replay final.entries = replay ledger.entries)) ∧
    Atomic (processTransfer request) ledger := by
  have hwf := Ledger.reachable_wellFormed hreach
  have hne := request.accounts_ne
  refine ⟨⟨?_, ?_⟩, ?_, atomic_processTransfer request ledger⟩
  · intro hfunds
    exact ⟨_, processTransfer_rejects request ledger hfunds, rfl, rfl⟩
  · rintro ⟨result, hrun, hstatus, -⟩
    by_contra hfunds
    rw [(processTransfer_posts request ledger ledger result hfunds hrun).1] at hstatus
    cases hstatus
  · intro result final hrun
    by_cases hfunds : request.amountCents > accountBalance ledger request.sourceAccountId
    · refine ⟨fun _ => hfunds, fun hstatus => ?_⟩
      rw [processTransfer_rejects request ledger hfunds] at hrun
      cases hrun
      cases hstatus
    · rcases processTransfer_posts request ledger final result hfunds hrun with
        ⟨hposted, debit, credit, hentries, hfirst, rfl, -, hdac, hdcents, -, -, hcac, hccents, -⟩
      refine ⟨fun hstatus => ?_, fun _ => ?_⟩
      · rw [hposted] at hstatus
        cases hstatus
      have hwf' := Guarded.firstRefusal_none_invariant _ _
        (fun l e _ => Ledger.wellFormed_push l e) hwf hfirst
      have hbalance := accountBalance_push_opposite ledger debit credit _ hdcents hccents
      rw [hdac, hcac] at hbalance
      refine ⟨⟨debit, credit, hentries, ?_⟩, ?_, ?_, ?_, ?_⟩
      · rw [Ledger.push_entries, Ledger.push_entries, List.append_assoc, List.singleton_append]
      · rw [hbalance, if_pos rfl, if_neg hne.symm]
        ring
      · rw [hbalance, if_neg hne, if_pos rfl]
        ring
      · intro accountId hsource hdestination
        rw [hbalance, if_neg hsource.symm, if_neg hdestination.symm]
        ring
      · rw [replay_eq_sum hwf, ← totalCents_push_opposite ledger debit credit _ hdcents hccents]
        exact replay_eq_sum hwf'

/-- The batch that opens the two accounts of the transfer scenario. -/
def scenarioOpening : List LedgerCall :=
  [ .appendBatch
      [ { entryId := "SOURCE-OPEN", accountId := "ACCOUNT-SOURCE", amount := { cents := 100000 }
          entryType := .credit, description := "Opening balance", sequence := 1, postedAt := 1 },
        { entryId := "DESTINATION-OPEN", accountId := "ACCOUNT-DESTINATION"
          amount := { cents := 25000 }, entryType := .credit, description := "Opening balance"
          sequence := 2, postedAt := 2 } ] ]

/-- The transfer of the scenario: $150.00 from the first account to the
    second. -/
def scenarioTransfer : TransferRequest :=
  { transferId := "TRF-0001", sourceAccountId := "ACCOUNT-SOURCE"
    destinationAccountId := "ACCOUNT-DESTINATION", amountCents := 15000
    description := "Internal transfer" }

/-- The scenario's transfer leaves $850.00 and $400.00. -/
theorem processTransfer_scenario :
    let final := after (processTransfer scenarioTransfer)
      (finalState LedgerCall.exec Ledger.new scenarioOpening)
    accountBalance final "ACCOUNT-SOURCE" = 85000 ∧
      accountBalance final "ACCOUNT-DESTINATION" = 40000 := by
  have h := (processTransfer_conserves (finalState LedgerCall.exec Ledger.new scenarioOpening)
    ⟨scenarioOpening, rfl⟩ scenarioTransfer).2.1 _ _ rfl
  have hposted := h.2 rfl
  exact ⟨hposted.2.1.trans (by decide), hposted.2.2.1.trans (by decide)⟩

end BankSim
