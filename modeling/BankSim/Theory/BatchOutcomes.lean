import BankSim.Theory.AchBatch

/-!
# What a Batch Decides

All validations of a batch run at time 1 and all holds are taken at time 2, so
no validation of the batch ever sees a hold or a debit of another transfer of
the same batch. A transfer is therefore decided by its own request and by the
ledger the network was opened on: it completes exactly when its request is in
order and its account covers the amount alone.

Two batches over the same ledger agree on every transfer they share, whatever
else they contain and in whatever order they were received. In particular the
order of receipt has no influence on the balances, and a transfer ends in a
batch as it ends when it is received alone. The price is that an account can be
drawn on for the sum of all transfers that it covers one by one.

## Main definitions

* `AchBatch.Covered`: The request is in order and its account covers it.
* `AchBatch.decided`: What becomes of the transfer of a request.
* `AchBatch.Ends`: The network a batch leaves behind.
* `AchBatch.drawn`: What a batch takes from an account.

## Theorems

* `verdict_eq_none_iff`: A transfer passes exactly when it is covered.
* `balance_of_matches`: What matching debits take from an account.
* `standing_decides`: The end of the sweeps, transfer by transfer.
* `batches_agree`: Two batches over one ledger.
-/

namespace BankSim

open Exec

namespace AchBatch

/-- The request is in order and its account covers its amount, whatever else is
    asked of the account. -/
def Covered (ledger : Ledger) (request : AchTransferRequest) : Prop :=
  request.invalidReason = none ∧
    request.amountCents ≤ accountBalance ledger request.sourceAccountId

instance (ledger : Ledger) : DecidablePred (Covered ledger) :=
  fun request => inferInstanceAs (Decidable (request.invalidReason = none ∧
    request.amountCents ≤ accountBalance ledger request.sourceAccountId))

/-- What becomes of the transfer of a request. -/
def decided (ledger : Ledger) (request : AchTransferRequest) : AchTransfer :=
  match verdict ledger request with
  | some reason => (request.staged 0).rejected 1 reason
  | none => request.staged 5

/-- A batch is received by a new network, and the scheduler runs dry and leaves
    the network behind. -/
def Ends (ledger : Ledger) (requests : List AchTransferRequest)
    (final : AchNetwork AchCallback) : Prop :=
  ∃ received, (receiveAll requests).run (AchNetwork.new ledger) = .ok () received ∧
    ∃ enough, ∀ rounds, enough ≤ rounds →
      (EventScheduler.run AchNetwork.schedulerOf (AchNetwork.call id) rounds).run received
        = .ok true final

/-- What a batch takes from an account. -/
def drawn (ledger : Ledger) (requests : List AchTransferRequest) (accountId : String) : Int :=
  ((requests.filter fun request =>
    Covered ledger request ∧ request.sourceAccountId = accountId).map (·.amountCents)).sum

/-- The data of an entry that says what was posted. -/
def row (entry : LedgerEntry) : String × String × Int × EntryType :=
  (entry.entryId, entry.accountId, entry.amount.cents, entry.entryType)

section Decided

variable {ledger : Ledger} {requests others : List AchTransferRequest}
  {request : AchTransferRequest}

/-- A network without holds promises the whole balance. -/
theorem availableBalance_new (ledger : Ledger) (accountId : String) :
    (AchNetwork.new ledger : AchNetwork AchCallback).availableBalance accountId
      = accountBalance ledger accountId := by
  unfold AchNetwork.availableBalance AchNetwork.new
  simp only [List.filter_nil, List.map_nil, List.sum_nil, Int.sub_zero]

theorem verdict_eq_none_iff : verdict ledger request = none ↔ Covered ledger request := by
  unfold verdict AchNetwork.rejectionReason Covered
  rw [availableBalance_new]
  cases hinvalid : request.invalidReason with
  | some reason => simp only [reduceCtorEq, false_and]
  | none =>
      by_cases hfunds : request.amountCents > accountBalance ledger request.sourceAccountId
      · simp only [if_pos hfunds, reduceCtorEq, true_and, false_iff, not_le]
        exact hfunds
      · simp only [if_neg hfunds, true_and, true_iff]
        exact not_lt.mp hfunds

theorem accepted_eq : accepted ledger requests = requests.filter fun request =>
    Covered ledger request :=
  List.filter_congr fun _ _ => by simp only [verdict_eq_none_iff]

/-- A transfer is completed in the end exactly when it is covered. -/
theorem decided_completed_iff :
    (decided ledger request).status = .completed ↔ Covered ledger request := by
  rw [← verdict_eq_none_iff]
  unfold decided
  cases verdict ledger request with
  | none => exact iff_of_true rfl rfl
  | some reason => exact iff_of_false (nomatch ·) (nomatch ·)

theorem decided_request (ledger : Ledger) (request : AchTransferRequest) :
    (decided ledger request).request = request := by
  unfold decided
  cases verdict ledger request with
  | none => rfl
  | some reason => rfl

theorem viewAt_end (ledger : Ledger) (request : AchTransferRequest) :
    viewAt ledger 5 [] request = decided ledger request := by
  unfold viewAt decided
  cases verdict ledger request with
  | none => simp only [List.not_mem_nil, if_false]
  | some reason => simp only [OfNat.ofNat_ne_zero, false_and, if_false]

/-- What entries that match the debits of some requests take from an account. -/
theorem balance_of_matches {entries : List LedgerEntry}
    (h : List.Forall₂ (fun request entry => request.debitPosting.Matches entry) requests entries)
    (accountId : String) :
    totalCents (entries.filter fun entry => entry.accountId = accountId)
      = -((requests.filter fun request => request.sourceAccountId = accountId).map
          (·.amountCents)).sum := by
  induction h with
  | nil => rfl
  | @cons request entry requests entries hmatches _ ih =>
      rcases hmatches with ⟨-, haccount, hcents, htype⟩
      have hsigned : entry.signedCents = -request.amountCents := by
        unfold LedgerEntry.signedCents
        rw [htype, hcents]
        change (if EntryType.debit = .credit then 1 else -1) * request.amountCents = _
        rw [if_neg (by decide)]
        omega
      by_cases hsource : request.sourceAccountId = accountId
      · have hentry : entry.accountId = accountId := haccount.trans hsource
        rw [List.filter_cons_of_pos (by simpa using hentry),
          List.filter_cons_of_pos (by simpa using hsource)]
        simp only [totalCents, List.map_cons, List.sum_cons] at ih ⊢
        omega
      · have hentry : entry.accountId ≠ accountId := fun h => hsource (haccount.symm.trans h)
        rw [List.filter_cons_of_neg (by simpa using hentry),
          List.filter_cons_of_neg (by simpa using hsource)]
        exact ih

/-- Entries that match debits say what the requests say. -/
theorem rows_of_matches {entries : List LedgerEntry}
    (h : List.Forall₂ (fun request entry => request.debitPosting.Matches entry)
      requests entries) :
    entries.map row = requests.map fun request =>
      (request.transferId ++ "-DEBIT", request.sourceAccountId, request.amountCents, .debit) := by
  induction h with
  | nil => rfl
  | cons hmatches _ ih =>
      rcases hmatches with ⟨hid, haccount, hcents, htype⟩
      rw [List.map_cons, List.map_cons, ih]
      unfold row
      rw [hid, haccount, hcents, htype]
      rfl

end Decided

/-- The end of a batch, transfer by transfer and account by account. -/
structure Decides (ledger : Ledger) (requests : List AchTransferRequest)
    (final : AchNetwork AchCallback) : Prop where
  transfers : ∀ request ∈ requests,
    final.transfers.get? request.transferId = some (decided ledger request)
  balances : ∀ accountId, accountBalance final.ledger accountId
    = accountBalance ledger accountId - drawn ledger requests accountId
  rows : final.ledger.entries.map row = ledger.entries.map row ++
    (requests.filter fun request => Covered ledger request).map fun request =>
      (request.transferId ++ "-DEBIT", request.sourceAccountId, request.amountCents, .debit)

theorem standing_decides {ledger : Ledger} {requests : List AchTransferRequest}
    (hids : (ids requests).Nodup) {network : AchNetwork AchCallback}
    (h : Standing ledger requests (viewAt ledger 5 []) [] (accepted ledger requests)
      (accepted ledger requests) network) : Decides ledger requests network := by
  rcases h.entries with ⟨entries, hentries, hmatches⟩
  refine ⟨fun request hmem => ?_, fun accountId => ?_, ?_⟩
  · rw [h.viewed.get? hids hmem, viewAt_end]
  · have htotal := balance_of_matches hmatches accountId
    rw [accountBalance_eq_totalCents, hentries, List.filter_append, totalCents_append, htotal,
      accountBalance_eq_totalCents, accepted_eq, List.filter_filter]
    unfold drawn
    simp only [Bool.decide_and, Bool.and_comm]
    rfl
  · rw [hentries, List.map_append, rows_of_matches hmatches, accepted_eq]

/-- A batch that may be received ends, and it decides each transfer by itself. -/
theorem ends_decides {ledger : Ledger} {requests : List AchTransferRequest}
    (h : Receivable ledger requests) :
    ∃ final, Ends ledger requests final ∧ Decides ledger requests final := by
  rcases receiveAll_run [] requests (received_new ledger) h.distinct with
    ⟨received, hreceive, hreceived⟩
  rcases sweeps h hreceived with ⟨final, hleads, hstanding, hagenda⟩
  have hqueue : final.scheduler.queue = [] := List.map_eq_nil_iff.mp hagenda
  exact ⟨final, ⟨received, hreceive,
    EventScheduler.run_of_leads AchNetwork.schedulerOf (AchNetwork.call id) hleads hqueue⟩,
    standing_decides h.distinct hstanding⟩

theorem drawn_perm {ledger : Ledger} {requests others : List AchTransferRequest}
    (h : requests.Perm others) (accountId : String) :
    drawn ledger requests accountId = drawn ledger others accountId :=
  ((h.filter _).map _).sum_eq

/-- What two batches over one ledger have in common, and what each does. -/
structure Agree (ledger : Ledger) (requests others : List AchTransferRequest)
    (final final' : AchNetwork AchCallback) : Prop where
  shared : ∀ request ∈ requests, request ∈ others →
    final.transfers.get? request.transferId = final'.transfers.get? request.transferId
  outcome : ∀ request ∈ requests, ∃ transfer,
    final.transfers.get? request.transferId = some transfer ∧ transfer.request = request ∧
      (transfer.status = .completed ↔ Covered ledger request)
  balances : ∀ accountId, accountBalance final.ledger accountId
    = accountBalance ledger accountId - drawn ledger requests accountId
  reordered : requests.Perm others →
    (∀ accountId, accountBalance final.ledger accountId
      = accountBalance final'.ledger accountId) ∧
    (final.ledger.entries.map row).Perm (final'.ledger.entries.map row)

/-- Two batches that one ledger may receive agree on the transfers they share, each
    of which completes exactly when its account covers it alone, and a batch takes
    from an account the sum of what the account covers one by one. Batches that differ
    in the order of receipt only leave the same balances and the same rows behind. -/
theorem batches_agree (ledger : Ledger) (requests others : List AchTransferRequest)
    (h : Receivable ledger requests) (h' : Receivable ledger others) :
    ∃ final final', Ends ledger requests final ∧ Ends ledger others final' ∧
      Agree ledger requests others final final' := by
  rcases ends_decides h with ⟨final, hends, hdecides⟩
  rcases ends_decides h' with ⟨final', hends', hdecides'⟩
  refine ⟨final, final', hends, hends', ?_⟩
  constructor
  case shared =>
    intro request hmem hmem'
    rw [hdecides.transfers request hmem, hdecides'.transfers request hmem']
  case outcome =>
    intro request hmem
    exact ⟨_, hdecides.transfers request hmem, decided_request ledger request,
      decided_completed_iff⟩
  case balances => exact hdecides.balances
  case reordered =>
    intro hperm
    constructor
    · intro accountId
      rw [hdecides.balances, hdecides'.balances, drawn_perm hperm]
    · rw [hdecides.rows, hdecides'.rows]
      exact ((hperm.filter _).map _).append_left _

/-- The opening ledger of $1,000.00. -/
def batchLedger : Ledger :=
  finalState LedgerCall.exec Ledger.new batchOpening

theorem receivable_batchLedger {requests : List AchTransferRequest}
    (hids : (ids requests).Nodup)
    (hdescribed : ∀ request ∈ requests, request.description = "" ∨
      isBlank request.description = false)
    (hfresh : ∀ request ∈ requests, ∀ entry ∈ batchLedger.entries,
      entry.entryId ≠ request.transferId ++ "-DEBIT") : Receivable batchLedger requests :=
  ⟨Ledger.reachable_wellFormed ⟨batchOpening, rfl⟩, by decide, hids, hdescribed, hfresh⟩

theorem batches_agree_reversed :
    ∃ final final', Ends batchLedger batchOfTwo final ∧
      Ends batchLedger batchOfTwo.reverse final' ∧
      Agree batchLedger batchOfTwo batchOfTwo.reverse final final' :=
  batches_agree batchLedger batchOfTwo batchOfTwo.reverse
    (receivable_batchLedger (by decide) (by decide) (by decide))
    (receivable_batchLedger (by decide) (by decide) (by decide))

end AchBatch

end BankSim
