import BankSim.Theory.AchDrains
import BankSim.Theory.Expectations

/-!
# What a Clean Reconciliation Says about the Ledger

The settlement expectations are compared with what the network reports, and
the ledger takes no part in that. But in a driven run the expectations agree
with the ledger, so a report without exceptions should mean that the network
reports what was posted.

It does, unless a completed return has the identifier of a completed
transfer. The two have different entries and different expectations, and the
comparison goes by the identifier alone: it keeps one of the two, and a
network that reports only that one is reconciled without an exception, while
the ledger has an entry that nobody reports.

So a clean reconciliation can be trusted in exactly the states in which no
identifier is shared. In those it is also complete: whatever the network
reports, there is no exception if and only if it is what was posted.

## Main definitions

* `AchSystem.posted`: The entries since the opening.
* `AchSystem.Reported`: The rows are those of the posted entries.
* `AchSystem.Clean`: The comparison has no exception.
* `AchSystem.SharedId`: A completed transfer and a completed return share
  their identifier.
* `AchSystem.Reconcilable`: What comparisons say about the ledger.

## Theorems

* `expectations_posted`: The expectations are those of the posted entries.
* `clean_iff_reported`: What a comparison says when nothing is shared.
* `certifies_iff`: When clean comparisons can be trusted.
* `reconciliation_certifies`: The same in every state of a driven run.
-/

namespace BankSim

open Exec

/-- The terms of the entry that belongs to a settlement. -/
def settledTerms (terms : String × SettlementDirection × Int) : String × EntryType × Int :=
  match terms with
  | (paymentId, .outbound, cents) => (paymentId ++ "-DEBIT", .debit, cents)
  | (paymentId, .return, cents) => (paymentId ++ "-CREDIT", .credit, cents)

theorem SettlementRecord.settledTerms_terms (record : SettlementRecord) :
    settledTerms record.terms = record.entryTerms := by
  unfold terms entryTerms settledTerms
  cases record.direction <;> rfl

/-- The entry tells which settlement it belongs to. -/
theorem settledTerms_injective : Function.Injective settledTerms := by
  rintro ⟨paymentId, direction, cents⟩ ⟨paymentId', direction', cents'⟩ h
  cases direction <;> cases direction' <;> simp only [settledTerms, Prod.mk.injEq] at h
  · rw [append_suffix_inj h.1, h.2.2]
  · exact absurd h.2.1 (by decide)
  · exact absurd h.2.1 (by decide)
  · rw [append_suffix_inj h.1, h.2.2]

namespace AchSystem

/-- The entries since the opening. -/
def posted (opening : Ledger) (system : AchSystem) : List LedgerEntry :=
  system.network.ledger.entries.drop opening.entries.length

/-- The rows are those of the posted entries, in some order. -/
def Reported (opening : Ledger) (system : AchSystem) (external : ExternalSettlementReport) :
    Prop :=
  (external.records.map fun row => settledTerms row.terms).Perm
    ((system.posted opening).map LedgerEntry.terms)

/-- Comparing the expectations with the rows finds no exception. -/
def Clean (generatedAt : Int) (system : AchSystem) (external : ExternalSettlementReport)
    (completedAt : Int) : Prop :=
  (reconcile (system.expectations generatedAt) external completedAt).exceptionCount = 0

/-- A completed transfer and a completed return have the same identifier. -/
def SharedId (system : AchSystem) : Prop :=
  ∃ (paymentId : String) (transfer : AchTransfer) (item : AchReturn),
    system.network.transfers.get? paymentId = some transfer ∧ transfer.status = .completed ∧
      system.returns.get? paymentId = some item ∧ item.status = .completed

/-- Whenever there is no exception, the rows are those of the posted
    entries. -/
def Certifies (opening : Ledger) (generatedAt : Int) (system : AchSystem) : Prop :=
  ∀ external completedAt, system.Clean generatedAt external completedAt →
    system.Reported opening external

/-- What comparisons say about the ledger. -/
structure Reconcilable (opening : Ledger) (generatedAt : Int) (system : AchSystem) : Prop where
  certifies : system.Certifies opening generatedAt ↔ ¬ system.SharedId
  clean : ¬ system.SharedId → ∀ external completedAt,
    system.Clean generatedAt external completedAt ↔ system.Reported opening external
  matched : ¬ system.SharedId → ∀ external completedAt,
    system.Clean generatedAt external completedAt →
      (reconcile (system.expectations generatedAt) external completedAt).matchedCount
        = (system.posted opening).length

section State

variable {opening : Ledger} {system : AchSystem} (generatedAt : Int)

/-- The expectations are those of the posted entries. -/
theorem expectations_posted (h : system.InOrder opening) :
    ((system.expectations generatedAt).map fun record => settledTerms record.terms).Perm
      ((system.posted opening).map LedgerEntry.terms) := by
  rcases (h.settles generatedAt).records with ⟨entries, hentries, hperm⟩
  have hposted : system.posted opening = entries := by
    rw [posted, hentries, List.drop_left]
  rw [hposted]
  simp only [SettlementRecord.settledTerms_terms]
  exact hperm

/-- Rows that are those of some expectations, up to the entries they stand
    for. -/
theorem terms_perm_iff (external : ExternalSettlementReport) (records : List SettlementRecord) :
    (external.records.map fun row => settledTerms row.terms).Perm
        (records.map fun record => settledTerms record.terms) ↔
      (external.records.map (·.terms)).Perm (records.map (·.terms)) := by
  have hexternal : external.records.map (fun row => settledTerms row.terms)
      = (external.records.map (·.terms)).map settledTerms := by rw [List.map_map]; rfl
  have hrecords : records.map (fun record => settledTerms record.terms)
      = (records.map (·.terms)).map settledTerms := by rw [List.map_map]; rfl
  rw [hexternal, hrecords, List.map_perm_map_iff settledTerms_injective]

/-- A workflow is kept once. -/
theorem onePerId (h : system.InOrder opening) :
    OnePerId (·.request.transferId) system.network.transfers.values ∧
      OnePerId (·.request.returnId) system.returns.values := by
  constructor
  · intro a ha b hb hsame
    change a.request.transferId = b.request.transferId at hsame
    rcases (Dict.mem_values_iff _ _).mp ha with ⟨transferId, hget⟩
    rcases (Dict.mem_values_iff _ _).mp hb with ⟨otherId, hother⟩
    have hid : a.request.transferId = transferId := (h.settling.transfers transferId a hget).filed
    have hid' : b.request.transferId = otherId := (h.settling.transfers otherId b hother).filed
    rw [← hid', ← hsame, hid, hget] at hother
    exact Option.some.inj hother
  · intro a ha b hb hsame
    change a.request.returnId = b.request.returnId at hsame
    rcases (Dict.mem_values_iff _ _).mp ha with ⟨returnId, hget⟩
    rcases (Dict.mem_values_iff _ _).mp hb with ⟨otherId, hother⟩
    have hid : a.request.returnId = returnId := (h.settling.returns returnId a hget).filed
    have hid' : b.request.returnId = otherId := (h.settling.returns otherId b hother).filed
    rw [← hid', ← hsame, hid, hget] at hother
    exact Option.some.inj hother

theorem reported_iff (h : system.InOrder opening) (external : ExternalSettlementReport) :
    system.Reported opening external ↔ (external.records.map (·.terms)).Perm
      ((system.expectations generatedAt).map (·.terms)) := by
  rw [← terms_perm_iff]
  exact ((expectations_posted generatedAt h).congr_right _).symm

/-- A transfer that is expected to settle is completed, and the other way
    round. -/
theorem expected_outbound_iff (h : system.InOrder opening) (paymentId : String) :
    (∃ record ∈ system.expectations generatedAt, record.paymentId = paymentId ∧
        record.direction = .outbound) ↔
      ∃ transfer, system.network.transfers.get? paymentId = some transfer ∧
        transfer.status = .completed := by
  rcases onePerId h with ⟨htransfers, hreturns⟩
  unfold expectations
  simp only [mem_settlementExpectations generatedAt htransfers hreturns, mem_completedRecords]
  constructor
  · rintro ⟨record, ⟨transfer, hvalue, hdone, rfl⟩ | ⟨item, -, -, rfl⟩, hpayment, hdirection⟩
    · rcases (Dict.mem_values_iff _ _).mp hvalue with ⟨transferId, hget⟩
      have hid : transfer.request.transferId = transferId :=
        (h.settling.transfers transferId transfer hget).filed
      rw [← hid] at hget
      rw [← hpayment]
      exact ⟨transfer, hget, hdone⟩
    · cases hdirection
  · rintro ⟨transfer, hget, hdone⟩
    have hvalue := (Dict.mem_values_iff _ _).mpr ⟨paymentId, hget⟩
    exact ⟨transfer.expectation generatedAt, Or.inl ⟨transfer, hvalue, hdone, rfl⟩,
      (h.settling.transfers paymentId transfer hget).filed, rfl⟩

theorem expected_return_iff (h : system.InOrder opening) (paymentId : String) :
    (∃ record ∈ system.expectations generatedAt, record.paymentId = paymentId ∧
        record.direction = .return) ↔
      ∃ item, system.returns.get? paymentId = some item ∧ item.status = .completed := by
  rcases onePerId h with ⟨htransfers, hreturns⟩
  unfold expectations
  simp only [mem_settlementExpectations generatedAt htransfers hreturns, mem_completedRecords]
  constructor
  · rintro ⟨record, ⟨transfer, -, -, rfl⟩ | ⟨item, hvalue, hdone, rfl⟩, hpayment, hdirection⟩
    · cases hdirection
    · rcases (Dict.mem_values_iff _ _).mp hvalue with ⟨returnId, hget⟩
      have hid : item.request.returnId = returnId :=
        (h.settling.returns returnId item hget).filed
      rw [← hid] at hget
      rw [← hpayment]
      exact ⟨item, hget, hdone⟩
  · rintro ⟨item, hget, hdone⟩
    have hvalue := (Dict.mem_values_iff _ _).mpr ⟨paymentId, hget⟩
    exact ⟨item.expectation generatedAt, Or.inr ⟨item, hvalue, hdone, rfl⟩,
      (h.settling.returns paymentId item hget).filed, rfl⟩

/-- The payments of the expectations are distinct if and only if no identifier
    is shared. -/
theorem nodup_payments_iff (h : system.InOrder opening) :
    ((system.expectations generatedAt).map (·.paymentId)).Nodup ↔ ¬ system.SharedId := by
  have hkeys : ((system.expectations generatedAt).map SettlementRecord.matchingKey).Nodup :=
    settlementExpectations_nodup _ _ generatedAt
  constructor
  · rintro hnodup ⟨paymentId, transfer, item, htransfer, hdone, hitem, hreturned⟩
    rcases (expected_outbound_iff generatedAt h paymentId).mpr ⟨transfer, htransfer, hdone⟩ with
      ⟨outbound, houtbound, hpayment, hdirection⟩
    rcases (expected_return_iff generatedAt h paymentId).mpr ⟨item, hitem, hreturned⟩ with
      ⟨returned, hreturn, hpayment', hdirection'⟩
    -- The two records would have to be one.
    have hsame := List.inj_on_of_nodup_map hnodup houtbound hreturn
      (hpayment.trans hpayment'.symm)
    rw [hsame, hdirection'] at hdirection
    cases hdirection
  · intro hshared
    refine (List.Nodup.of_map _ hkeys).map_on fun a ha b hb hpayment => ?_
    refine List.inj_on_of_nodup_map hkeys ha hb (Prod.ext hpayment ?_)
    change a.direction = b.direction
    by_contra hdirections
    refine hshared ?_
    -- One of the two is outbound, and the other is a return.
    cases hdirection : a.direction <;> cases hdirection' : b.direction
    · exact absurd (hdirection.trans hdirection'.symm) hdirections
    · rcases (expected_outbound_iff generatedAt h a.paymentId).mp ⟨a, ha, rfl, hdirection⟩ with
        ⟨transfer, htransfer, hdone⟩
      rcases (expected_return_iff generatedAt h a.paymentId).mp
        ⟨b, hb, hpayment.symm, hdirection'⟩ with ⟨item, hitem, hreturned⟩
      exact ⟨_, transfer, item, htransfer, hdone, hitem, hreturned⟩
    · rcases (expected_outbound_iff generatedAt h a.paymentId).mp
        ⟨b, hb, hpayment.symm, hdirection'⟩ with ⟨transfer, htransfer, hdone⟩
      rcases (expected_return_iff generatedAt h a.paymentId).mp ⟨a, ha, rfl, hdirection⟩ with
        ⟨item, hitem, hreturned⟩
      exact ⟨_, transfer, item, htransfer, hdone, hitem, hreturned⟩
    · exact absurd (hdirection.trans hdirection'.symm) hdirections

/-- With no identifier shared, there is no exception exactly when the rows are
    those of the posted entries, and then every entry is matched. -/
theorem clean_iff_reported (h : system.InOrder opening) (hshared : ¬ system.SharedId)
    (external : ExternalSettlementReport) (completedAt : Int) :
    (system.Clean generatedAt external completedAt ↔ system.Reported opening external) ∧
      (system.Clean generatedAt external completedAt →
        (reconcile (system.expectations generatedAt) external completedAt).matchedCount
          = (system.posted opening).length) := by
  have hnodup := (nodup_payments_iff generatedAt h).mpr hshared
  rcases reconciles_of_nodup (system.expectations generatedAt) external completedAt hnodup with
    ⟨hclean, hmatched⟩
  refine ⟨hclean.trans (reported_iff generatedAt h external).symm, fun hzero => ?_⟩
  have hlength := (expectations_posted generatedAt h).length_eq
  rw [List.length_map, List.length_map] at hlength
  rw [hmatched hzero, hlength]

/-- Clean comparisons can be trusted if and only if no identifier is
    shared. -/
theorem certifies_iff (h : system.InOrder opening) :
    system.Certifies opening generatedAt ↔ ¬ system.SharedId := by
  constructor
  · intro hcertifies hshared
    have hnodup := (nodup_payments_iff generatedAt h).not_left.mpr hshared
    -- The network reports what the index by payment has kept.
    let external := mirrored (expectationsLeft (system.expectations generatedAt))
    have hterms := terms_mirrored (expectationsLeft (system.expectations generatedAt))
    have hclean : system.Clean generatedAt external 0 := by
      refine (exceptionCount_eq_zero_iff _ external 0).mpr ?_
      rw [hterms]
    have hreported := (reported_iff generatedAt h external).mp (hcertifies external 0 hclean)
    refine not_perm_and_perm _ external hnodup hreported ?_
    rw [hterms]
  · intro hshared external completedAt hclean
    exact ((clean_iff_reported generatedAt h hshared external completedAt).1).mp hclean

theorem InOrder.reconcilable (h : system.InOrder opening) :
    system.Reconcilable opening generatedAt where
  certifies := certifies_iff generatedAt h
  clean hshared external completedAt := (clean_iff_reported generatedAt h hshared external
    completedAt).1
  matched hshared external completedAt := (clean_iff_reported generatedAt h hshared external
    completedAt).2

end State

end AchSystem

/-- In every state of a driven run, clean comparisons can be trusted exactly
    when no completed return has the identifier of a completed transfer. Then
    there is no exception exactly when the network reports what was posted,
    and each posted entry is matched. -/
theorem reconciliation_certifies (ledger : Ledger) (hledger : ledger.Reachable)
    (hposted : ∀ entry ∈ ledger.entries, entry.postedAt ≤ 10)
    (scheduler : EventScheduler (AchCallback ⊕ AchReturnCallback)) (hqueue : scheduler.queue = [])
    (calls : List AchSystemCall) (hcalls : ∀ call ∈ calls, call.Driven ledger)
    (generatedAt : Int) :
    AllStates AchSystemCall.exec (AchSystem.Reconcilable ledger generatedAt)
      (AchReturnProcessor.new (AchNetwork.new ledger scheduler)) calls := by
  have hdriven : AllSteps AchSystemCall.exec (fun _ call => call.Driven ledger)
      (AchReturnProcessor.new (AchNetwork.new ledger scheduler)) calls :=
    allSteps_of_forall fun _ call hmem => hcalls call hmem
  have horder := allStates_of_allSteps AchSystem.inOrder_exec
    (AchSystem.inOrder_new ledger hledger hposted scheduler hqueue) hdriven
  exact allStates_mono (fun _ h => h.reconcilable generatedAt) horder

theorem reconciliation_certifies_returnedTransfer :
    AllStates AchSystemCall.exec
      (AchSystem.Reconcilable (finalState LedgerCall.exec Ledger.new settlementOpening) 40)
      (AchReturnProcessor.new (AchNetwork.new
        (finalState LedgerCall.exec Ledger.new settlementOpening) EventScheduler.new))
      returnedTransfer :=
  reconciliation_certifies (finalState LedgerCall.exec Ledger.new settlementOpening)
    ⟨settlementOpening, rfl⟩ (by decide) EventScheduler.new rfl returnedTransfer (by decide) 40

end BankSim
