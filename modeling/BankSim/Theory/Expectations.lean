import BankSim.Theory.Settlement

/-!
# Which Expectations Are Derived

The expectations of completed workflows, as a function of which workflows
there are. The dictionary behind `settlementExpectations` keeps the last
record under each payment and direction, and that hides how often and in
which order the workflows were listed, as long as an identifier stands for
one workflow.

A payment and a direction lead back to the workflow, so the records to
choose from are told apart by their matching keys, and each of them is kept
once. Sorting by a key that tells the records apart then leaves only one
order to put them in.

A transfer and a return may share an identifier. Their records differ in the
direction and both are kept.

## Main definitions

* `AchTransfer.expectation`, `AchReturn.expectation`: The record of one
  workflow.
* `completedRecords`: The records of the distinct completed workflows.
* `OnePerId`: An identifier stands for one element of a list.

## Theorems

* `settlementExpectations_eq`: The expectations, through those records.
* `completedRecords_eq_of_key`: The matching key tells the records apart.
* `settlementExpectations_congr`: Order and repetitions do not matter.
* `settlementExpectations_derive`: What the expectations are.
-/

namespace BankSim

theorem SettlementDirection.value_injective : Function.Injective SettlementDirection.value := by
  intro a b h
  cases a <;> cases b <;> simp [SettlementDirection.value] at h ⊢

/-- The key the expectations are sorted by. -/
def SettlementRecord.sortKey (self : SettlementRecord) : String ×ₗ String :=
  toLex (self.paymentId, self.direction.value)

/-- Sorting looks at the matching key and at nothing else. -/
theorem SettlementRecord.sortKey_eq_iff (a b : SettlementRecord) :
    a.sortKey = b.sortKey ↔ a.matchingKey = b.matchingKey := by
  simp only [sortKey, matchingKey, toLex_inj, Prod.mk.injEq,
    SettlementDirection.value_injective.eq_iff]

/-- What is expected of a completed transfer. -/
def AchTransfer.expectation (generatedAt : Int) (self : AchTransfer) : SettlementRecord where
  recordId := "SETTLEMENT-" ++ self.request.transferId
  paymentId := self.request.transferId
  amountCents := self.request.amountCents
  direction := .outbound
  expectedAt := generatedAt

/-- What is expected of a completed return. -/
def AchReturn.expectation (generatedAt : Int) (self : AchReturn) : SettlementRecord where
  recordId := "SETTLEMENT-" ++ self.request.returnId
  paymentId := self.request.returnId
  amountCents := self.request.amountCents
  direction := .return
  expectedAt := generatedAt

/-- An identifier stands for one element of a list, listed as often as may
    be. -/
def OnePerId {α : Type} (id : α → String) (rows : List α) : Prop :=
  ∀ a ∈ rows, ∀ b ∈ rows, id a = id b → a = b

/-- The records of completed workflows, as they are listed. -/
def completedRecords (transfers : List AchTransfer) (returns : List AchReturn)
    (generatedAt : Int) : List SettlementRecord :=
  (transfers.filter fun transfer => transfer.status = .completed).map
      (AchTransfer.expectation generatedAt)
    ++ (returns.filter fun item => item.status = .completed).map
      (AchReturn.expectation generatedAt)

/-- The expectations are what the index by matching key keeps of the
    records. -/
theorem settlementExpectations_eq (transfers : List AchTransfer) (returns : List AchReturn)
    (generatedAt : Int) :
    settlementExpectations transfers returns generatedAt =
      sortedBy SettlementRecord.sortKey (Dict.index SettlementRecord.matchingKey
        (completedRecords transfers returns generatedAt)).values :=
  rfl

section Derivation

variable {transfers : List AchTransfer} {returns : List AchReturn} (generatedAt : Int)

theorem mem_completedRecords (record : SettlementRecord) :
    record ∈ completedRecords transfers returns generatedAt ↔
      (∃ transfer ∈ transfers, transfer.status = .completed ∧
          transfer.expectation generatedAt = record) ∨
        ∃ item ∈ returns, item.status = .completed ∧ item.expectation generatedAt = record := by
  simp only [completedRecords, List.mem_append, List.mem_map, List.mem_filter, decide_eq_true_eq,
    and_assoc]

/-- Payment and direction lead back to the workflow, and so to the record. -/
theorem completedRecords_eq_of_key (htransfers : OnePerId (·.request.transferId) transfers)
    (hreturns : OnePerId (·.request.returnId) returns) :
    ∀ a ∈ completedRecords transfers returns generatedAt,
      ∀ b ∈ completedRecords transfers returns generatedAt,
        a.matchingKey = b.matchingKey → a = b := by
  intro a ha b hb hkey
  rw [mem_completedRecords] at ha hb
  rw [SettlementRecord.matchingKey, SettlementRecord.matchingKey, Prod.mk.injEq] at hkey
  rcases ha with ⟨transfer, htransfer, -, rfl⟩ | ⟨item, hitem, -, rfl⟩
  · rcases hb with ⟨other, hother, -, rfl⟩ | ⟨other, -, -, rfl⟩
    · have hsame : transfer = other := htransfers transfer htransfer other hother hkey.1
      rw [hsame]
    · -- The directions differ.
      cases hkey.2
  · rcases hb with ⟨other, -, -, rfl⟩ | ⟨other, hother, -, rfl⟩
    · cases hkey.2
    · have hsame : item = other := hreturns item hitem other hother hkey.1
      rw [hsame]

/-- The expectations are the records, each of them once. -/
theorem mem_settlementExpectations (htransfers : OnePerId (·.request.transferId) transfers)
    (hreturns : OnePerId (·.request.returnId) returns) (record : SettlementRecord) :
    record ∈ settlementExpectations transfers returns generatedAt ↔
      record ∈ completedRecords transfers returns generatedAt := by
  rw [settlementExpectations_eq, (sortedBy_perm _ _).mem_iff]
  exact Dict.mem_values_index _ (completedRecords_eq_of_key generatedAt htransfers hreturns) record

/-- Payment and direction text increase strictly, whatever the workflows. -/
theorem settlementExpectations_increasing :
    (settlementExpectations transfers returns generatedAt).Pairwise
      fun a b => a.sortKey < b.sortKey := by
  rw [settlementExpectations_eq]
  refine sortedBy_pairwise_lt _ _ ?_
  have hkeys := Dict.map_values_index SettlementRecord.matchingKey
    (completedRecords transfers returns generatedAt)
  -- Distinct matching keys are distinct sort keys.
  have hnodup : ((Dict.index SettlementRecord.matchingKey
      (completedRecords transfers returns generatedAt)).values.map
        SettlementRecord.matchingKey).Nodup := by
    rw [hkeys]
    exact Dict.keys_nodup _
  rw [List.Nodup, List.pairwise_map] at hnodup ⊢
  exact hnodup.imp fun hne hsame => hne ((SettlementRecord.sortKey_eq_iff _ _).mp hsame)

/-- The same workflows have the same expectations, in whichever order and
    however often they are listed. -/
theorem settlementExpectations_congr {transfers' : List AchTransfer} {returns' : List AchReturn}
    (htransfers : OnePerId (·.request.transferId) transfers)
    (hreturns : OnePerId (·.request.returnId) returns)
    (hsame : ∀ transfer, transfer ∈ transfers' ↔ transfer ∈ transfers)
    (hsame' : ∀ item, item ∈ returns' ↔ item ∈ returns) :
    settlementExpectations transfers' returns' generatedAt
      = settlementExpectations transfers returns generatedAt := by
  have htransfers' : OnePerId (·.request.transferId) transfers' := fun a ha b hb =>
    htransfers a ((hsame a).mp ha) b ((hsame b).mp hb)
  have hreturns' : OnePerId (·.request.returnId) returns' := fun a ha b hb =>
    hreturns a ((hsame' a).mp ha) b ((hsame' b).mp hb)
  rw [settlementExpectations_eq, settlementExpectations_eq]
  refine sortedBy_eq_of_perm _ ?_ ?_
  · refine (List.perm_ext_iff_of_nodup (Dict.nodup_values_index _ _)
      (Dict.nodup_values_index _ _)).mpr fun record => ?_
    rw [Dict.mem_values_index _ (completedRecords_eq_of_key generatedAt htransfers' hreturns'),
      Dict.mem_values_index _ (completedRecords_eq_of_key generatedAt htransfers hreturns),
      mem_completedRecords, mem_completedRecords]
    simp only [hsame, hsame']
  · intro a ha b hb hkey
    have hunique := completedRecords_eq_of_key generatedAt htransfers' hreturns'
    rw [Dict.mem_values_index _ hunique] at ha hb
    exact hunique a ha b hb ((SettlementRecord.sortKey_eq_iff a b).mp hkey)

end Derivation

/-- Different workflows of one kind have different expectations. -/
theorem nodup_map_expectation {α : Type} [DecidableEq α] {id : α → String} {rows : List α}
    (hrows : OnePerId id rows) (completed : α → Bool) {expectation : α → SettlementRecord}
    (hpayment : ∀ a, (expectation a).paymentId = id a) :
    ((rows.dedup.filter completed).map expectation).Nodup := by
  refine List.Nodup.map_on ?_ ((List.nodup_dedup rows).filter _)
  intro a ha b hb hsame
  refine hrows a (List.mem_dedup.mp (List.mem_of_mem_filter ha)) b
    (List.mem_dedup.mp (List.mem_of_mem_filter hb)) ?_
  rw [← hpayment, ← hpayment, hsame]

/-- The expectations increase in payment and direction text, are one record
    for each distinct completed workflow and nothing else, and depend only on
    which workflows are listed. -/
theorem settlementExpectations_derive (transfers : List AchTransfer) (returns : List AchReturn)
    (generatedAt : Int) (htransfers : OnePerId (·.request.transferId) transfers)
    (hreturns : OnePerId (·.request.returnId) returns) :
    ((settlementExpectations transfers returns generatedAt).Pairwise fun a b =>
        toLex (a.paymentId, a.direction.value) < toLex (b.paymentId, b.direction.value)) ∧
      (settlementExpectations transfers returns generatedAt).Perm
        ((transfers.dedup.filter fun transfer => transfer.status = .completed).map
            (AchTransfer.expectation generatedAt)
          ++ (returns.dedup.filter fun item => item.status = .completed).map
            (AchReturn.expectation generatedAt)) ∧
      ∀ transfers' returns', (∀ transfer, transfer ∈ transfers' ↔ transfer ∈ transfers) →
        (∀ item, item ∈ returns' ↔ item ∈ returns) →
          settlementExpectations transfers' returns' generatedAt
            = settlementExpectations transfers returns generatedAt := by
  refine ⟨settlementExpectations_increasing generatedAt, ?_, fun _ _ hsame hsame' =>
    settlementExpectations_congr generatedAt htransfers hreturns hsame hsame'⟩
  refine (List.perm_ext_iff_of_nodup ?_ ?_).mpr fun record => ?_
  · refine (settlementExpectations_increasing generatedAt).imp fun {a b} hlt hsame => ?_
    rw [hsame] at hlt
    exact lt_irrefl _ hlt
  · refine List.nodup_append.mpr
      ⟨nodup_map_expectation htransfers _ fun _ => rfl,
        nodup_map_expectation hreturns _ fun _ => rfl, ?_⟩
    -- An outbound record is not that of a return.
    intro a ha b hb hsame
    rcases List.mem_map.mp ha with ⟨transfer, -, rfl⟩
    rcases List.mem_map.mp hb with ⟨item, -, rfl⟩
    have hdirection : SettlementDirection.outbound = .return :=
      congrArg SettlementRecord.direction hsame
    cases hdirection
  · rw [mem_settlementExpectations generatedAt htransfers hreturns, mem_completedRecords]
    simp only [List.mem_append, List.mem_map, List.mem_filter, List.mem_dedup, decide_eq_true_eq,
      and_assoc]

/-- A transfer listed twice and a return that shares its identifier: one
    record each. -/
theorem settlementExpectations_derive_shared :
    settlementExpectations [sharedTransfer, sharedTransfer] [sharedReturn] 50
        = [⟨"SETTLEMENT-PAY-1", "PAY-1", 25_000, .outbound, 50⟩,
          ⟨"SETTLEMENT-PAY-1", "PAY-1", 9_000, .return, 50⟩] ∧
      settlementExpectations [sharedTransfer, sharedTransfer] [sharedReturn] 50
        = settlementExpectations [sharedTransfer] [sharedReturn] 50 := by
  have htransfers : OnePerId (·.request.transferId) [sharedTransfer] := by
    simp [OnePerId]
  have hreturns : OnePerId (·.request.returnId) [sharedReturn] := by
    simp [OnePerId]
  refine ⟨by decide, ?_⟩
  exact (settlementExpectations_derive [sharedTransfer] [sharedReturn] 50 htransfers
    hreturns).2.2 [sharedTransfer, sharedTransfer] [sharedReturn] (by simp) (by simp)

end BankSim
