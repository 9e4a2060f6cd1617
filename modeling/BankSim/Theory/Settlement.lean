import BankSim.Core.Settlement
import BankSim.Library.Keyed

/-!
# What Reconciliation Compares

A report without exceptions should mean that both sides list the same
payments, directions and amounts. This module says what it does mean.

The comparison goes payment by payment. For one payment the loop body raises
no exception exactly when the external rows and the expectation in hand agree
on their terms, which takes in the two empty sides: an expectation without a
row and a row without an expectation are exceptions. Put together, a report
without exceptions says that the external rows are, up to order, the
expectations in the index.

The index is by payment alone. Where a transfer and a return share an
identifier, the earlier of the two expectations is no longer in it, and
nothing in the items tells that it was dropped. So the report means what it
should exactly when the payments of the expectations are distinct, or when
the external rows agree with neither the expectations nor what is left of
them.

## Main definitions

* `SettlementRecord.terms`, `ExternalSettlementRecord.terms`: What two sides
  must agree on.
* `expectationsLeft`: The last expectation of each payment.
* `Reconciles`: A report without exceptions means that the sides agree.

## Theorems

* `settlementExpectations_nodup`: Expectations have distinct matching keys.
* `classify_matched_iff`: When one payment has no exception.
* `exceptionCount_eq_zero_iff`: When a report has none.
* `reconciles_iff`: When a report means what it should.
* `sharedPayment_reconciles_silently`: Two expectations, one row, and no
  exception.
-/

namespace BankSim

/-- Payment, direction and amount. -/
def SettlementRecord.terms (self : SettlementRecord) : String × SettlementDirection × Int :=
  (self.paymentId, self.direction, self.amountCents)

def ExternalSettlementRecord.terms (self : ExternalSettlementRecord) :
    String × SettlementDirection × Int :=
  (self.paymentId, self.direction, self.amountCents)

/-- The expectations of completed workflows have distinct matching keys. -/
theorem settlementExpectations_nodup (transfers : List AchTransfer) (returns : List AchReturn)
    (generatedAt : Int) :
    ((settlementExpectations transfers returns generatedAt).map
      SettlementRecord.matchingKey).Nodup := by
  unfold settlementExpectations
  rw [((sortedBy_perm _ _).map _).nodup_iff, Dict.map_values_index]
  exact Dict.keys_nodup _

section Payment

variable {paymentId : String} {expected : Option SettlementRecord}
  {actual : List ExternalSettlementRecord}

/-- One payment has no exception exactly when its rows and its expectation
    agree on their terms. -/
theorem classify_matched_iff (hexpected : ∀ record ∈ expected, record.paymentId = paymentId)
    (hactual : ∀ row ∈ actual, row.paymentId = paymentId) :
    (∀ item ∈ classify paymentId expected actual, item.status = .matched) ↔
      (actual.map (·.terms)).Perm (expected.toList.map (·.terms)) := by
  cases expected with
  | none =>
      -- every row is an exception here
      cases actual with
      | nil => simp [classify]
      | cons row rows => simp [classify, item]
  | some record =>
      have hrecord := hexpected record rfl
      rcases actual with _ | ⟨row, _ | ⟨other, rows⟩⟩
      · simp [classify, item]
      · have hrow := hactual row List.mem_cons_self
        simp only [classify, item, List.mem_singleton, forall_eq, List.map_cons, List.map_nil,
          Option.toList_some, List.singleton_perm_singleton, ExternalSettlementRecord.terms,
          SettlementRecord.terms, hrow, hrecord, Prod.mk.injEq, true_and]
        by_cases hdirection : row.direction = record.direction
        · by_cases hamount : row.amountCents = record.amountCents
          · simp [hdirection, hamount]
          · simp [hdirection, hamount]
        · simp [hdirection]
      · have hlength : ¬ ((row :: other :: rows).map (·.terms)).Perm
            ((some record).toList.map (·.terms)) := fun hperm => by
          have hcount := hperm.length_eq
          simp at hcount
        simp only [hlength, iff_false]
        simp [classify]

/-- A payment without exceptions has an item for every row. -/
theorem length_classify
    (hmatched : ∀ item ∈ classify paymentId expected actual, item.status = .matched) :
    (classify paymentId expected actual).length = actual.length := by
  cases expected with
  | none => simp only [classify, List.length_map]
  | some record =>
      rcases actual with _ | ⟨row, _ | ⟨other, rows⟩⟩
      · have := hmatched _ List.mem_cons_self
        simp only [item, reduceCtorEq] at this
      · rfl
      · have := hmatched _ List.mem_cons_self
        simp only [reduceCtorEq] at this

end Payment

/-- A report has no exceptions when all its items are matched. -/
theorem exceptionCount_eq_zero_iff_forall (report : ReconciliationReport) :
    report.exceptionCount = 0 ↔ ∀ item ∈ report.items, item.status = .matched := by
  have hle : report.matchedCount ≤ report.items.length := List.countP_le_length
  have hall : report.matchedCount = report.items.length ↔
      ∀ item ∈ report.items, item.status = .matched := by
    simp only [ReconciliationReport.matchedCount, List.countP_eq_length, decide_eq_true_eq]
  rw [← hall, ReconciliationReport.exceptionCount]
  omega

section Report

variable (internal : List SettlementRecord) (external : ExternalSettlementReport)
  (completedAt : Int)

/-- The last expectation of each payment: what the index by payment keeps. -/
def expectationsLeft : List SettlementRecord :=
  Keyed.latest (·.paymentId) internal

/-- The external rows of a payment, in the order they are listed in. -/
def rowsOf (paymentId : String) : List ExternalSettlementRecord :=
  sortedBy (·.externalReference) (external.records.filter fun row => row.paymentId = paymentId)

/-- The expectation in hand for a payment. -/
def expectationOf (paymentId : String) : Option SettlementRecord :=
  (internal.filter fun record => record.paymentId = paymentId).getLast?

/-- The payments the loop goes through. -/
def paymentIds : List String :=
  sortedBy id ((Dict.index (·.paymentId) internal).keys
    ++ (Dict.group (·.paymentId) external.records).keys).dedup

theorem nodup_paymentIds : (paymentIds internal external).Nodup :=
  (sortedBy_perm _ _).nodup_iff.mpr (List.nodup_dedup _)

/-- The items of a report are those of its payments. -/
theorem items_perm : (reconcile internal external completedAt).items.Perm
    ((paymentIds internal external).flatMap fun paymentId =>
      classify paymentId (expectationOf internal paymentId) (rowsOf external paymentId)) := by
  unfold reconcile
  simp only [Dict.get?_index, Dict.get?_group]
  exact sortedBy_perm _ _

/-- A payment the loop does not reach is on neither side. -/
theorem sides_of_not_mem {paymentId : String} (h : paymentId ∉ paymentIds internal external) :
    expectationOf internal paymentId = none ∧ rowsOf external paymentId = [] := by
  rw [paymentIds, (sortedBy_perm _ _).mem_iff, List.mem_dedup, List.mem_append, not_or] at h
  constructor
  · rw [expectationOf, List.getLast?_eq_none_iff, List.filter_eq_nil_iff]
    intro record hrecord hpayment
    rw [← of_decide_eq_true hpayment] at h
    exact h.1 (Dict.mem_index_of_mem (·.paymentId) hrecord)
  · have hnil : (external.records.filter fun row => row.paymentId = paymentId) = [] := by
      rw [List.filter_eq_nil_iff]
      intro row hrow hpayment
      rw [← of_decide_eq_true hpayment] at h
      exact h.2 (Dict.mem_group_of_mem (·.paymentId) hrow)
    rw [rowsOf, hnil]
    rfl

/-- A report has no exceptions exactly when the external rows agree, on their
    terms and up to order, with the last expectation of each payment. -/
theorem exceptionCount_eq_zero_iff :
    (reconcile internal external completedAt).exceptionCount = 0 ↔
      (external.records.map (·.terms)).Perm ((expectationsLeft internal).map (·.terms)) := by
  -- Payment by payment, `classify` compares the two sides.
  have hpayment : ∀ paymentId,
      (∀ item ∈ classify paymentId (expectationOf internal paymentId) (rowsOf external paymentId),
          item.status = .matched) ↔
        ((external.records.map (·.terms)).filter fun terms => terms.1 = paymentId).Perm
          (((expectationsLeft internal).map (·.terms)).filter fun terms => terms.1 = paymentId) := by
    intro paymentId
    rw [classify_matched_iff, List.filter_map, List.filter_map, expectationsLeft]
    · have hrows : (rowsOf external paymentId).Perm
          (external.records.filter fun row => row.paymentId = paymentId) := sortedBy_perm _ _
      have hleft := Keyed.filter_latest (·.paymentId) internal paymentId
      refine ((hrows.map _).congr_left _).trans ?_
      rw [expectationOf, ← hleft]
      rfl
    · intro record hrecord
      have hmem := List.mem_of_getLast? hrecord
      simpa using (List.mem_filter.mp hmem).2
    · intro row hrow
      rw [rowsOf, (sortedBy_perm _ _).mem_iff] at hrow
      simpa using (List.mem_filter.mp hrow).2
  rw [exceptionCount_eq_zero_iff_forall, Keyed.perm_iff Prod.fst]
  simp only [(items_perm internal external completedAt).mem_iff, List.mem_flatMap]
  constructor
  · intro h paymentId
    rw [← hpayment]
    intro item hitem
    -- A payment the loop does not reach has no items at all.
    by_cases hmem : paymentId ∈ paymentIds internal external
    · exact h item ⟨paymentId, hmem, hitem⟩
    · rcases sides_of_not_mem internal external hmem with ⟨hnone, hnil⟩
      rw [hnone, hnil] at hitem
      cases hitem
  · rintro h item ⟨paymentId, -, hitem⟩
    exact (hpayment paymentId).mpr (h paymentId) item hitem

/-- A report without exceptions has a matched item for every external row. -/
theorem matchedCount_eq_length
    (h : (reconcile internal external completedAt).exceptionCount = 0) :
    (reconcile internal external completedAt).matchedCount = external.records.length := by
  have hall := (exceptionCount_eq_zero_iff_forall _).mp h
  have hmatched : (reconcile internal external completedAt).matchedCount
      = (reconcile internal external completedAt).items.length := by
    simpa only [ReconciliationReport.matchedCount, List.countP_eq_length, decide_eq_true_eq]
      using hall
  have hitems := items_perm internal external completedAt
  rw [hmatched, hitems.length_eq, List.length_flatMap,
    ← Keyed.sum_length (·.paymentId) external.records _ (nodup_paymentIds internal external)]
  · -- A payment without exceptions has one item for each of its rows.
    congr 1
    refine List.map_congr_left fun paymentId hpayment => ?_
    rw [length_classify, rowsOf, (sortedBy_perm _ _).length_eq]
    intro item hitem
    exact hall item (hitems.mem_iff.mpr (List.mem_flatMap.mpr ⟨paymentId, hpayment, hitem⟩))
  · intro row hrow
    rw [paymentIds, (sortedBy_perm _ _).mem_iff, List.mem_dedup, List.mem_append]
    exact Or.inr (Dict.mem_group_of_mem (·.paymentId) hrow)

/-- The report means what it should: there is no exception exactly when both
    sides list the same payments, directions and amounts, and then every
    expectation is matched. -/
def Reconciles : Prop :=
  ((reconcile internal external completedAt).exceptionCount = 0 ↔
      (external.records.map (·.terms)).Perm (internal.map (·.terms))) ∧
    ((reconcile internal external completedAt).exceptionCount = 0 →
      (reconcile internal external completedAt).matchedCount = internal.length)

/-- Over distinct payments every report means what it should. -/
theorem reconciles_of_nodup (h : (internal.map (·.paymentId)).Nodup) :
    Reconciles internal external completedAt := by
  have hleft : expectationsLeft internal = internal :=
    (Keyed.latest_eq_self SettlementRecord.paymentId internal).mpr h
  have hiff := exceptionCount_eq_zero_iff internal external completedAt
  rw [hleft] at hiff
  refine ⟨hiff, fun hzero => ?_⟩
  have hlength := (hiff.mp hzero).length_eq
  rw [List.length_map, List.length_map] at hlength
  rw [matchedCount_eq_length internal external completedAt hzero, hlength]

/-- Where a payment occurs twice, the two sides cannot agree both with all the
    expectations and with what is left of them. -/
theorem not_perm_and_perm (h : ¬ (internal.map (·.paymentId)).Nodup)
    (hall : (external.records.map (·.terms)).Perm (internal.map (·.terms)))
    (hleft : (external.records.map (·.terms)).Perm ((expectationsLeft internal).map (·.terms))) :
    False := by
  have hlt : (expectationsLeft internal).length < internal.length :=
    Keyed.length_latest_lt SettlementRecord.paymentId internal h
  have hlength := (hall.symm.trans hleft).length_eq
  rw [List.length_map, List.length_map] at hlength
  omega

theorem reconciles_iff_of_duplicate (h : ¬ (internal.map (·.paymentId)).Nodup) :
    Reconciles internal external completedAt ↔
      ¬ (external.records.map (·.terms)).Perm (internal.map (·.terms)) ∧
        ¬ (external.records.map (·.terms)).Perm ((expectationsLeft internal).map (·.terms)) := by
  have hiff := exceptionCount_eq_zero_iff internal external completedAt
  constructor
  · rintro ⟨hsound, -⟩
    refine ⟨fun hall => ?_, fun hleft => ?_⟩
    · exact not_perm_and_perm internal external h hall (hiff.mp (hsound.mpr hall))
    · exact not_perm_and_perm internal external h (hsound.mp (hiff.mpr hleft)) hleft
  · rintro ⟨hall, hleft⟩
    have hnonzero : (reconcile internal external completedAt).exceptionCount ≠ 0 :=
      fun hzero => hleft (hiff.mp hzero)
    exact ⟨iff_of_false hnonzero hall, fun hzero => absurd hzero hnonzero⟩

end Report

/-- The report in which the network lists exactly the given records. -/
def mirrored (records : List SettlementRecord) : ExternalSettlementReport :=
  ⟨records.map fun record =>
    ⟨record.recordId, record.paymentId, record.amountCents, record.direction, record.expectedAt⟩, 0⟩

theorem terms_mirrored (records : List SettlementRecord) :
    (mirrored records).records.map (·.terms) = records.map (·.terms) := by
  rw [mirrored, List.map_map]
  rfl

/-- A report means what it should exactly when the payments of the
    expectations are distinct, or the external rows agree neither with the
    expectations nor with the last one of each payment. Over all reports, that
    is to say exactly when the payments are distinct. -/
theorem reconciles_iff (internal : List SettlementRecord) :
    (∀ external completedAt, Reconciles internal external completedAt ↔
        (internal.map (·.paymentId)).Nodup ∨
          ¬ (external.records.map (·.terms)).Perm (internal.map (·.terms)) ∧
            ¬ (external.records.map (·.terms)).Perm
              ((expectationsLeft internal).map (·.terms))) ∧
      ((∀ external completedAt, Reconciles internal external completedAt) ↔
        (internal.map (·.paymentId)).Nodup) := by
  refine ⟨fun external completedAt => ?_, fun h => ?_, fun h external completedAt =>
    reconciles_of_nodup internal external completedAt h⟩
  · by_cases hnodup : (internal.map (·.paymentId)).Nodup
    · exact iff_of_true (reconciles_of_nodup internal external completedAt hnodup) (Or.inl hnodup)
    · rw [reconciles_iff_of_duplicate internal external completedAt hnodup,
        or_iff_right hnodup]
  · by_contra hnodup
    -- the network may list everything that was expected
    have hboth := (reconciles_iff_of_duplicate internal (mirrored internal) 0 hnodup).mp
      (h (mirrored internal) 0)
    rw [terms_mirrored] at hboth
    exact hboth.1 (List.Perm.refl _)

/-- A completed transfer and a completed return under one identifier. -/
def sharedTransfer : AchTransfer :=
  ⟨⟨"PAY-1", "HCCU-DEMO-001", "Example Bank", "ref", 25_000, "rent"⟩, .completed, none, []⟩

def sharedReturn : AchReturn :=
  ⟨⟨"PAY-1", "ACH-9", .accountClosed, 9_000⟩, 20, .completed, some 40, some "PAY-1-CREDIT", none,
    []⟩

/-- Two expectations, one row, and no exception: the transfer of $250.00 was
    expected and never reported, and the report does not show it. -/
theorem sharedPayment_reconciles_silently :
    let internal := settlementExpectations [sharedTransfer] [sharedReturn] 50
    let external : ExternalSettlementReport := ⟨[⟨"EXT-1", "PAY-1", 9_000, .return, 50⟩], 50⟩
    (internal.map SettlementRecord.matchingKey).Nodup ∧ internal.length = 2 ∧
      (reconcile internal external 50).exceptionCount = 0 ∧
      ¬ (external.records.map (·.terms)).Perm (internal.map (·.terms)) ∧
      ¬ Reconciles internal external 50 := by
  have hzero : (reconcile (settlementExpectations [sharedTransfer] [sharedReturn] 50)
      ⟨[⟨"EXT-1", "PAY-1", 9_000, .return, 50⟩], 50⟩ 50).exceptionCount = 0 := by
    decide
  have hperm : ¬ ([("PAY-1", SettlementDirection.return, (9_000 : Int))]).Perm
      ((settlementExpectations [sharedTransfer] [sharedReturn] 50).map (·.terms)) := by
    decide
  exact ⟨settlementExpectations_nodup _ _ _, by decide, hzero, hperm,
    fun hsound => hperm (hsound.1.mp hzero)⟩

end BankSim
