import BankSim.Theory.Settlement
import BankSim.Library.Sums

/-!
# What Reconciliation Reports

A report over expectations with distinct payments accounts for every record
on both sides. Each expectation becomes one item together with all external
rows of its payment, and each row of a payment nobody expected becomes an
item of its own. From this the totals follow: the items carry the amounts of
both sides exactly once, so their differences add up to those of the two
directions, although a row may count in another direction than its item.

The report is also a function of the two sides as sets. The payments are
sorted without repetition, the expectation of a payment is the only one, and
the rows of a payment are sorted by their references, which leaves one order
if no reference occurs twice. So the items are the same list even before
they are sorted.

## Main definitions

* `outcome`: The status of an expectation, given the rows of its payment.
* `accounted`: Its item.
* `unexpected`: The item of a row that nobody expected.

## Theorems

* `classify_some`: The items of an expected payment.
* `items_perm_accounted`: The items of a report.
* `sum_internal_items`, `sum_external_items`: The amounts they carry.
* `reconcile_accounts`: Every record is accounted for once.
* `reconcile_perm`: The order of the input does not matter.
-/

namespace BankSim

/-- The status of an expectation, from the external rows of its payment. -/
def outcome (record : SettlementRecord) (rows : List ExternalSettlementRecord) :
    ReconciliationStatus :=
  match rows with
  | [] => .missingExternally
  | [row] =>
      if row.direction ≠ record.direction then .directionMismatch
      else if row.amountCents ≠ record.amountCents then .amountMismatch
      else .matched
  | _ => .duplicateExternally

/-- The one item of an expectation: its own payment, direction and amount
    beside all that was reported for the payment. -/
def accounted (record : SettlementRecord) (rows : List ExternalSettlementRecord) :
    ReconciliationItem where
  paymentId := record.paymentId
  status := outcome record rows
  direction := record.direction
  internalAmountCents := record.amountCents
  externalAmountCents := (rows.map (·.amountCents)).sum
  externalReference :=
    if rows = [] then "-" else ", ".intercalate (rows.map (·.externalReference))
  details :=
    if rows.length ≤ 1 then (outcome record rows).value
    else s!"{rows.length} external rows share this payment identity"

/-- The item of an external row that nobody expected. -/
def unexpected (row : ExternalSettlementRecord) : ReconciliationItem :=
  item (.external row) .unexpectedExternally

/-- An expected payment has one item. -/
theorem classify_some (record : SettlementRecord) (rows : List ExternalSettlementRecord) :
    classify record.paymentId (some record) rows = [accounted record rows] := by
  rcases rows with _ | ⟨row, _ | ⟨other, rows⟩⟩
  · simp [classify, accounted, item, outcome]
  · simp [classify, accounted, item, outcome]
  · simp [classify, accounted, outcome]

section Items

variable {internal : List SettlementRecord} (external : ExternalSettlementReport)
  (completedAt : Int) (hnodup : (internal.map (·.paymentId)).Nodup)

include hnodup

/-- The expectation in hand for a payment is the only one it has. -/
theorem expectationOf_eq {record : SettlementRecord} (h : record ∈ internal) :
    expectationOf internal record.paymentId = some record := by
  rw [expectationOf, Keyed.filter_eq_singleton (·.paymentId) hnodup h]
  rfl

omit hnodup in
theorem expectationOf_of_not_mem {paymentId : String}
    (h : paymentId ∉ internal.map (·.paymentId)) : expectationOf internal paymentId = none := by
  rw [expectationOf, List.getLast?_eq_none_iff, List.filter_eq_nil_iff]
  intro record hrecord hpayment
  refine h (List.mem_map.mpr ⟨record, hrecord, ?_⟩)
  exact of_decide_eq_true hpayment

omit hnodup in
/-- The payments the loop goes through are those of the two sides. -/
theorem mem_paymentIds (paymentId : String) : paymentId ∈ paymentIds internal external ↔
    paymentId ∈ internal.map (·.paymentId) ∨ paymentId ∈ external.records.map (·.paymentId) := by
  rw [paymentIds, (sortedBy_perm _ _).mem_iff, List.mem_dedup, List.mem_append]
  refine or_congr ?_ ?_
  · exact Dict.mem_index_iff (·.paymentId) internal paymentId
  · exact Dict.mem_group_iff (·.paymentId) external.records paymentId

/-- The payments of the expectations are among those the loop goes through,
    and each once. -/
theorem paymentIds_expected :
    ((paymentIds internal external).filter fun id => id ∈ internal.map (·.paymentId)).Perm
      (internal.map (·.paymentId)) := by
  refine (List.perm_ext_iff_of_nodup ((nodup_paymentIds internal external).filter _) hnodup).mpr
    fun paymentId => ?_
  rw [List.mem_filter, mem_paymentIds, decide_eq_true_eq]
  exact ⟨fun h => h.2, fun h => ⟨Or.inl h, h⟩⟩

omit hnodup in
/-- The payments nobody expected have their rows as items. -/
theorem unexpected_perm :
    (((paymentIds internal external).filter fun id =>
        !decide (id ∈ internal.map (·.paymentId))).flatMap
        fun paymentId =>
          classify paymentId (expectationOf internal paymentId) (rowsOf external paymentId)).Perm
      ((external.records.filter fun row =>
        row.paymentId ∉ internal.map (·.paymentId)).map unexpected) := by
  -- Payment by payment, the items are the rows.
  have hitems : ∀ paymentId ∈ (paymentIds internal external).filter
      fun id => !decide (id ∈ internal.map (·.paymentId)),
        (classify paymentId (expectationOf internal paymentId) (rowsOf external paymentId)).Perm
          ((external.records.filter fun row => row.paymentId = paymentId).map unexpected) := by
    intro paymentId hmem
    have hnot : paymentId ∉ internal.map (·.paymentId) := by
      simpa using (List.mem_filter.mp hmem).2
    rw [expectationOf_of_not_mem hnot]
    exact (sortedBy_perm _ _).map unexpected
  refine (List.Perm.flatMap_left _ hitems).trans ?_
  rw [← List.map_flatMap]
  refine List.Perm.map unexpected ?_
  refine (Keyed.flatMap_filter_perm (·.paymentId) external.records
    ((nodup_paymentIds internal external).filter _)).trans (List.Perm.of_eq ?_)
  refine List.filter_congr fun row hrow => ?_
  have hreached : row.paymentId ∈ paymentIds internal external :=
    (mem_paymentIds external row.paymentId).mpr (Or.inr (List.mem_map_of_mem hrow))
  simp only [List.mem_filter, hreached, true_and, Bool.not_eq_true', decide_eq_false_iff_not]

/-- The items of a report: one for each expectation, and one for each row
    that nobody expected. -/
theorem items_perm_accounted : (reconcile internal external completedAt).items.Perm
    (internal.map (fun record => accounted record (rowsOf external record.paymentId))
      ++ (external.records.filter fun row =>
          row.paymentId ∉ internal.map (·.paymentId)).map unexpected) := by
  -- Payments of the expectations first, then the others.
  have hsplit := (List.filter_append_perm (fun id => decide (id ∈ internal.map (·.paymentId)))
    (paymentIds internal external)).symm
  refine (items_perm internal external completedAt).trans ((hsplit.flatMap_right _).trans ?_)
  rw [List.flatMap_append]
  refine List.Perm.append ?_ ?_
  · refine ((paymentIds_expected external hnodup).flatMap_right _).trans (List.Perm.of_eq ?_)
    rw [List.flatMap_map, List.map_eq_flatMap]
    refine List.flatMap_congr fun record hrecord => ?_
    rw [expectationOf_eq hnodup hrecord, classify_some]
  · exact unexpected_perm external

/-- The items carry the internal amounts once each. -/
theorem sum_internal_items :
    ((reconcile internal external completedAt).items.map (·.internalAmountCents)).sum
      = (internal.map (·.amountCents)).sum := by
  have hitems := (items_perm_accounted external completedAt hnodup).map (·.internalAmountCents)
  rw [hitems.sum_eq, List.map_append, List.sum_append, List.map_map, List.map_map]
  -- An item that nobody expected carries nothing on this side.
  have hunexpected : (·.internalAmountCents) ∘ unexpected = fun _ => (0 : Int) := rfl
  have haccounted : ∀ record : SettlementRecord, ((·.internalAmountCents) ∘ fun record =>
      accounted record (rowsOf external record.paymentId)) record = record.amountCents :=
    fun _ => rfl
  rw [hunexpected, List.map_congr_left fun record _ => haccounted record]
  simp

/-- The items carry the external amounts once each. -/
theorem sum_external_items :
    ((reconcile internal external completedAt).items.map (·.externalAmountCents)).sum
      = (external.records.map (·.amountCents)).sum := by
  have hitems := (items_perm_accounted external completedAt hnodup).map (·.externalAmountCents)
  rw [hitems.sum_eq, List.map_append, List.sum_append, List.map_map, List.map_map]
  -- The items of the expectations carry the rows of their payments.
  have hrows : (internal.map ((·.externalAmountCents) ∘ fun record =>
        accounted record (rowsOf external record.paymentId))).sum
      = ((external.records.filter fun row =>
          row.paymentId ∈ internal.map (·.paymentId)).map (·.amountCents)).sum := by
    have hexpected := (Keyed.flatMap_filter_perm (·.paymentId) external.records hnodup).map
      (·.amountCents)
    rw [← hexpected.sum_eq, List.flatMap_map, List.map_flatMap, List.flatMap_def, List.sum_flatten,
      List.map_map]
    congr 1
    refine List.map_congr_left fun record _ => ?_
    exact ((sortedBy_perm _ _).map _).sum_eq
  have hall := (List.filter_append_perm (fun row : ExternalSettlementRecord =>
    decide (row.paymentId ∈ internal.map (·.paymentId))) external.records).map (·.amountCents)
  rw [hrows, ← hall.sum_eq, List.map_append, List.sum_append]
  congr 3
  exact List.filter_congr fun row _ => decide_not

omit hnodup in
/-- The two directions make up a side. -/
theorem sum_directions {α : Type} (direction : α → SettlementDirection) (cents : α → Int)
    (rows : List α) :
    ((rows.filter fun row => direction row = .outbound).map cents).sum
        + ((rows.filter fun row => direction row = .return).map cents).sum
      = (rows.map cents).sum := by
  have hkeys := ListSum.sum_fiberwise direction cents rows {.outbound, .return} fun row _ => by
    cases direction row <;> simp
  rwa [Finset.sum_pair (by decide)] at hkeys

/-- The differences of the items add up to those of the two directions. -/
theorem sum_differences :
    ((reconcile internal external completedAt).items.map (·.differenceCents)).sum
      = (reconcile internal external completedAt).outboundTotals.differenceCents
        + (reconcile internal external completedAt).returnTotals.differenceCents := by
  -- What external reported is what was expected and the difference.
  have hitem : (fun item : ReconciliationItem => item.internalAmountCents + item.differenceCents)
      = (·.externalAmountCents) := by
    funext item
    simp [ReconciliationItem.differenceCents]
  have hsides : (internal.map (·.amountCents)).sum
      + ((reconcile internal external completedAt).items.map (·.differenceCents)).sum
      = (external.records.map (·.amountCents)).sum := by
    rw [← sum_internal_items external completedAt hnodup,
      ← sum_external_items external completedAt hnodup, ← List.sum_map_add, hitem]
  have hinternal := sum_directions (·.direction) (·.amountCents) internal
  have hexternal := sum_directions (·.direction) (·.amountCents) external.records
  simp only [reconcile, totals, DirectionTotals.differenceCents] at hsides ⊢
  omega

omit hnodup in
/-- Every item is counted under one status. -/
theorem sum_statusTotals :
    ((reconcile internal external completedAt).statusTotals.map Prod.snd).sum
      = (reconcile internal external completedAt).items.length := by
  have hcount := Keyed.sum_length (·.status) (reconcile internal external completedAt).items
    ReconciliationStatus.all (by decide) fun item _ => by cases item.status <;> decide
  rw [← hcount]
  simp only [reconcile, List.map_map, Function.comp_def, List.countP_eq_length_filter]

omit hnodup in
/-- The items are sorted by payment, status text and reference. -/
theorem items_sorted : (reconcile internal external completedAt).items.Pairwise fun a b =>
    toLex (a.paymentId, toLex (a.status.value, a.externalReference))
      ≤ toLex (b.paymentId, toLex (b.status.value, b.externalReference)) :=
  sortedBy_pairwise _ _

end Items

/-- Over distinct payments a report accounts for every record once: each
    expectation has one item and each row that nobody expected has one. The
    items carry the amounts of both sides, every item is counted under its
    status, and the items are sorted. -/
theorem reconcile_accounts (internal : List SettlementRecord) (external : ExternalSettlementReport)
    (completedAt : Int) (hnodup : (internal.map (·.paymentId)).Nodup) :
    let report := reconcile internal external completedAt
    report.items.Perm
        (internal.map (fun record => accounted record (rowsOf external record.paymentId))
          ++ (external.records.filter fun row =>
              row.paymentId ∉ internal.map (·.paymentId)).map unexpected) ∧
      (report.items.map (·.internalAmountCents)).sum = (internal.map (·.amountCents)).sum ∧
      (report.items.map (·.externalAmountCents)).sum = (external.records.map (·.amountCents)).sum ∧
      (report.items.map (·.differenceCents)).sum
        = report.outboundTotals.differenceCents + report.returnTotals.differenceCents ∧
      (report.statusTotals.map Prod.snd).sum = report.items.length ∧
      report.items.Pairwise fun a b =>
        toLex (a.paymentId, toLex (a.status.value, a.externalReference))
          ≤ toLex (b.paymentId, toLex (b.status.value, b.externalReference)) :=
  ⟨items_perm_accounted external completedAt hnodup,
    sum_internal_items external completedAt hnodup,
    sum_external_items external completedAt hnodup,
    sum_differences external completedAt hnodup, sum_statusTotals external completedAt,
    items_sorted external completedAt⟩

/-- Two expected payments, of which one is reported in two rows and one in
    none, beside a row that nobody expected. -/
def mixedExpectations : List SettlementRecord :=
  [⟨"SETTLEMENT-A", "A", 10_000, .outbound, 40⟩, ⟨"SETTLEMENT-B", "B", 7_000, .outbound, 40⟩]

def mixedReport : ExternalSettlementReport :=
  ⟨[⟨"EXT-3", "A", 10_000, .return, 50⟩, ⟨"EXT-2", "C", 400, .return, 50⟩,
    ⟨"EXT-1", "A", 2_500, .outbound, 50⟩], 50⟩

theorem reconcile_accounts_mixed :
    (mixedExpectations.map (·.paymentId)).Nodup ∧
      ((reconcile mixedExpectations mixedReport 51).items.map fun item =>
          (item.paymentId, item.status, item.externalReference, item.differenceCents))
        = [("A", .duplicateExternally, "EXT-1, EXT-3", 2_500),
          ("B", .missingExternally, "-", -7_000), ("C", .unexpectedExternally, "EXT-2", 400)] ∧
      ((reconcile mixedExpectations mixedReport 51).items.map (·.differenceCents)).sum
        = (reconcile mixedExpectations mixedReport 51).outboundTotals.differenceCents
          + (reconcile mixedExpectations mixedReport 51).returnTotals.differenceCents :=
  ⟨by decide, by decide +kernel,
    (reconcile_accounts mixedExpectations mixedReport 51 (by decide)).2.2.2.1⟩

/-! ### The order of the input -/

section Order

variable {internal internal' : List SettlementRecord}
  {external external' : ExternalSettlementReport}

/-- The payments of the two sides do not depend on an order. -/
theorem paymentIds_congr (hinternal : internal'.Perm internal)
    (hexternal : external'.records.Perm external.records) :
    paymentIds internal' external' = paymentIds internal external := by
  refine sortedBy_eq_of_perm id ?_ fun _ _ _ _ h => h
  refine (List.perm_ext_iff_of_nodup (List.nodup_dedup _) (List.nodup_dedup _)).mpr
    fun paymentId => ?_
  have hids : paymentId ∈ paymentIds internal' external' ↔ _ := mem_paymentIds external' paymentId
  have hids' : paymentId ∈ paymentIds internal external ↔ _ := mem_paymentIds external paymentId
  rw [paymentIds, (sortedBy_perm _ _).mem_iff] at hids hids'
  rw [hids, hids', (hinternal.map _).mem_iff, (hexternal.map _).mem_iff]

/-- Nor does the one expectation of a payment. -/
theorem expectationOf_congr (hnodup : (internal.map (·.paymentId)).Nodup)
    (hinternal : internal'.Perm internal) (paymentId : String) :
    expectationOf internal' paymentId = expectationOf internal paymentId := by
  have hnodup' : (internal'.map (·.paymentId)).Nodup := (hinternal.map _).nodup_iff.mpr hnodup
  by_cases hmem : paymentId ∈ internal.map (·.paymentId)
  · rcases List.mem_map.mp hmem with ⟨record, hrecord, rfl⟩
    rw [expectationOf_eq hnodup' (hinternal.mem_iff.mpr hrecord), expectationOf_eq hnodup hrecord]
  · rw [expectationOf_of_not_mem hmem,
      expectationOf_of_not_mem ((hinternal.map _).mem_iff.not.mpr hmem)]

/-- Different references leave one order to list the rows of a payment in. -/
theorem rowsOf_congr
    (hreferences : (external.records.map fun row => (row.paymentId, row.externalReference)).Nodup)
    (hexternal : external'.records.Perm external.records) (paymentId : String) :
    rowsOf external' paymentId = rowsOf external paymentId := by
  refine sortedBy_eq_of_perm _ (hexternal.filter _) fun a ha b hb hreference => ?_
  have hpayment := of_decide_eq_true (List.mem_filter.mp ha).2
  have hpayment' := of_decide_eq_true (List.mem_filter.mp hb).2
  refine List.inj_on_of_nodup_map hreferences (hexternal.mem_iff.mp (List.mem_of_mem_filter ha))
    (hexternal.mem_iff.mp (List.mem_of_mem_filter hb)) ?_
  rw [hpayment, hpayment', hreference]

theorem totals_congr (hinternal : internal'.Perm internal)
    (hexternal : external'.records.Perm external.records) (direction : SettlementDirection) :
    totals internal' external'.records direction = totals internal external.records direction := by
  unfold totals
  rw [((hinternal.filter _).map _).sum_eq, ((hexternal.filter _).map _).sum_eq]

end Order

/-- A report in the terms of its payments, expectations and rows. -/
theorem reconcile_eq (internal : List SettlementRecord) (external : ExternalSettlementReport)
    (completedAt : Int) :
    reconcile internal external completedAt =
      let items := sortedBy
        (fun item => toLex (item.paymentId, toLex (item.status.value, item.externalReference)))
        ((paymentIds internal external).flatMap fun paymentId =>
          classify paymentId (expectationOf internal paymentId) (rowsOf external paymentId))
      { items
        statusTotals := ReconciliationStatus.all.map fun status =>
          (status, items.countP fun item => item.status = status)
        outboundTotals := totals internal external.records .outbound
        returnTotals := totals internal external.records .return
        completedAt } := by
  unfold reconcile paymentIds rowsOf expectationOf
  simp only [Dict.get?_index, Dict.get?_group]

/-- Permuting the expectations and the external rows leaves the whole report
    as it is, if payments are distinct on the one side and references of a
    payment on the other. -/
theorem reconcile_perm (internal internal' : List SettlementRecord)
    (external external' : ExternalSettlementReport) (completedAt : Int)
    (hnodup : (internal.map (·.paymentId)).Nodup)
    (hreferences : (external.records.map fun row => (row.paymentId, row.externalReference)).Nodup)
    (hinternal : internal'.Perm internal) (hexternal : external'.records.Perm external.records) :
    reconcile internal' external' completedAt = reconcile internal external completedAt := by
  simp only [reconcile_eq, paymentIds_congr hinternal hexternal,
    expectationOf_congr hnodup hinternal, rowsOf_congr hreferences hexternal,
    totals_congr hinternal hexternal]

theorem reconcile_perm_mixed :
    (mixedReport.records.map fun row => (row.paymentId, row.externalReference)).Nodup ∧
      reconcile mixedExpectations.reverse ⟨mixedReport.records.reverse, 50⟩ 51
        = reconcile mixedExpectations mixedReport 51 :=
  ⟨by decide, reconcile_perm mixedExpectations mixedExpectations.reverse mixedReport
    ⟨mixedReport.records.reverse, 50⟩ 51 (by decide) (by decide) (List.reverse_perm _)
    (List.reverse_perm _)⟩

end BankSim
