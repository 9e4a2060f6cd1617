import Mathlib

/-!
# Rows Taken Key by Key

Two ways of looking at a list of rows by a key of theirs. A list is, up to
order, what it has under each key, and so two lists are compared by comparing
what they have under each key. And a list of rows may be cut down to one row
for each key, the last.

Rows may also have owners instead of keys: a relation says which owner a row
can belong to, and `OneEach` says that the rows can be given owners so that
nobody owns two of them.

## Main definitions

* `Keyed.latest`: The last row under each key.
* `Keyed.OneEach`: Every row has an owner of its own.

## Theorems

* `perm_iff`: Lists agree up to order when they do under each key.
* `sum_length`: The rows under each key are all the rows.
* `flatMap_filter_perm`: The rows under some keys, taken key by key.
* `latest_cons`: When `latest` keeps a row.
* `filter_latest`: What `latest` keeps under a key.
* `filter_eq_singleton`: What there is under a key that occurs once.
* `latest_eq_self`: It keeps everything when no key occurs twice.
* `length_latest_lt`: Otherwise it drops something.
* `OneEach.append`: A further row for somebody who owned none.
* `OneEach.length_filter_le_one`: Of the rows that only one owner can have,
  there is at most one.
-/

namespace Keyed

variable {α κ : Type} [DecidableEq κ] (key : α → κ)

/-- Two lists agree up to order exactly when they do under each key. -/
theorem perm_iff (rows others : List α) : rows.Perm others ↔
    ∀ k, (rows.filter fun row => key row = k).Perm (others.filter fun row => key row = k) := by
  classical
  constructor
  · intro h k
    exact h.filter _
  · intro h
    rw [List.perm_iff_count]
    intro a
    -- an element is counted among the rows under its own key
    have hcount : ∀ l : List α, (l.filter fun row => key row = key a).count a = l.count a :=
      fun l => List.count_filter (by simp only [decide_true])
    rw [← hcount rows, ← hcount others]
    exact (h (key a)).count_eq a

/-- Distinct keys that cover all the rows divide them up. -/
theorem sum_length (rows : List α) (keys : List κ) (hnodup : keys.Nodup)
    (hcover : ∀ row ∈ rows, key row ∈ keys) :
    (keys.map fun k => (rows.filter fun row => key row = k).length).sum = rows.length := by
  have hcount : ∀ k, (rows.filter fun row => key row = k).length
      = Multiset.count k ↑(rows.map key) := by
    intro k
    rw [Multiset.coe_count, List.count, List.countP_map, List.countP_eq_length_filter]
    congr 2
  simp only [hcount]
  rw [← List.sum_toFinset _ hnodup, Multiset.sum_count_eq_card]
  · simp only [Multiset.coe_card, List.length_map]
  · intro k hk
    rcases List.mem_map.mp (Multiset.mem_coe.mp hk) with ⟨row, hrow, rfl⟩
    exact List.mem_toFinset.mpr (hcover row hrow)

/-- Taken key by key, the rows under some keys are those with one of the keys. -/
theorem flatMap_filter_perm (rows : List α) {keys : List κ} (hnodup : keys.Nodup) :
    (keys.flatMap fun k => rows.filter fun row => key row = k).Perm
      (rows.filter fun row => key row ∈ keys) := by
  induction keys with
  | nil => simp
  | cons k keys ih =>
      rw [List.nodup_cons] at hnodup
      rw [List.flatMap_cons]
      refine ((ih hnodup.2).append_left _).trans ?_
      -- The rows under the first key, and those under the others.
      have hsplit := List.filter_append_perm (fun row => decide (key row = k))
        (rows.filter fun row => key row ∈ k :: keys)
      rw [List.filter_filter, List.filter_filter] at hsplit
      refine List.Perm.trans (List.Perm.of_eq ?_) hsplit
      congr 1
      · refine List.filter_congr fun row _ => ?_
        by_cases hk : key row = k <;> simp [hk]
      · refine List.filter_congr fun row _ => ?_
        by_cases hk : key row = k
        · simp [hk, hnodup.1]
        · simp [hk]

/-- The last row under each key. -/
def latest (rows : List α) : List α :=
  rows.pwFilter fun a b => key a ≠ key b

/-- A row is kept when none of the later ones has its key. -/
theorem latest_cons (row : α) (rows : List α) : latest key (row :: rows) =
    if (latest key rows).filter (fun other => key other = key row) = [] then
      row :: latest key rows
    else latest key rows := by
  have hnew : (latest key rows).filter (fun other => key other = key row) = [] ↔
      ∀ other ∈ latest key rows, key row ≠ key other := by
    rw [List.filter_eq_nil_iff]
    exact forall₂_congr fun other _ => by rw [decide_eq_true_eq, eq_comm]
  split_ifs with h
  · exact List.pwFilter_cons_of_pos (hnew.mp h)
  · exact List.pwFilter_cons_of_neg ((not_congr hnew).mp h)

/-- Under each key, `latest` keeps the last row and no other. -/
theorem filter_latest (rows : List α) (k : κ) :
    (latest key rows).filter (fun row => key row = k)
      = ((rows.filter fun row => key row = k).getLast?).toList := by
  induction rows with
  | nil => rfl
  | cons row rows ih =>
      rw [latest_cons]
      by_cases hk : key row = k
      · rw [hk, ih, List.filter_cons_of_pos (by simpa using hk), List.getLast?_cons]
        cases hlast : (rows.filter fun row => key row = k).getLast? with
        | none =>
            -- No later row has the key, so this one is the last.
            rw [hlast] at ih
            rw [Option.toList_none, if_pos rfl, List.filter_cons_of_pos (by simpa using hk), ih]
            rfl
        | some last =>
            rw [hlast] at ih
            rw [if_neg (by simp only [Option.toList_some, reduceCtorEq, not_false_eq_true]), ih]
            rfl
      · -- Rows under other keys come and go without notice.
        rw [List.filter_cons_of_neg (by simpa using hk)]
        split_ifs
        · rw [List.filter_cons_of_neg (by simpa using hk)]
          exact ih
        · exact ih

/-- Nothing is dropped when no key occurs twice. -/
theorem latest_eq_self (rows : List α) : latest key rows = rows ↔ (rows.map key).Nodup := by
  rw [latest, List.pwFilter_eq_self, List.Nodup, List.pairwise_map]

/-- When no key occurs twice, a row is all there is under its key. -/
theorem filter_eq_singleton {rows : List α} (h : (rows.map key).Nodup) {row : α}
    (hmem : row ∈ rows) : (rows.filter fun other => key other = key row) = [row] := by
  rw [← latest_eq_self key rows |>.mpr h, filter_latest]
  rcases List.mem_iff_append.mp hmem with ⟨before, later, rfl⟩
  rw [List.map_append, List.map_cons, List.nodup_append, List.nodup_cons] at h
  have hlater : (later.filter fun other => key other = key row) = [] := by
    rw [List.filter_eq_nil_iff]
    intro other hother hsame
    refine h.2.1.1 ?_
    rw [← of_decide_eq_true hsame]
    exact List.mem_map_of_mem hother
  rw [List.filter_append, List.filter_cons_of_pos (by simp only [decide_true]), hlater,
    List.getLast?_append, List.getLast?_singleton, Option.some_or]
  rfl

/-- Something is dropped when a key occurs twice. -/
theorem length_latest_lt (rows : List α) (h : ¬ (rows.map key).Nodup) :
    (latest key rows).length < rows.length := by
  have hsub : (latest key rows).Sublist rows := List.pwFilter_sublist rows
  refine lt_of_le_of_ne hsub.length_le fun hlength => h ?_
  exact (latest_eq_self key rows).mp (hsub.eq_of_length hlength)

omit [DecidableEq κ] in
/-- The rows belong to distinct owners, one row to each. -/
def OneEach (owns : κ → α → Prop) (rows : List α) : Prop :=
  ∃ owners : List κ, owners.Nodup ∧ List.Forall₂ owns owners rows

omit [DecidableEq κ] in
theorem oneEach_nil (owns : κ → α → Prop) : OneEach owns [] :=
  ⟨[], List.nodup_nil, List.Forall₂.nil⟩

omit [DecidableEq κ] in
theorem OneEach.imp {owns owns' : κ → α → Prop} (h : ∀ k row, owns k row → owns' k row)
    {rows : List α} (hrows : OneEach owns rows) : OneEach owns' rows := by
  rcases hrows with ⟨owners, hnodup, hall⟩
  exact ⟨owners, hnodup, hall.imp h⟩

omit [DecidableEq κ] in
/-- One more row is fine for an owner who had none before. -/
theorem OneEach.append {owns owns' : κ → α → Prop} (h : ∀ k row, owns k row → owns' k row)
    {rows : List α} (hrows : OneEach owns rows) {k : κ} {row : α} (hrow : owns' k row)
    (hnone : ∀ other, ¬ owns k other) : OneEach owns' (rows ++ [row]) := by
  rcases hrows with ⟨owners, hnodup, hall⟩
  refine ⟨owners ++ [k], ?_, List.rel_append (hall.imp h) (List.Forall₂.cons hrow .nil)⟩
  rw [List.nodup_append]
  refine ⟨hnodup, List.nodup_singleton k, fun other hother owner howner => ?_⟩
  rw [List.mem_singleton.mp howner]
  rintro rfl
  -- Every owner owns something, and the new one did not.
  rcases List.mem_iff_getElem.mp hother with ⟨i, hi, rfl⟩
  have hi' : i < rows.length := hall.length_eq ▸ hi
  exact hnone _ (hall.get hi hi')

omit [DecidableEq κ] in
/-- Every row has an owner. -/
theorem OneEach.owned {owns : κ → α → Prop} {rows : List α} (hrows : OneEach owns rows) {row : α}
    (hmem : row ∈ rows) : ∃ k, owns k row := by
  rcases hrows with ⟨owners, -, hall⟩
  rcases List.mem_iff_getElem.mp hmem with ⟨i, hi, rfl⟩
  exact ⟨_, hall.get (hall.length_eq.symm ▸ hi) hi⟩

omit [DecidableEq κ] in
/-- Rows of a kind that a single owner can have number at most one. -/
theorem OneEach.length_filter_le_one {owns : κ → α → Prop} {rows : List α}
    (hrows : OneEach owns rows) (kind : α → Prop) [DecidablePred kind] {k : κ}
    (h : ∀ other row, owns other row → kind row → other = k) :
    (rows.filter fun row => kind row).length ≤ 1 := by
  rcases hrows with ⟨owners, hnodup, hall⟩
  induction hall with
  | nil => exact Nat.zero_le 1
  | @cons owner row owners rows howns hall ih =>
      rw [List.nodup_cons] at hnodup
      by_cases hkind : kind row
      · -- The head is of the kind, so its owner is taken and the rest has none.
        have hrest : (rows.filter fun row => kind row) = [] := by
          rw [List.filter_eq_nil_iff]
          intro other hother hkind'
          rcases List.mem_iff_getElem.mp hother with ⟨i, hi, rfl⟩
          have hi' : i < owners.length := hall.length_eq.symm ▸ hi
          have hsame : owners[i] = k := h _ _ (hall.get hi' hi) (by simpa using hkind')
          rw [h owner row howns hkind, ← hsame] at hnodup
          exact hnodup.1 (List.getElem_mem hi')
        rw [List.filter_cons_of_pos (by simpa using hkind), hrest]
        exact le_refl 1
      · rw [List.filter_cons_of_neg (by simpa using hkind)]
        exact ih hnodup.2

end Keyed
