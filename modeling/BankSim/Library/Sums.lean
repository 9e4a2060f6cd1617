import Mathlib

/-!
# Sums over a List by Key

A sum over a list can be taken key by key. `sum_fiberwise` is the identity
behind every statement that parts add up to a whole: each element lies under
exactly one key, so summing the parts under all the keys counts it once.

## Theorems

* `sum_fiberwise`: The parts under the keys add up to the whole list.
* `sum_keys`: The same, over the keys that occur.
* `sum_filter_add`: What is selected and what is not add up to the whole.
* `sum_filter_eq_iff`: A part of something positive is the whole of it.
* `sum_map_modify`, `filterMap_modify_perm`: One element changes.
-/

namespace ListSum

variable {α M : Type} [AddCommMonoid M]

section Keys

variable {κ : Type} [DecidableEq κ]

/-- Summing the elements under each key, over any keys that cover the list,
    gives the sum of the list. -/
theorem sum_fiberwise (key : α → κ) (f : α → M) (l : List α) (keys : Finset κ)
    (hkeys : ∀ x ∈ l, key x ∈ keys) :
    ∑ k ∈ keys, ((l.filter fun x => key x = k).map f).sum = (l.map f).sum := by
  induction l with
  | nil => simp only [List.filter_nil, List.map_nil, List.sum_nil, Finset.sum_const_zero]
  | cons x l ih =>
      have hrest := ih fun y hy => hkeys y (List.mem_cons_of_mem x hy)
      have hsplit : ∀ k, (((x :: l).filter fun y => key y = k).map f).sum
          = (if key x = k then f x else 0) + ((l.filter fun y => key y = k).map f).sum := by
        intro k
        by_cases hk : key x = k
        · simp only [List.filter_cons, hk, decide_true, if_true, List.map_cons, List.sum_cons]
        · simp only [List.filter_cons, hk, decide_false, Bool.false_eq_true, if_false, zero_add]
      simp only [hsplit, Finset.sum_add_distrib, hrest, Finset.sum_ite_eq,
        if_pos (hkeys x List.mem_cons_self), List.map_cons, List.sum_cons]

/-- Summing the elements under each key that occurs gives the sum of the
    list. -/
theorem sum_keys (key : α → κ) (f : α → M) (l : List α) :
    ∑ k ∈ (l.map key).toFinset, ((l.filter fun x => key x = k).map f).sum = (l.map f).sum :=
  sum_fiberwise key f l _ fun _ hx => List.mem_toFinset.mpr (List.mem_map_of_mem hx)

end Keys

/-- What is selected and what is not add up to the whole. -/
theorem sum_filter_add (selected : α → Bool) (f : α → M) (l : List α) :
    ((l.filter selected).map f).sum + ((l.filter fun x => !selected x).map f).sum
      = (l.map f).sum := by
  rw [← List.sum_append, ← List.map_append]
  exact ((List.filter_append_perm selected l).map f).sum_eq

/-- Where everything counts, a part adds up to the whole exactly when it is the
    whole. -/
theorem sum_filter_eq_iff [PartialOrder M] [IsOrderedCancelAddMonoid M] (selected : α → Bool)
    (f : α → M) {l : List α} (hpos : ∀ x ∈ l, 0 < f x) :
    ((l.filter selected).map f).sum = (l.map f).sum ↔ ∀ x ∈ l, selected x := by
  rw [← List.filter_eq_self]
  constructor
  · intro hsum
    by_contra hpart
    have hrest : (l.filter fun x => !selected x) ≠ [] := by
      rw [Ne, List.filter_eq_nil_iff]
      intro hall
      exact hpart (List.filter_eq_self.mpr fun x hx => by simpa using hall x hx)
    have hsplit := sum_filter_add selected f l
    rw [← hsum] at hsplit
    -- The rest adds up to nothing, and yet it is not empty.
    refine absurd (add_eq_left.mp hsplit)
      (List.sum_pos _ (fun y hy => ?_) (by simpa using hrest)).ne'
    rcases List.mem_map.mp hy with ⟨x, hx, rfl⟩
    exact hpos x (List.mem_filter.mp hx).1
  · intro hall
    rw [hall]

section Modify

variable {β : Type}

/-- Where one element changes, its part of the sum does. -/
theorem sum_map_modify (g : α → M) (f : α → α) {l : List α} {i : Nat} {x : α}
    (hx : l[i]? = some x) :
    g x + ((l.modify i f).map g).sum = g (f x) + (l.map g).sum := by
  induction l generalizing i with
  | nil => cases hx
  | cons y l ih =>
      cases i with
      | zero =>
          rw [List.getElem?_cons_zero, Option.some.injEq] at hx
          subst hx
          rw [List.modify_zero_cons, List.map_cons, List.map_cons, List.sum_cons, List.sum_cons,
            add_left_comm]
      | succ i =>
          rw [List.getElem?_cons_succ] at hx
          rw [List.modify_succ_cons, List.map_cons, List.map_cons, List.sum_cons, List.sum_cons,
            add_left_comm, ih hx, add_left_comm]

/-- Where one element changes, what is read off it does. -/
theorem filterMap_modify_perm (p : α → Option β) (f : α → α) {l : List α} {i : Nat} {x : α}
    (hx : l[i]? = some x) :
    ((p x).toList ++ (l.modify i f).filterMap p).Perm ((p (f x)).toList ++ l.filterMap p) := by
  induction l generalizing i with
  | nil => cases hx
  | cons y l ih =>
      have hcons : ∀ (z : α) (m : List α),
          (z :: m).filterMap p = (p z).toList ++ m.filterMap p := by
        intro z m
        rw [List.filterMap_cons]
        cases p z <;> rfl
      cases i with
      | zero =>
          rw [List.getElem?_cons_zero, Option.some.injEq] at hx
          subst hx
          rw [List.modify_zero_cons, hcons, hcons, ← List.append_assoc, ← List.append_assoc]
          exact List.perm_append_comm.append_right _
      | succ i =>
          rw [List.getElem?_cons_succ] at hx
          rw [List.modify_succ_cons, hcons, hcons]
          -- The first element is carried past the ones that change.
          refine List.perm_append_comm_assoc _ _ _ |>.trans ?_
          exact ((ih hx).append_left _).trans (List.perm_append_comm_assoc _ _ _)

end Modify

end ListSum
