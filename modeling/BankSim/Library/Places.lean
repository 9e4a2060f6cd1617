import Mathlib

/-!
# Places in a List

A list read by place: the element in a place, if there is one, is what `l[i]?`
gives. Objects that others refer to are kept in lists that only grow, and a
reference to one is its place.

`perm_filter` is what counts objects by their places. If some places are
exactly those of the elements that satisfy a predicate, each once, then the
elements in these places are the ones that the predicate filters out of the
list. `eq_of_key` tells a place by a key of the element in it.

## Theorems

* `getElem?_snoc`, `forall_snoc`: One more element at the end.
* `perm_filter`: The elements in the places of those that satisfy a predicate.
* `filterMap_subperm`: The elements in distinct places are a part of the list.
* `duplicate_of_places`: An element in two places.
* `eq_of_key`: Elements that satisfy a predicate and have one key are in one
  place.
* `forall₂_of_places`: Lists related place by place.
-/

namespace Places

variable {α β κ : Type} {l : List α} {p : α → Bool}

/-- One more element at the end of a list. -/
theorem getElem?_snoc (l : List α) (a : α) (i : Nat) :
    (l ++ [a])[i]? = if i = l.length then some a else l[i]? := by
  rcases lt_trichotomy i l.length with hlt | rfl | hgt
  · rw [List.getElem?_append_left hlt, if_neg hlt.ne]
  · rw [List.getElem?_concat_length, if_pos rfl]
  · rw [List.getElem?_append_right hgt.le, if_neg hgt.ne', List.getElem?_eq_none hgt.le,
      List.getElem?_eq_none (by simp; omega)]

/-- An element stays in its place when others are added behind it. -/
theorem getElem?_append_of_some {i : Nat} {a : α} (h : l[i]? = some a) (m : List α) :
    (l ++ m)[i]? = some a :=
  (List.getElem?_append_left (List.getElem?_eq_some_iff.mp h).1).trans h

theorem ne_length_of_some {i : Nat} {a : α} (h : l[i]? = some a) : i ≠ l.length :=
  (List.getElem?_eq_some_iff.mp h).1.ne

/-- What holds of the elements in their places, with one more at the end. -/
theorem forall_snoc {P : Nat → α → Prop} {a : α}
    (hold : ∀ i b, i ≠ l.length → l[i]? = some b → P i b) (hnew : P l.length a) :
    ∀ i b, (l ++ [a])[i]? = some b → P i b := by
  intro i b hb
  rw [getElem?_snoc] at hb
  by_cases hi : i = l.length
  · subst hi
    rw [if_pos rfl] at hb
    cases hb
    exact hnew
  · rw [if_neg hi] at hb
    exact hold i b hi hb

/-- The elements in all places, in order, are the list. -/
theorem filterMap_range (l : List α) : (List.range l.length).filterMap (l[·]?) = l := by
  induction l using List.reverseRecOn with
  | nil => rfl
  | append_singleton l a ih =>
      rw [List.length_append, List.length_singleton, List.range_succ, List.filterMap_append,
        List.filterMap_cons_some (List.getElem?_concat_length), List.filterMap_nil]
      congr 1
      refine (List.filterMap_congr fun i hi => ?_).trans ih
      rw [getElem?_snoc, if_neg (List.mem_range.mp hi).ne]

/-- The elements in the places of those that satisfy a predicate, in any order. -/
theorem perm_filter {places : List Nat} (hnodup : places.Nodup)
    (hplaces : ∀ i, i ∈ places ↔ ∃ a, l[i]? = some a ∧ p a = true) :
    (places.filterMap (l[·]?)).Perm (l.filter p) := by
  have hperm : places.Perm
      ((List.range l.length).filter fun i => (l[i]?.map p).getD false) := by
    refine (List.perm_ext_iff_of_nodup hnodup (List.nodup_range.filter _)).mpr fun i => ?_
    rw [hplaces i, List.mem_filter, List.mem_range]
    constructor
    · rintro ⟨a, ha, hp⟩
      exact ⟨(List.getElem?_eq_some_iff.mp ha).1, by rw [ha]; exact hp⟩
    · rintro ⟨hlt, hp⟩
      rw [List.getElem?_eq_getElem hlt] at hp
      exact ⟨l[i], List.getElem?_eq_getElem hlt, hp⟩
  refine (hperm.filterMap _).trans (List.Perm.of_eq ?_)
  -- Every element of the list is the one in its place.
  have hall : l.filter p = ((List.range l.length).filterMap (l[·]?)).filter p := by
    rw [filterMap_range]
  rw [hall, List.filterMap_filter, List.filter_filterMap]
  refine List.filterMap_congr fun i _ => ?_
  cases l[i]? with
  | none => rfl
  | some a => cases hp : p a <;> simp [hp, Option.filter]

/-- Distinct places hold a part of the list, in some order. -/
theorem filterMap_subperm {places : List Nat} (h : places.Nodup) :
    (places.filterMap (l[·]?)).Subperm l := by
  have hinside : places.filterMap (l[·]?)
      = (places.filter (· < l.length)).filterMap (l[·]?) := by
    rw [List.filterMap_filter]
    refine List.filterMap_congr fun i _ => ?_
    by_cases hi : i < l.length
    · simp [hi]
    · simp [hi]
  have hrange : (places.filter (· < l.length)).Subperm (List.range l.length) := by
    refine List.subperm_of_subset (h.filter _) fun i hi => ?_
    rw [List.mem_filter, decide_eq_true_eq] at hi
    exact List.mem_range.mpr hi.2
  rw [hinside]
  obtain ⟨others, hperm, hsub⟩ := hrange
  have hall := hsub.filterMap (l[·]?)
  rw [filterMap_range] at hall
  exact ⟨_, hperm.filterMap _, hall⟩

/-- An element in two places. -/
theorem duplicate_of_places {i j : Nat} {a : α} (hij : i ≠ j) (ha : l[i]? = some a)
    (hb : l[j]? = some a) : l.Duplicate a := by
  rcases List.getElem?_eq_some_iff.mp ha with ⟨hi, rfl⟩
  rcases List.getElem?_eq_some_iff.mp hb with ⟨hj, hsame⟩
  refine List.duplicate_iff_exists_distinct_get.mpr ?_
  rcases Nat.lt_or_gt_of_ne hij with hlt | hgt
  · exact ⟨⟨i, hi⟩, ⟨j, hj⟩, hlt, rfl, hsame.symm⟩
  · exact ⟨⟨j, hj⟩, ⟨i, hi⟩, hgt, hsame.symm, rfl⟩

/-- Two elements that satisfy a predicate and have one key are in one place, if the
    keys of those that satisfy it differ. -/
theorem eq_of_key {key : α → κ} (hnodup : ((l.filter p).map key).Nodup) {i j : Nat} {a b : α}
    (ha : l[i]? = some a) (hb : l[j]? = some b) (hpa : p a = true) (hpb : p b = true)
    (hsame : key a = key b) : i = j := by
  have hpairs : l.Pairwise fun a b => p a = true → p b = true → key a ≠ key b :=
    List.pairwise_filter.mp (List.pairwise_map.mp hnodup)
  rcases List.getElem?_eq_some_iff.mp ha with ⟨hi, rfl⟩
  rcases List.getElem?_eq_some_iff.mp hb with ⟨hj, rfl⟩
  rcases lt_trichotomy i j with hlt | rfl | hgt
  · exact absurd hsame (List.pairwise_iff_getElem.mp hpairs i j hi hj hlt hpa hpb)
  · rfl
  · exact absurd hsame.symm (List.pairwise_iff_getElem.mp hpairs j i hj hi hgt hpb hpa)

/-- Two lists are related if in each place the elements are, by what is said of each
    of the lists in that place. -/
theorem forall₂_of_places {count : Nat} {P : Nat → α → Prop} {Q : Nat → β → Prop}
    {R : α → β → Prop} {m : List β} (hl : List.Forall₂ P (List.range count) l)
    (hm : List.Forall₂ Q (List.range count) m)
    (h : ∀ i < count, ∀ a b, P i a → Q i b → R a b) : List.Forall₂ R l m := by
  have hlength := hl.length_eq
  have hlength' := hm.length_eq
  refine List.forall₂_iff_get.mpr ⟨hlength.symm.trans hlength', fun i hi hi' => ?_⟩
  have hplace := hl.get (hlength ▸ hi) hi
  have hplace' := hm.get (hlength' ▸ hi') hi'
  simp only [List.get_eq_getElem, List.getElem_range] at hplace hplace'
  rw [List.length_range] at hlength
  exact h i (hlength ▸ hi) _ _ hplace hplace'

end Places
