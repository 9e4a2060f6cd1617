import Mathlib

/-!
# Timelines

A list in strict order of a total preorder: each item comes before the later
ones, and none of them is level with it. What has happened and what is still
to happen are the two parts of such a list, and what this module says is how
the second part may change without breaking the order.

An item that comes after the whole first part can be inserted into the second
one, and if it comes after everything it simply goes to the end.

The rest is about items that may be level. Inserting behind whatever is level,
one item after the other, is sorting stably. When two lists are merged, the
first one has the precedence among items that are level, so an item that comes
after all of the second list can as well be put at its end before merging. And
inserting commutes with taking out the items of a kind.

## Main definitions

* `Timeline.Strict`: A list in strict order.
* `Timeline.merged`: Two lists merged, the first one before the second.

## Theorems

* `strict_append_insert`: Inserting into the part that is still to happen.
* `orderedInsert_last`: An item that comes last goes to the end.
* `foldl_orderedInsert`: Inserting one by one sorts stably.
* `orderedInsert_merged`: Inserting into a merged list.
* `sorted_orderedInsert`: Inserting keeps the order.
* `filter_orderedInsert_of_pos`, `filter_orderedInsert_of_neg`: Inserting and
  taking out the items of a kind.
-/

namespace Timeline

variable {α : Type} (r : α → α → Prop)

/-- The items come one strictly after the other. -/
def Strict (items : List α) : Prop :=
  items.Pairwise fun a b => ¬ r b a

variable {r} [DecidableRel r]

/-- An item that comes after all that has happened may be inserted into what
    is still to happen, as long as it is not level with any of it. -/
theorem strict_append_insert [IsTrans α r] [Std.Total r] {past future : List α} {a : α}
    (h : Strict r (past ++ future)) (hpast : ∀ b ∈ past, ¬ r a b)
    (hfuture : ∀ b ∈ future, r a b → ¬ r b a) :
    Strict r (past ++ future.orderedInsert r a) := by
  unfold Strict at h ⊢
  rw [List.pairwise_append] at h ⊢
  rcases h with ⟨hp, hf, hpf⟩
  refine ⟨hp, ?_, fun b hb c hc => ?_⟩
  · clear hpf hp hpast
    induction future with
    | nil => exact List.pairwise_singleton _ _
    | cons b future ih =>
        rw [List.pairwise_cons] at hf
        by_cases hab : r a b
        · -- The new item goes first, and by transitivity nothing is level with it.
          rw [List.orderedInsert_cons_of_le r future hab, List.pairwise_cons, List.pairwise_cons]
          refine ⟨fun c hc hca => ?_, hf⟩
          rcases List.mem_cons.mp hc with hsame | hc
          · exact hfuture b List.mem_cons_self hab (hsame ▸ hca)
          · exact hf.1 c hc (IsTrans.trans c a b hca hab)
        · rw [List.orderedInsert_of_not_le r future hab, List.pairwise_cons]
          refine ⟨fun c hc => ?_, ih (fun c hc => hfuture c (List.mem_cons_of_mem b hc)) hf.2⟩
          rcases (List.mem_orderedInsert r).mp hc with hsame | hc
          · exact hsame ▸ hab
          · exact hf.1 c hc
  · rcases (List.mem_orderedInsert r).mp hc with hsame | hc
    · exact hsame ▸ hpast b hb
    · exact hpf b hb c hc

theorem orderedInsert_last {future : List α} {a : α} (h : ∀ b ∈ future, ¬ r a b) :
    future.orderedInsert r a = future ++ [a] := by
  induction future with
  | nil => rfl
  | cons b future ih =>
      rw [List.orderedInsert_of_not_le r future (h b List.mem_cons_self),
        ih fun c hc => h c (List.mem_cons_of_mem b hc), List.cons_append]

/-! ### Items that may be level -/

section Level

variable {β : Type} [LinearOrder β] (time : α → β)

/-- An item behind whatever is not later, and another before whatever is not
    earlier, can be inserted in either order. -/
theorem orderedInsert_comm (x y : α) (items : List α) :
    (items.orderedInsert (fun a b => time a ≤ time b) x).orderedInsert
        (fun a b => time a < time b) y
      = (items.orderedInsert (fun a b => time a < time b) y).orderedInsert
        (fun a b => time a ≤ time b) x := by
  induction items with
  | nil =>
      by_cases h : time y < time x
      · simp only [List.orderedInsert_nil, List.orderedInsert_cons, if_pos h, if_neg (not_le.mpr h)]
      · simp only [List.orderedInsert_nil, List.orderedInsert_cons, if_neg h, if_pos (not_lt.mp h)]
  | cons b items ih =>
      by_cases hx : time x ≤ time b
      · by_cases hyx : time y < time x
        · -- The later inserted item is the earlier one, and both go to the front.
          simp only [List.orderedInsert_cons, if_pos hx, if_pos hyx, if_pos (lt_of_lt_of_le hyx hx),
            if_neg (not_le.mpr hyx)]
        · by_cases hyb : time y < time b
          · simp only [List.orderedInsert_cons, if_pos hx, if_neg hyx, if_pos hyb,
              if_pos (not_lt.mp hyx)]
          · simp only [List.orderedInsert_cons, if_pos hx, if_neg hyx, if_neg hyb]
      · by_cases hyb : time y < time b
        · have hxy : ¬ time x ≤ time y := fun h => hx (le_trans h (le_of_lt hyb))
          simp only [List.orderedInsert_cons, if_neg hx, if_pos hyb, if_neg hxy]
        · simp only [List.orderedInsert_cons, if_neg hx, if_neg hyb, ih]

theorem insertionSort_snoc (items : List α) (y : α) :
    (items ++ [y]).insertionSort (fun a b => time a ≤ time b)
      = (items.insertionSort fun a b => time a ≤ time b).orderedInsert
        (fun a b => time a < time b) y := by
  induction items with
  | nil => rfl
  | cons x items ih =>
      rw [List.cons_append, List.insertionSort_cons, ih, List.insertionSort_cons,
        orderedInsert_comm]

/-- Items that are inserted one by one, each behind whatever is not later, come
    out as a stable sort leaves them. -/
theorem foldl_orderedInsert (items : List α) :
    items.foldl (fun sorted item => sorted.orderedInsert (fun a b => time a < time b) item) []
      = items.insertionSort fun a b => time a ≤ time b := by
  induction items using List.reverseRecOn with
  | nil => rfl
  | append_singleton items y ih =>
      rw [List.foldl_append, List.foldl_cons, List.foldl_nil, ih, insertionSort_snoc]

/-- Two lists merged. An item of the first goes before those of the second
    that are level with it. -/
def merged (first second : List α) : List α :=
  first.merge second fun a b => time a ≤ time b

@[simp] theorem merged_nil (first : List α) : merged time first [] = first :=
  List.merge_right first

@[simp] theorem nil_merged (second : List α) : merged time [] second = second :=
  List.nil_merge second

theorem merged_of_le {a b : α} {first second : List α} (h : time a ≤ time b) :
    merged time (a :: first) (b :: second) = a :: merged time first (b :: second) :=
  List.cons_merge_cons_pos _ _ _ (decide_eq_true h)

theorem merged_of_lt {a b : α} {first second : List α} (h : time b < time a) :
    merged time (a :: first) (b :: second) = b :: merged time (a :: first) second :=
  List.cons_merge_cons_neg _ _ _ (by rw [decide_eq_true_eq]; exact not_le.mpr h)

/-- The head of a merged list is the head of one of the two. -/
theorem merged_eq_cons {first second items : List α} {item : α}
    (h : merged time first second = item :: items) :
    (∃ rest, first = item :: rest ∧ items = merged time rest second) ∨
      ∃ rest, second = item :: rest ∧ items = merged time first rest := by
  cases first with
  | nil =>
      rw [nil_merged] at h
      exact Or.inr ⟨items, h, (nil_merged time items).symm⟩
  | cons a first =>
      cases second with
      | nil =>
          rw [merged_nil] at h
          rw [List.cons.injEq] at h
          exact Or.inl ⟨first, by rw [h.1], by rw [merged_nil]; exact h.2.symm⟩
      | cons b second =>
          by_cases hle : time a ≤ time b
          · rw [merged_of_le time hle, List.cons.injEq] at h
            exact Or.inl ⟨first, by rw [h.1], h.2.symm⟩
          · rw [merged_of_lt time (not_le.mp hle), List.cons.injEq] at h
            exact Or.inr ⟨second, by rw [h.1], h.2.symm⟩

theorem merged_eq_nil {first second : List α} (h : merged time first second = []) :
    first = [] ∧ second = [] := by
  have hlength := congrArg List.length h
  unfold merged at hlength
  rw [List.length_merge, List.length_nil] at hlength
  exact ⟨List.length_eq_zero_iff.mp (by omega), List.length_eq_zero_iff.mp (by omega)⟩

/-- An item that is not earlier than any of the second list goes to its end. -/
theorem orderedInsert_merged (first second : List α) {x : α}
    (h : ∀ b ∈ second, time b ≤ time x) :
    (merged time first second).orderedInsert (fun a b => time a < time b) x
      = merged time first (second ++ [x]) := by
  induction first generalizing second with
  | nil =>
      rw [nil_merged, nil_merged]
      exact orderedInsert_last fun b hb => not_lt.mpr (h b hb)
  | cons a first ihfirst =>
      induction second with
      | nil =>
          rw [merged_nil, List.nil_append]
          by_cases hxa : time x < time a
          · rw [List.orderedInsert_cons, if_pos hxa, merged_of_lt time hxa, merged_nil]
          · have hrest := ihfirst [] fun b hb => absurd hb List.not_mem_nil
            rw [merged_nil, List.nil_append] at hrest
            rw [List.orderedInsert_cons, if_neg hxa, merged_of_le time (not_lt.mp hxa), hrest]
      | cons b second ihsecond =>
          have hbx := h b List.mem_cons_self
          by_cases hab : time a ≤ time b
          · rw [List.cons_append, merged_of_le time hab, merged_of_le time hab,
              List.orderedInsert_cons, if_neg (not_lt.mpr (le_trans hab hbx)),
              ihfirst (b :: second) h, List.cons_append]
          · rw [List.cons_append, merged_of_lt time (not_le.mp hab),
              merged_of_lt time (not_le.mp hab),
              List.orderedInsert_cons, if_neg (not_lt.mpr hbx),
              ihsecond fun c hc => h c (List.mem_cons_of_mem b hc)]

/-- Inserting behind whatever is level keeps a list in order. -/
theorem sorted_orderedInsert (x : α) {items : List α}
    (h : items.Pairwise fun a b => time a ≤ time b) :
    (items.orderedInsert (fun a b => time a < time b) x).Pairwise
      fun a b => time a ≤ time b := by
  induction items with
  | nil => exact List.pairwise_singleton _ _
  | cons b items ih =>
      rw [List.pairwise_cons] at h
      rw [List.orderedInsert_cons]
      by_cases hlt : time x < time b
      · rw [if_pos hlt, List.pairwise_cons, List.pairwise_cons]
        refine ⟨fun c hc => ?_, h⟩
        rcases List.mem_cons.mp hc with rfl | hc
        · exact le_of_lt hlt
        · exact le_trans (le_of_lt hlt) (h.1 c hc)
      · rw [if_neg hlt, List.pairwise_cons]
        refine ⟨fun c hc => ?_, ih h.2⟩
        rcases (List.mem_orderedInsert _).mp hc with rfl | hc
        · exact not_lt.mp hlt
        · exact h.1 c hc

variable {kind : α → Bool}

theorem filter_orderedInsert_of_neg {x : α} (hx : kind x = false) (items : List α) :
    (items.orderedInsert (fun a b => time a < time b) x).filter kind = items.filter kind := by
  induction items with
  | nil => rw [List.orderedInsert_nil, List.filter_cons_of_neg (by rw [hx]; decide)]
  | cons b items ih =>
      rw [List.orderedInsert_cons]
      by_cases h : time x < time b
      · rw [if_pos h, List.filter_cons_of_neg (by rw [hx]; decide)]
      · rw [if_neg h, List.filter_cons, List.filter_cons, ih]

/-- In a sorted list, an item of the kind goes where it would have gone had
    the others not been there. -/
theorem filter_orderedInsert_of_pos {x : α} (hx : kind x = true) {items : List α}
    (hsorted : items.Pairwise fun a b => time a ≤ time b) :
    (items.orderedInsert (fun a b => time a < time b) x).filter kind
      = (items.filter kind).orderedInsert (fun a b => time a < time b) x := by
  induction items with
  | nil => rw [List.orderedInsert_nil, List.filter_cons_of_pos hx, List.filter_nil,
      List.orderedInsert_nil]
  | cons b items ih =>
      rw [List.pairwise_cons] at hsorted
      rw [List.orderedInsert_cons]
      by_cases h : time x < time b
      · rw [if_pos h, List.filter_cons_of_pos hx]
        -- Everything that is left of the list is later as well.
        have hlater : ∀ c ∈ (b :: items).filter kind, time x < time c := by
          intro c hc
          rcases List.mem_cons.mp (List.mem_of_mem_filter hc) with hsame | hc
          · rw [hsame]
            exact h
          · exact lt_of_lt_of_le h (hsorted.1 c hc)
        cases hfilter : (b :: items).filter kind with
        | nil => rfl
        | cons c rest =>
            rw [List.orderedInsert_cons, if_pos (hlater c (by rw [hfilter]; exact
              List.mem_cons_self))]
      · rw [if_neg h]
        cases hb : kind b with
        | true =>
            rw [List.filter_cons_of_pos hb, List.filter_cons_of_pos hb, ih hsorted.2,
              List.orderedInsert_cons, if_neg h]
        | false =>
            rw [List.filter_cons_of_neg (by rw [hb]; decide),
              List.filter_cons_of_neg (by rw [hb]; decide), ih hsorted.2]

end Level

end Timeline
