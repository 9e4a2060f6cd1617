import BankSim.Library.Exec

/-!
# Insertion-Ordered Dictionaries

A finite map that remembers the order in which its keys first arrived.
Assigning to a present key keeps its place, assigning to a new one puts it
last, and removing a key closes the gap.

The items are a list of pairs, and that no key occurs twice is part of the
structure. Everything else is said through `get?`: `get?_set` and
`get?_erase` are the two equations by which a proof reads a dictionary, and
`mem_items_iff` leads from them back to the items. A sum over the values
changes by the difference when one value is replaced, which is
`sum_set_of_get?`, and grows by the new value when a key is added.

`index` and `group` are the two loops that build a dictionary from a list of
rows, keeping the last row under each key or all of them.

`atKey` runs a program on the value under a key, in place. With a component
of a larger state that is a dictionary of objects, it is how a method of one
of the objects is called, and the lemmas on `zoom` and `atKey` say what that
does to the whole.

## Main definitions

* `Dict`: Items with distinct keys, in order of arrival.
* `Dict.get?`, `Dict.set`, `Dict.erase`: Read, assign and remove.
* `Dict.setdefault`: Assign to a key that is not there.
* `Dict.index`: The last row under each key.
* `Dict.group`: The rows under each key.
* `Dict.atKey`: A program run on one value.

## Theorems

* `get?_set`, `get?_erase`: What an assignment and a removal change.
* `forall_get?_set`: What holds of all values after an assignment.
* `set_eq_self`: Assigning what is there changes nothing.
* `set_set`: A second assignment replaces the first.
* `values_set_of_none`, `values_set_split`: The values after an assignment.
* `filter_values_set_perm`: The selected values after an assignment.
* `mem_items_iff`: The items are the pairs `get?` finds.
* `sum_set_of_get?`, `sum_set_of_none`: How a sum over the values changes.
* `get?_index`, `get?_group`: What the two loops build.
* `mem_index_iff`, `mem_group_iff`: The keys they build it under.
* `map_values_index`: The values of an index carry its keys.
* `values_index_perm`: Rows with distinct keys are all kept.
* `mem_values_index`, `nodup_values_index`: Rows told apart by their keys are
  kept once each.
* `zoom_atKey_ok`, `zoom_atKey_refused`, `zoom_atKey_read`: A method call on
  one of the objects of a state.
* `zoom_atKey_guarded`: A guarded change of one of them.
-/

open Exec

/-- A finite map in insertion order. -/
structure Dict (κ α : Type) where
  items : List (κ × α)
  keys_nodup : (items.map Prod.fst).Nodup
  deriving DecidableEq

namespace Dict

variable {κ α β : Type} [DecidableEq κ]

/-- The items after an assignment: the value is replaced in its place, or the
    key is new and comes last. -/
def put (k : κ) (v : α) : List (κ × α) → List (κ × α)
  | [] => [(k, v)]
  | (j, w) :: items => if j = k then (k, v) :: items else (j, w) :: put k v items

theorem keys_put (k : κ) (v : α) (items : List (κ × α)) :
    (put k v items).map Prod.fst =
      if k ∈ items.map Prod.fst then items.map Prod.fst else items.map Prod.fst ++ [k] := by
  induction items with
  | nil => rfl
  | cons item items ih =>
      rcases item with ⟨j, w⟩
      by_cases hj : j = k
      · subst hj
        simp only [put, if_true, List.map_cons, List.mem_cons, true_or]
      · simp only [put, if_neg hj, List.map_cons, ih, List.mem_cons, Ne.symm hj, false_or]
        split_ifs <;> rfl

theorem nodup_keys_put (k : κ) (v : α) (items : List (κ × α))
    (h : (items.map Prod.fst).Nodup) : ((put k v items).map Prod.fst).Nodup := by
  rw [keys_put]
  split_ifs with hmem
  · exact h
  · exact List.nodup_append.mpr ⟨h, List.nodup_singleton k, fun a ha b hb hab =>
      hmem (by rwa [hab, List.mem_singleton.mp hb] at ha)⟩

def empty : Dict κ α :=
  ⟨[], List.nodup_nil⟩

def get? (d : Dict κ α) (k : κ) : Option α :=
  d.items.lookup k

def set (d : Dict κ α) (k : κ) (v : α) : Dict κ α :=
  ⟨put k v d.items, nodup_keys_put k v d.items d.keys_nodup⟩

/-- Assign to a key only if it is new. -/
def setdefault (d : Dict κ α) (k : κ) (v : α) : Dict κ α :=
  match d.get? k with
  | some _ => d
  | none => d.set k v

def erase (d : Dict κ α) (k : κ) : Dict κ α :=
  ⟨d.items.filter fun item => item.1 ≠ k, d.keys_nodup.sublist (List.filter_sublist.map _)⟩

def keys (d : Dict κ α) : List κ :=
  d.items.map Prod.fst

def values (d : Dict κ α) : List α :=
  d.items.map Prod.snd

instance : Membership κ (Dict κ α) :=
  ⟨fun d k => k ∈ d.keys⟩

instance (d : Dict κ α) (k : κ) : Decidable (k ∈ d) :=
  inferInstanceAs (Decidable (k ∈ d.keys))

theorem lookup_cons_ite (k j : κ) (v : α) (items : List (κ × α)) :
    ((j, v) :: items).lookup k = if k = j then some v else items.lookup k := by
  rw [List.lookup_cons]
  by_cases hj : k = j
  · simp only [hj, beq_self_eq_true, if_true]
  · have hbeq : (k == j) = false := by simpa using hj
    simp only [hbeq, hj, if_false]

/-- The items are exactly the pairs `get?` finds, since no key occurs twice. -/
theorem mem_items_iff (d : Dict κ α) (k : κ) (v : α) : (k, v) ∈ d.items ↔ d.get? k = some v := by
  rcases d with ⟨items, hnodup⟩
  unfold get?
  simp only
  induction items with
  | nil => simp only [List.not_mem_nil, List.lookup_nil, reduceCtorEq]
  | cons item items ih =>
      rcases item with ⟨j, w⟩
      rw [List.map_cons, List.nodup_cons] at hnodup
      rw [List.mem_cons, lookup_cons_ite, ih hnodup.2, Prod.mk.injEq]
      by_cases hj : k = j
      · have hnone : items.lookup k ≠ some v := fun hlookup =>
          hnodup.1 (List.mem_map.mpr ⟨(k, v), (ih hnodup.2).mpr hlookup, hj⟩)
        simp only [hj, true_and, if_true, Option.some.injEq, eq_comm (a := v)]
        rw [← hj, or_iff_left hnone]
      · simp only [hj, false_and, false_or, if_false]

theorem mem_iff (d : Dict κ α) (k : κ) : k ∈ d ↔ ∃ v, d.get? k = some v := by
  constructor
  · intro h
    rcases List.mem_map.mp h with ⟨⟨j, v⟩, hmem, rfl⟩
    exact ⟨v, (mem_items_iff d j v).mp hmem⟩
  · rintro ⟨v, hv⟩
    exact List.mem_map.mpr ⟨(k, v), (mem_items_iff d k v).mpr hv, rfl⟩

theorem not_mem_iff (d : Dict κ α) (k : κ) : k ∉ d ↔ d.get? k = none := by
  rw [mem_iff, not_exists]
  cases d.get? k <;> simp

/-- An assignment changes the value under its own key and no other. -/
theorem get?_set (d : Dict κ α) (k j : κ) (v : α) :
    (d.set k v).get? j = if j = k then some v else d.get? j := by
  unfold get? set
  simp only
  induction d.items with
  | nil => rw [put, lookup_cons_ite]
  | cons item items ih =>
      rcases item with ⟨i, w⟩
      by_cases hi : i = k
      · subst hi
        rw [put, if_pos rfl, lookup_cons_ite, lookup_cons_ite]
        split_ifs <;> rfl
      · rw [put, if_neg hi, lookup_cons_ite, lookup_cons_ite, ih]
        by_cases hj : j = i
        · rw [if_pos hj, if_pos hj, if_neg (hj ▸ hi)]
        · rw [if_neg hj, if_neg hj]

@[simp] theorem get?_set_self (d : Dict κ α) (k : κ) (v : α) : (d.set k v).get? k = some v := by
  rw [get?_set, if_pos rfl]

/-- Only the value a key already has can be set without changing anything. -/
theorem eq_of_set_eq_self {d : Dict κ α} {k : κ} {v w : α} (hset : d.set k w = d)
    (hget : d.get? k = some v) : v = w := by
  have hself := get?_set_self d k w
  rw [hset, hget] at hself
  exact Option.some.inj hself

theorem get?_set_ne (d : Dict κ α) {k j : κ} (v : α) (h : j ≠ k) :
    (d.set k v).get? j = d.get? j := by
  rw [get?_set, if_neg h]

/-- After an assignment, what holds of the new value and of the old values
    holds of all values. -/
theorem forall_get?_set {P : κ → α → Prop} {d : Dict κ α} {k : κ} {v : α} (hnew : P k v)
    (hold : ∀ j w, d.get? j = some w → P j w) :
    ∀ j w, (d.set k v).get? j = some w → P j w := by
  intro j w hget
  rw [get?_set] at hget
  split_ifs at hget with hsame
  · rw [← Option.some.inj hget, hsame]
    exact hnew
  · exact hold j w hget

/-- A default is there afterwards and changes nothing that was there. -/
theorem get?_setdefault (d : Dict κ α) (k j : κ) (v : α) :
    (d.setdefault k v).get? j = if j = k then some ((d.get? k).getD v) else d.get? j := by
  unfold setdefault
  cases hget : d.get? k with
  | none => rw [get?_set, Option.getD_none]
  | some w =>
      simp only [Option.getD_some]
      by_cases hj : j = k
      · rw [if_pos hj, hj, hget]
      · rw [if_neg hj]

/-- Reading with the default does not tell whether it was put there. -/
theorem getD_get?_setdefault (d : Dict κ α) (k j : κ) (v : α) :
    ((d.setdefault k v).get? j).getD v = (d.get? j).getD v := by
  rw [get?_setdefault]
  by_cases hj : j = k
  · rw [if_pos hj, hj, Option.getD_some]
  · rw [if_neg hj]

/-- A removal takes away its own key and no other. -/
theorem get?_erase (d : Dict κ α) (k j : κ) :
    (d.erase k).get? j = if j = k then none else d.get? j := by
  have hitems : ∀ v, (d.erase k).get? j = some v ↔ j ≠ k ∧ d.get? j = some v := by
    intro v
    rw [← mem_items_iff, ← mem_items_iff]
    simp only [erase, List.mem_filter, decide_eq_true_eq, and_comm]
  by_cases hj : j = k
  · rw [if_pos hj]
    cases hget : (d.erase k).get? j with
    | none => rfl
    | some v => exact absurd hj ((hitems v).mp hget).1
  · -- A key that stays has the value it had, or none.
    rw [if_neg hj]
    cases hget : d.get? j with
    | none =>
        cases herase : (d.erase k).get? j with
        | none => rfl
        | some v =>
            rw [((hitems v).mp herase).2] at hget
            cases hget
    | some v => exact (hitems v).mpr ⟨hj, hget⟩

/-- Assigning the value that is already there changes nothing. -/
theorem set_eq_self (d : Dict κ α) (k : κ) (v : α) (h : d.get? k = some v) : d.set k v = d := by
  have hput : ∀ items : List (κ × α), items.lookup k = some v → put k v items = items := by
    intro items
    induction items with
    | nil => simp only [List.lookup_nil, reduceCtorEq, false_implies]
    | cons item items ih =>
        rcases item with ⟨j, w⟩
        intro hlookup
        rw [lookup_cons_ite] at hlookup
        by_cases hj : k = j
        · rw [if_pos hj, Option.some.injEq] at hlookup
          rw [put, if_pos hj.symm, hlookup, hj]
        · rw [if_neg hj] at hlookup
          rw [put, if_neg (Ne.symm hj), ih hlookup]
  rcases d with ⟨items, hnodup⟩
  unfold set
  congr 1
  exact hput items h

/-- A second assignment to a key replaces the first. -/
theorem set_set (d : Dict κ α) (k : κ) (v w : α) : (d.set k v).set k w = d.set k w := by
  have hput : ∀ items : List (κ × α), put k w (put k v items) = put k w items := by
    intro items
    induction items with
    | nil => simp only [put, if_true]
    | cons item items ih =>
        rcases item with ⟨j, u⟩
        by_cases hj : j = k
        · simp only [put, hj, if_true]
        · simp only [put, if_neg hj, ih]
  unfold set
  congr 1
  exact hput d.items

/-- A new key goes last. -/
theorem values_set_of_none (d : Dict κ α) (k : κ) (v : α) (h : d.get? k = none) :
    (d.set k v).values = d.values ++ [v] := by
  have hput : ∀ items : List (κ × α), items.lookup k = none →
      put k v items = items ++ [(k, v)] := by
    intro items
    induction items with
    | nil => exact fun _ => rfl
    | cons item items ih =>
        rcases item with ⟨j, u⟩
        intro hlookup
        rw [lookup_cons_ite] at hlookup
        by_cases hj : k = j
        · rw [if_pos hj] at hlookup
          cases hlookup
        · rw [if_neg hj] at hlookup
          rw [put, if_neg (Ne.symm hj), ih hlookup, List.cons_append]
  change (put k v d.items).map Prod.snd = d.values ++ [v]
  rw [hput d.items h, List.map_append]
  rfl

/-- A known key keeps its place: only its own value is another. -/
theorem values_set_split (d : Dict κ α) (k : κ) (v : α) (h : d.get? k = some v) :
    ∃ before later, d.values = before ++ v :: later ∧
      ∀ w, (d.set k w).values = before ++ w :: later := by
  have hput : ∀ items : List (κ × α), items.lookup k = some v →
      ∃ before later, items.map Prod.snd = before ++ v :: later ∧
        ∀ w, (put k w items).map Prod.snd = before ++ w :: later := by
    intro items
    induction items with
    | nil => simp only [List.lookup_nil, reduceCtorEq, false_implies]
    | cons item items ih =>
        rcases item with ⟨j, u⟩
        intro hlookup
        rw [lookup_cons_ite] at hlookup
        by_cases hj : k = j
        · rw [if_pos hj, Option.some.injEq] at hlookup
          subst hj hlookup
          refine ⟨[], items.map Prod.snd, rfl, fun w => ?_⟩
          simp only [put, if_true, List.map_cons, List.nil_append]
        · rw [if_neg hj] at hlookup
          rcases ih hlookup with ⟨before, later, hvalues, hset⟩
          refine ⟨u :: before, later, ?_, fun w => ?_⟩
          · rw [List.map_cons, hvalues, List.cons_append]
          · rw [put, if_neg (Ne.symm hj), List.map_cons, hset w, List.cons_append]
  exact hput d.items h

/-- Replacing a value by one that looks the same leaves the values looking as
    they did. -/
theorem map_values_set_of_get? (d : Dict κ α) (k : κ) (v w : α) (f : α → β)
    (h : d.get? k = some v) (hsame : f w = f v) : (d.set k w).values.map f = d.values.map f := by
  rcases values_set_split d k v h with ⟨before, later, hvalues, hset⟩
  rw [hset w, hvalues, List.map_append, List.map_append, List.map_cons, List.map_cons, hsame]

theorem mem_values_iff (d : Dict κ α) (v : α) : v ∈ d.values ↔ ∃ k, d.get? k = some v := by
  rw [values, List.mem_map]
  constructor
  · rintro ⟨⟨k, _⟩, hitem, rfl⟩
    exact ⟨k, (mem_items_iff d k _).mp hitem⟩
  · rintro ⟨k, hget⟩
    exact ⟨(k, v), (mem_items_iff d k v).mpr hget, rfl⟩

/-- If every value carries its key, reading the keys off the values gives the
    keys. -/
theorem map_values_eq_keys (d : Dict κ α) (key : α → κ)
    (h : ∀ k v, d.get? k = some v → key v = k) : d.values.map key = d.keys := by
  rw [values, List.map_map]
  refine List.map_congr_left fun item hitem => ?_
  rcases item with ⟨k, v⟩
  exact h k v ((mem_items_iff d k v).mp hitem)

section Select

variable (selected : α → Bool)

/-- A value that comes to be selected joins the selected ones. -/
theorem filter_values_set_perm (d : Dict κ α) {k : κ} {v w : α} (h : d.get? k = some v)
    (hv : selected v = false) (hw : selected w = true) :
    ((d.set k w).values.filter selected).Perm (w :: d.values.filter selected) := by
  rcases values_set_split d k v h with ⟨before, later, hvalues, hset⟩
  rw [hset w, hvalues, List.filter_append, List.filter_append, List.filter_cons_of_pos hw,
    List.filter_cons_of_neg (by simp [hv])]
  exact List.perm_middle

/-- A value that is not selected can come or change without notice. -/
theorem filter_values_set_of_not (d : Dict κ α) (k : κ) {w : α}
    (h : ∀ v, d.get? k = some v → selected v = false) (hw : selected w = false) :
    (d.set k w).values.filter selected = d.values.filter selected := by
  cases hget : d.get? k with
  | none =>
      rw [values_set_of_none d k w hget, List.filter_append,
        List.filter_cons_of_neg (by simp [hw]), List.filter_nil, List.append_nil]
  | some v =>
      rcases values_set_split d k v hget with ⟨before, later, hvalues, hset⟩
      rw [hset w, hvalues, List.filter_append, List.filter_append,
        List.filter_cons_of_neg (by simp [hw]), List.filter_cons_of_neg (by simp [h v hget])]

end Select

theorem length_set_of_none (d : Dict κ α) (k : κ) (v : α) (h : d.get? k = none) :
    (d.set k v).items.length = d.items.length + 1 := by
  have hlength := congrArg List.length (values_set_of_none d k v h)
  simpa only [values, List.length_map, List.length_append, List.length_singleton] using hlength

/-- Removing a present key leaves one item less. -/
theorem length_erase_of_mem (d : Dict κ α) (k : κ) (h : k ∈ d) :
    (d.erase k).items.length + 1 = d.items.length := by
  -- The key is there once, and what is removed is what has it.
  have hcount : d.items.countP (fun item => item.1 = k) = 1 := by
    have hkeys : d.keys.count k = 1 := List.count_eq_one_of_mem d.keys_nodup h
    rw [keys, List.count, List.countP_map] at hkeys
    rw [← hkeys]
    exact List.countP_congr fun item _ => by simp
  have hlength := List.length_eq_countP_add_countP (fun item : κ × α => decide (item.1 = k))
    (l := d.items)
  have hother : (d.erase k).items.length
      = d.items.countP (fun item => ¬ decide (item.1 = k) = true) := by
    rw [erase, ← List.countP_eq_length_filter]
    exact List.countP_congr fun item _ => by simp
  rw [hother, hlength, hcount, Nat.add_comm]

theorem length_erase_lt (d : Dict κ α) (k : κ) (h : k ∈ d) :
    (d.erase k).items.length < d.items.length := by
  have := length_erase_of_mem d k h
  omega

section Sum

variable {M : Type} [AddCommGroup M]

/-- Replacing a value changes a sum over the values by the difference. -/
theorem sum_set_of_get? (d : Dict κ α) (k : κ) (v w : α) (f : α → M) (h : d.get? k = some v) :
    ((d.set k w).values.map f).sum = (d.values.map f).sum - f v + f w := by
  have hput : ∀ items : List (κ × α), items.lookup k = some v →
      ((put k w items).map fun item => f item.2).sum
        = (items.map fun item => f item.2).sum - f v + f w := by
    intro items
    induction items with
    | nil => simp only [List.lookup_nil, reduceCtorEq, false_implies]
    | cons item items ih =>
        rcases item with ⟨j, u⟩
        intro hlookup
        rw [lookup_cons_ite] at hlookup
        -- The value sits at the head, or the sum changes further on.
        by_cases hj : k = j
        · rw [if_pos hj, Option.some.injEq] at hlookup
          simp only [put, hj, if_true, List.map_cons, List.sum_cons, hlookup]
          abel
        · rw [if_neg hj] at hlookup
          simp only [put, if_neg (Ne.symm hj), List.map_cons, List.sum_cons, ih hlookup]
          abel
  simp only [values, List.map_map]
  exact hput d.items h

/-- A new key adds its value to a sum over the values. -/
theorem sum_set_of_none (d : Dict κ α) (k : κ) (w : α) (f : α → M) (h : d.get? k = none) :
    ((d.set k w).values.map f).sum = (d.values.map f).sum + f w := by
  have hput : ∀ items : List (κ × α), items.lookup k = none →
      ((put k w items).map fun item => f item.2).sum
        = (items.map fun item => f item.2).sum + f w := by
    intro items
    induction items with
    | nil =>
        intro _
        simp only [put, List.map_cons, List.map_nil, List.sum_cons, List.sum_nil, add_zero,
          zero_add]
    | cons item items ih =>
        rcases item with ⟨j, u⟩
        intro hlookup
        -- The head has another key, so the new item goes to the end.
        rw [lookup_cons_ite] at hlookup
        by_cases hj : k = j
        · simp only [hj, if_true, reduceCtorEq] at hlookup
        · rw [if_neg hj] at hlookup
          simp only [put, if_neg (Ne.symm hj), List.map_cons, List.sum_cons, ih hlookup]
          abel
  simp only [values, List.map_map]
  exact hput d.items h

end Sum

/-- `{key(row): row for row in rows}`: later rows replace earlier ones. -/
def index (key : α → κ) (rows : List α) : Dict κ α :=
  rows.foldl (fun d row => d.set (key row) row) empty

/-- `d.setdefault(key(row), []).append(row)` for every row. -/
def group (key : α → κ) (rows : List α) : Dict κ (List α) :=
  rows.foldl (fun d row => d.set (key row) ((d.get? (key row)).getD [] ++ [row])) empty

/-- An index holds the last row under each key. -/
theorem get?_index (key : α → κ) (rows : List α) (k : κ) :
    (index key rows).get? k = (rows.filter fun row => key row = k).getLast? := by
  unfold index
  induction rows using List.reverseRecOn with
  | nil => rfl
  | append_singleton rows row ih =>
      rw [List.foldl_append, List.foldl_cons, List.foldl_nil, get?_set, ih, List.filter_append]
      by_cases hk : key row = k
      · simp only [hk, if_true, List.filter_cons, decide_true, List.filter_nil,
          List.getLast?_append, List.getLast?_singleton, Option.some_or]
      · simp only [hk, Ne.symm hk, if_false, List.filter_cons, decide_false, Bool.false_eq_true,
          List.filter_nil, List.append_nil]

/-- The values of an index carry its keys. -/
theorem map_values_index (key : α → κ) (rows : List α) :
    (index key rows).values.map key = (index key rows).keys := by
  refine map_values_eq_keys _ key fun k row hget => ?_
  rw [get?_index] at hget
  have hmem := List.mem_of_getLast? hget
  simpa using (List.mem_filter.mp hmem).2

/-- Rows with distinct keys are all kept. -/
theorem values_index_perm (key : α → κ) (rows : List α) (h : (rows.map key).Nodup) :
    (index key rows).values.Perm rows := by
  unfold index
  induction rows using List.reverseRecOn with
  | nil => exact List.Perm.refl _
  | append_singleton rows row ih =>
      rw [List.map_append, List.nodup_append] at h
      have hnew : (rows.foldl (fun d row => d.set (key row) row) empty).get? (key row) = none := by
        change (index key rows).get? (key row) = none
        rw [get?_index, List.getLast?_eq_none_iff, List.filter_eq_nil_iff]
        intro other hother hsame
        exact h.2.2 _ (List.mem_map_of_mem hother) _
          (List.mem_map_of_mem (List.mem_singleton_self row))
          (of_decide_eq_true hsame)
      rw [List.foldl_append, List.foldl_cons, List.foldl_nil, values_set_of_none _ _ _ hnew]
      exact (ih h.1).append_right [row]

theorem nodup_values_index (key : α → κ) (rows : List α) : (index key rows).values.Nodup := by
  refine List.Nodup.of_map key ?_
  rw [map_values_index]
  exact keys_nodup _

/-- Where a key tells a row from all others, the row is kept. -/
theorem mem_values_index (key : α → κ) {rows : List α}
    (hkey : ∀ a ∈ rows, ∀ b ∈ rows, key a = key b → a = b) (row : α) :
    row ∈ (index key rows).values ↔ row ∈ rows := by
  simp only [mem_values_iff, get?_index]
  constructor
  · rintro ⟨k, hlast⟩
    exact List.mem_of_mem_filter (List.mem_of_getLast? hlast)
  · intro hrow
    have hmem : row ∈ rows.filter fun other => key other = key row :=
      List.mem_filter.mpr ⟨hrow, by simp only [decide_true]⟩
    -- The last row under the key is the row itself.
    cases hlast : (rows.filter fun other => key other = key row).getLast? with
    | none =>
        rw [List.getLast?_eq_none_iff] at hlast
        rw [hlast] at hmem
        cases hmem
    | some last =>
        have hfilter := List.mem_filter.mp (List.mem_of_getLast? hlast)
        refine ⟨key row, ?_⟩
        rw [hlast, hkey last hfilter.1 row hrow (of_decide_eq_true hfilter.2)]

/-- A group holds the rows under each key, in order. -/
theorem get?_group (key : α → κ) (rows : List α) (k : κ) :
    ((group key rows).get? k).getD [] = rows.filter fun row => key row = k := by
  unfold group
  induction rows using List.reverseRecOn with
  | nil => rfl
  | append_singleton rows row ih =>
      rw [List.foldl_append, List.foldl_cons, List.foldl_nil, get?_set, List.filter_append]
      by_cases hk : key row = k
      · simp only [hk, if_true, Option.getD_some, ih, List.filter_cons, decide_true,
          List.filter_nil]
      · simp only [hk, Ne.symm hk, if_false, ih, List.filter_cons, decide_false,
          Bool.false_eq_true, List.filter_nil, List.append_nil]

/-- The keys of an index are those of its rows. -/
theorem mem_index_iff (key : α → κ) (rows : List α) (k : κ) :
    k ∈ index key rows ↔ k ∈ rows.map key := by
  rw [← not_iff_not, not_mem_iff, get?_index, List.getLast?_eq_none_iff, List.filter_eq_nil_iff]
  simp

/-- The keys of a group are those of its rows. -/
theorem mem_group_iff (key : α → κ) (rows : List α) (k : κ) :
    k ∈ group key rows ↔ k ∈ rows.map key := by
  unfold group
  induction rows using List.reverseRecOn with
  | nil => exact iff_of_false List.not_mem_nil List.not_mem_nil
  | append_singleton rows row ih =>
      rw [List.foldl_append, List.foldl_cons, List.foldl_nil, mem_iff, get?_set, List.map_append,
        List.mem_append, ← ih, mem_iff]
      by_cases hk : k = key row
      · simp [hk]
      · simp [hk]

theorem mem_index_of_mem (key : α → κ) {rows : List α} {row : α} (h : row ∈ rows) :
    key row ∈ index key rows :=
  (mem_index_iff key rows _).mpr (List.mem_map_of_mem h)

theorem mem_group_of_mem (key : α → κ) {rows : List α} {row : α} (h : row ∈ rows) :
    key row ∈ group key rows :=
  (mem_group_iff key rows _).mpr (List.mem_map_of_mem h)

/-- Run a program on the value under a key, in place. A missing key raises. -/
def atKey {ε : Type} (missing : ε) (k : κ) (m : EStateM ε α β) : EStateM ε (Dict κ α) β := fun d =>
  match d.get? k with
  | none => .error missing d
  | some v =>
      match m.run v with
      | .ok b w => .ok b (d.set k w)
      | .error e w => .error e (d.set k w)

section AtKey

variable {ε : Type} (missing : ε) (k : κ) (m : EStateM ε α β) (d : Dict κ α)

theorem atKey_run_none (h : d.get? k = none) : (atKey missing k m).run d = .error missing d := by
  change (match d.get? k with | none => _ | some v => _) = _
  rw [h]

theorem atKey_run_ok {v w : α} {b : β} (h : d.get? k = some v) (hm : m.run v = .ok b w) :
    (atKey missing k m).run d = .ok b (d.set k w) := by
  change (match d.get? k with | none => _ | some v => _) = _
  rw [h]
  simp only [hm]

theorem atKey_run_error {v w : α} {e : ε} (h : d.get? k = some v) (hm : m.run v = .error e w) :
    (atKey missing k m).run d = .error e (d.set k w) := by
  change (match d.get? k with | none => _ | some v => _) = _
  rw [h]
  simp only [hm]

/-- Whichever way the program ends, it changed at most the value under the
    key. -/
theorem after_atKey : after (atKey missing k m) d =
    match d.get? k with
    | none => d
    | some v => d.set k (after m v) := by
  cases hget : d.get? k with
  | none => exact after_of_error (atKey_run_none missing k m d hget)
  | some v =>
      cases hm : m.run v with
      | ok b w =>
          rw [after_of_ok (atKey_run_ok missing k m d hget hm)]
          simp only [after_of_ok hm]
      | error e w =>
          rw [after_of_error (atKey_run_error missing k m d hget hm)]
          simp only [after_of_error hm]

theorem raisesOnly_atKey {P : ε → Prop} (hmissing : P missing) (hm : RaisesOnly P m) :
    RaisesOnly P (atKey missing k m) := by
  intro d e d' hrun
  cases hget : d.get? k with
  | none =>
      cases (atKey_run_none missing k m d hget).symm.trans hrun
      exact hmissing
  | some v =>
      cases hinner : m.run v with
      | ok b w => cases (atKey_run_ok missing k m d hget hinner).symm.trans hrun
      | error e' w =>
          cases (atKey_run_error missing k m d hget hinner).symm.trans hrun
          exact hm v _ w hinner

end AtKey

section Zoom

variable {ε σ : Type} {p : Component σ (Dict κ α)} {x : ε} {k : κ} {m : EStateM ε α β} {s : σ}

theorem zoom_atKey_missing (h : (p.get s).get? k = none) :
    (p.zoom (atKey x k m)).run s = .error x s := by
  rw [Component.zoom_run_error (atKey_run_none x k m (p.get s) h), p.set_get]

theorem zoom_atKey_ok {v w : α} {b : β} (h : (p.get s).get? k = some v) (hm : m.run v = .ok b w) :
    (p.zoom (atKey x k m)).run s = .ok b (p.set ((p.get s).set k w) s) :=
  Component.zoom_run_ok (atKey_run_ok x k m (p.get s) h hm)

/-- A program that raises and leaves the value alone leaves everything
    alone. -/
theorem zoom_atKey_refused {v : α} {e : ε} (h : (p.get s).get? k = some v)
    (hm : m.run v = .error e v) : (p.zoom (atKey x k m)).run s = .error e s := by
  rw [Component.zoom_run_error (atKey_run_error x k m (p.get s) h hm),
    set_eq_self _ _ _ h, p.set_get]

/-- Reading from a value changes nothing. -/
theorem zoom_atKey_read {γ : Type} {v : α} (f : α → γ) (h : (p.get s).get? k = some v) :
    (p.zoom (atKey x k (return f (← get)))).run s = .ok (f v) s := by
  have hrun := zoom_atKey_ok (p := p) (x := x)
    (m := (do return f (← get) : EStateM ε α γ)) h (b := f v) (w := v) rfl
  rwa [set_eq_self _ _ _ h, p.set_get] at hrun

/-- A guarded change of one value: it is refused and nothing changes, or the
    value is replaced and nothing else changes. -/
theorem zoom_atKey_guarded (p : Component σ (Dict κ α)) (x : ε) (k : κ) (allowed : α → Prop)
    [DecidablePred allowed] (refusal : α → ε) (move : α → α) (s : σ) :
    ((∃ e, (p.zoom (atKey x k (guarded allowed refusal move))).run s = .error e s) ∧
        ∀ v, (p.get s).get? k = some v → ¬ allowed v) ∨
      ∃ v, (p.get s).get? k = some v ∧ allowed v ∧
        (p.zoom (atKey x k (guarded allowed refusal move))).run s
          = .ok () (p.set ((p.get s).set k (move v)) s) := by
  cases hget : (p.get s).get? k with
  | none => exact Or.inl ⟨⟨_, zoom_atKey_missing hget⟩, fun _ h => absurd h (by simp)⟩
  | some v =>
      by_cases hallowed : allowed v
      · exact Or.inr ⟨v, rfl, hallowed,
          zoom_atKey_ok hget (guarded_of_allowed refusal move hallowed)⟩
      · refine Or.inl ⟨⟨_, zoom_atKey_refused hget (guarded_of_refused refusal move hallowed)⟩,
          fun w hw => ?_⟩
        rw [← Option.some.inj hw]
        exact hallowed

end Zoom

end Dict
