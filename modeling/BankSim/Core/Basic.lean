import BankSim.Library.Run

/-!
# Exceptions and Text

What every module of the simulator shares: the exceptions it raises, the
monad its methods run in, the test for blank text, and sorting.

An exception is its class and its message. Both are observable, and several
classes share a message, so neither alone would do.

A method of a mutable object is an `Action` on that object. The object is the
state, and a raise leaves it in whatever condition the statements before the
raise put it.

Identifiers are validated with `not value.strip()`, which is true when every
character is white space in the sense of `str.isspace`. Type tests of the
source (`isinstance`) are what the types below say, so they have no
counterpart as checks.

## Main definitions

* `ErrorKind`: The exception classes.
* `Raised`: An exception.
* `Action`: A method of a mutable object.
* `isSpace`: White space, as `str.isspace` has it.
* `isBlank`: Text that `strip` leaves empty.
* `sortedBy`: Sorting by a key, stably.
-/

namespace BankSim

/-- The exception classes the simulator raises. -/
inductive ErrorKind
  | ledgerValidation
  | balanceValidation
  | depositValidation
  | withdrawalValidation
  | transferValidation
  | achValidation
  | achReturnValidation
  | valueError
  | keyError
  | indexError
  | runtimeError
  | idempotencyConflict
  deriving DecidableEq, Repr

/-- An exception: its class and its message. -/
structure Raised where
  kind : ErrorKind
  message : String
  deriving DecidableEq, Repr

def valueError (message : String) : Raised :=
  ⟨.valueError, message⟩

/-- A method of an object with mutable state `σ`. -/
abbrev Action (σ α : Type) := EStateM Raised σ α

/-- The characters `str.isspace` accepts. -/
def isSpace (c : Char) : Bool :=
  (0x09 ≤ c.toNat && c.toNat ≤ 0x0d) || (0x1c ≤ c.toNat && c.toNat ≤ 0x20) ||
    c.toNat == 0x85 || c.toNat == 0xa0 || c.toNat == 0x1680 ||
    (0x2000 ≤ c.toNat && c.toNat ≤ 0x200a) || c.toNat == 0x2028 || c.toNat == 0x2029 ||
    c.toNat == 0x202f || c.toNat == 0x205f || c.toNat == 0x3000

/-- `not value.strip()`: nothing is left once white space is stripped. -/
def isBlank (value : String) : Bool :=
  value.toList.all isSpace

/-- `sorted(rows, key=key)`. Rows with equal keys keep their order. -/
def sortedBy {α β : Type} [LinearOrder β] (key : α → β) (rows : List α) : List α :=
  rows.insertionSort fun a b => key a ≤ key b

theorem sortedBy_perm {α β : Type} [LinearOrder β] (key : α → β) (rows : List α) :
    (sortedBy key rows).Perm rows :=
  List.perm_insertionSort _ rows

theorem sortedBy_pairwise {α β : Type} [LinearOrder β] (key : α → β) (rows : List α) :
    (sortedBy key rows).Pairwise fun a b => key a ≤ key b := by
  have : Std.Total fun a b : α => key a ≤ key b := ⟨fun a b => le_total (key a) (key b)⟩
  have : IsTrans α fun a b => key a ≤ key b := ⟨fun _ _ _ => le_trans⟩
  exact List.pairwise_insertionSort _ rows

/-- Sorting by a key that only looks at a part of the rows. -/
theorem map_sortedBy {α β γ : Type} [LinearOrder β] (key : γ → β) (f : α → γ) (rows : List α) :
    (sortedBy (fun row => key (f row)) rows).map f = sortedBy key (rows.map f) :=
  List.map_insertionSort _ _ f rows fun _ _ _ _ => Iff.rfl

/-- A key that tells the rows apart leaves one order to sort them into. -/
theorem sortedBy_eq_of_perm {α β : Type} [LinearOrder β] (key : α → β) {rows others : List α}
    (hperm : rows.Perm others) (hkey : ∀ a ∈ rows, ∀ b ∈ rows, key a = key b → a = b) :
    sortedBy key rows = sortedBy key others := by
  have hsorted : (sortedBy key rows).Perm (sortedBy key others) :=
    (sortedBy_perm key rows).trans (hperm.trans (sortedBy_perm key others).symm)
  refine hsorted.eq_of_pairwise ?_ (sortedBy_pairwise key rows) (sortedBy_pairwise key others)
  intro a b ha hb hab hba
  rw [(sortedBy_perm key rows).mem_iff] at ha
  rw [(sortedBy_perm key others).mem_iff, ← hperm.mem_iff] at hb
  exact hkey a ha b hb (le_antisymm hab hba)

/-- Rows with distinct keys are sorted strictly. -/
theorem sortedBy_pairwise_lt {α β : Type} [LinearOrder β] (key : α → β) (rows : List α)
    (hnodup : (rows.map key).Nodup) :
    (sortedBy key rows).Pairwise fun a b => key a < key b := by
  have hne : (sortedBy key rows).Pairwise fun a b => key a ≠ key b :=
    List.pairwise_map.mp (((sortedBy_perm key rows).map key).nodup_iff.mpr hnodup)
  exact (sortedBy_pairwise key rows).imp₂
    (fun _ _ hle hdistinct => lt_of_le_of_ne hle hdistinct) hne

theorem isBlank_append (a b : String) : isBlank (a ++ b) = (isBlank a && isBlank b) := by
  simp only [isBlank, String.toList_append, List.all_append]

/-- A text with a nonblank suffix is not blank. Every derived identifier ends
    in such a suffix, so its own check never fails. -/
theorem isBlank_append_of_suffix (a b : String) (hb : isBlank b = false) :
    isBlank (a ++ b) = false := by
  rw [isBlank_append, hb, Bool.and_false]

/-! ### Validity as a field

A structure carries the checks of its constructor as fields. These are the
proofs that go there, for a value that was checked and for a numeral. -/

theorem nonblank_of_not {text : String} (h : ¬ isBlank text) : isBlank text = false :=
  Bool.eq_false_of_not_eq_true h

theorem pos_of_not_le {n : Int} (h : ¬ n ≤ 0) : 0 < n :=
  Int.not_le.mp h

theorem pos_of_not_lt {n : Int} (h : ¬ n < 1) : 0 < n :=
  Int.not_lt.mp h

theorem nonneg_of_not_lt {n : Int} (h : ¬ n < 0) : 0 ≤ n :=
  Int.not_lt.mp h

theorem pos_of_count {n : Nat} (h : 0 < n) : (0 : Int) < n :=
  Int.natCast_pos.mpr h

/-- The evaluation of a test that a numeral passes. -/
theorem passes : true = true := rfl

theorem numeral_pos {n : Nat} (h : Nat.blt 0 n = true) : (0 : Int) < n := by
  rw [Nat.blt_eq] at h
  exact Int.natCast_pos.mpr h

theorem numeral_nonneg {n : Nat} : (0 : Int) ≤ n :=
  Int.natCast_nonneg n

theorem count_pos {n : Nat} (h : Nat.blt 0 n = true) : 0 < (OfNat.ofNat n : Nat) := by
  rwa [Nat.blt_eq] at h

/-- Derived identifiers are as distinct as what they are derived from. -/
theorem append_suffix_inj {a b suffix : String} (h : a ++ suffix = b ++ suffix) : a = b := by
  have hlist := congrArg String.toList h
  rw [String.toList_append, String.toList_append] at hlist
  exact String.toList_inj.mp (List.append_cancel_right hlist)

/-- Suffixes that differ in their last three letters derive different
    identifiers from anything. -/
theorem append_suffix_ne (a b : String) {s t : String} (hs : 3 ≤ s.toList.length)
    (ht : 3 ≤ t.toList.length) (hne : s.toList.reverse.take 3 ≠ t.toList.reverse.take 3) :
    a ++ s ≠ b ++ t := by
  intro h
  have hlist := congrArg (fun text : String => text.toList.reverse.take 3) h
  simp only [String.toList_append, List.reverse_append] at hlist
  rw [List.take_append_of_le_length (by simpa using hs),
    List.take_append_of_le_length (by simpa using ht)] at hlist
  exact hne hlist

end BankSim
