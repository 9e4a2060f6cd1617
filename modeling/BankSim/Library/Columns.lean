import Mathlib

/-!
# Text in Lines and Columns

Lines that were joined by a separator are found again by splitting there, as
long as no line holds the separator. A field of a line is read up to the first
character of another kind, and `Stops` says that what follows the field starts
with one. Padding is dropped on the way to the next field, so it does not matter
how wide a column was, or whether its field was too long for it.

Texts are lists of characters of any type here.

## Main definitions

* `Columns.Stops`: A text does not start with a character of a kind.

## Theorems

* `splitOn_joined`: Lines are found again.
* `takeWhile_field`, `dropWhile_field`: Reading a field, and what follows it.
* `stops_padding`: Padding ends a field that does not hold it.
* `dropWhile_padding`: Dropping the padding.
-/

namespace Columns

variable {χ : Type}

/-- The text is empty or starts with a character that is not of the kind. -/
def Stops (kind : χ → Bool) (text : List χ) : Prop :=
  ∀ c ∈ text.head?, kind c = false

variable {kind : χ → Bool} {text rest : List χ}

theorem stops_cons {c : χ} (h : kind c = false) (text : List χ) : Stops kind (c :: text) := by
  intro d hd
  cases hd
  exact h

theorem Stops.takeWhile (h : Stops kind text) : text.takeWhile kind = [] := by
  cases text with
  | nil => rfl
  | cons c text => exact List.takeWhile_cons_of_neg (by simp [h c rfl])

theorem Stops.dropWhile (h : Stops kind text) : text.dropWhile kind = text := by
  cases text with
  | nil => rfl
  | cons c text => exact List.dropWhile_cons_of_neg (by simp [h c rfl])

/-- A field is read up to what stops it. -/
theorem takeWhile_field (htext : ∀ c ∈ text, kind c = true) (hrest : Stops kind rest) :
    (text ++ rest).takeWhile kind = text := by
  rw [List.takeWhile_append_of_pos htext, hrest.takeWhile, List.append_nil]

/-- What stops a field follows it. -/
theorem dropWhile_field (htext : ∀ c ∈ text, kind c = true) (hrest : Stops kind rest) :
    (text ++ rest).dropWhile kind = rest := by
  rw [List.dropWhile_append_of_pos htext, hrest.dropWhile]

/-- Padding stops a field that does not hold it, and so does what follows when
    there is no padding. -/
theorem stops_padding {blank : χ} (hblank : kind blank = false) (hrest : Stops kind rest)
    (count : Nat) : Stops kind (List.replicate count blank ++ rest) := by
  cases count with
  | zero => exact hrest
  | succ count => exact stops_cons hblank _

variable [DecidableEq χ]

/-- Padding is dropped up to what is not padding. -/
theorem dropWhile_padding {blank : χ} (hrest : Stops (· = blank) rest) (count : Nat) :
    (List.replicate count blank ++ rest).dropWhile (· = blank) = rest :=
  dropWhile_field (fun _ hc => decide_eq_true (List.eq_of_mem_replicate hc)) hrest

/-- A text without padding does not start with it. -/
theorem stops_of_ne {blank : χ} (h : ∀ c ∈ text, c ≠ blank) : Stops (· = blank) text :=
  fun c hc => decide_eq_false (h c (List.mem_of_mem_head? hc))

/-- Lines that were joined are found again. -/
theorem splitOn_joined {separator : χ} {lines : List (List χ)} (hne : lines ≠ [])
    (h : ∀ line ∈ lines, ∀ c ∈ line, c ≠ separator) :
    ([separator].intercalate lines).splitOn separator = lines :=
  List.splitOn_intercalate separator (fun line hline hmem => h line hline separator hmem rfl) hne

end Columns
