import Mathlib

/-!
# Grouped Decimal Numerals

Decimal digits with a comma between groups of three, counted from the right,
and the reading of such a text.

A comma follows a digit when the number of digits after it is a positive
multiple of three. Taking the commas out gives the digits back, since no digit
is a comma, so the reader needs no grammar: it takes the commas out, and
accepts the text when grouping what is left gives that text.

## Main definitions

* `Decimals.grouped`: Digits with their commas.
* `Decimals.readGrouped`: The number a grouped numeral stands for.

## Theorems

* `grouped_append_three`: Three more digits on the right are a group.
* `filter_grouped`: The digits of a grouped numeral.
* `readGrouped_grouped`: Reading what was grouped.
-/

namespace Decimals

/-- A comma after every digit that a positive multiple of three digits
    follows. -/
def grouped : List Char → List Char
  | [] => []
  | digit :: digits =>
      if digits ≠ [] ∧ digits.length % 3 = 0 then
        digit :: ',' :: grouped digits
      else
        digit :: grouped digits

/-- The number a grouped numeral stands for, if the text is one. -/
def readGrouped (text : List Char) : Option Nat :=
  let digits := text.filter (· ≠ ',')
  if digits ≠ [] ∧ digits.all Char.isDigit ∧ grouped digits = text then
    some (Nat.ofDigitChars 10 digits 0)
  else
    none

/-- At most three digits are one group. -/
theorem grouped_of_length_le (digits : List Char) (hshort : digits.length ≤ 3) :
    grouped digits = digits := by
  induction digits with
  | nil => rfl
  | cons digit digits ih =>
      rw [List.length_cons] at hshort
      rw [grouped, ih (by omega), if_neg]
      rintro ⟨hne, hthree⟩
      have := List.length_pos_of_ne_nil hne
      omega

/-- Three more digits on the right are a group of their own. Nothing changes
    to their left, where every count grows by three. -/
theorem grouped_append_three (digits : List Char) (hne : digits ≠ []) (a b c : Char) :
    grouped (digits ++ [a, b, c]) = grouped digits ++ [',', a, b, c] := by
  induction digits with
  | nil => exact absurd rfl hne
  | cons digit digits ih =>
      rw [List.cons_append, grouped, grouped]
      by_cases hlast : digits = []
      · -- The digit before the new group is the one that gets its comma.
        subst hlast
        rw [List.nil_append, if_pos ⟨List.cons_ne_nil a [b, c], by simp⟩, if_neg (by simp),
          grouped_of_length_le [a, b, c] (by simp)]
        rfl
      · have hcount : (digits ++ [a, b, c]).length % 3 = digits.length % 3 := by
          rw [List.length_append]
          exact Nat.add_mod_right digits.length 3
        rw [ih hlast, hcount]
        by_cases hthree : digits.length % 3 = 0
        · rw [if_pos ⟨by simp, hthree⟩, if_pos ⟨hlast, hthree⟩]
          rfl
        · rw [if_neg (fun h => hthree h.2), if_neg (fun h => hthree h.2)]
          rfl

/-- What a grouped numeral is made of. -/
theorem mem_grouped {digits : List Char} {c : Char} (hc : c ∈ grouped digits) :
    c ∈ digits ∨ c = ',' := by
  induction digits with
  | nil => exact absurd hc List.not_mem_nil
  | cons digit digits ih =>
      rw [grouped] at hc
      split at hc <;> simp only [List.mem_cons] at hc ⊢
      · rcases hc with h | h | h
        · exact Or.inl (Or.inl h)
        · exact Or.inr h
        · exact (ih h).imp_left Or.inr
      · rcases hc with h | h
        · exact Or.inl (Or.inl h)
        · exact (ih h).imp_left Or.inr

/-- The digits of a grouped numeral are what it was grouped from. -/
theorem filter_grouped (digits : List Char) (hdigits : ∀ c ∈ digits, c ≠ ',') :
    (grouped digits).filter (· ≠ ',') = digits := by
  induction digits with
  | nil => rfl
  | cons digit digits ih =>
      have hdigit : digit ≠ ',' := hdigits digit (List.mem_cons_self ..)
      have hrest := ih fun c hc => hdigits c (List.mem_cons_of_mem digit hc)
      rw [grouped]
      split
      · rw [List.filter_cons_of_pos (by simpa using hdigit), List.filter_cons_of_neg (by simp),
          hrest]
      · rw [List.filter_cons_of_pos (by simpa using hdigit), hrest]

theorem isDigit_ne {c d : Char} (hc : c.isDigit) (hd : d.isDigit = false) : c ≠ d := by
  rintro rfl
  rw [hc] at hd
  cases hd

/-- Reading the grouped numeral of a number gives that number. -/
theorem readGrouped_grouped (n : Nat) : readGrouped (grouped (Nat.toDigits 10 n)) = some n := by
  have hall : ∀ c ∈ Nat.toDigits 10 n, c.isDigit := fun c hc =>
    Nat.isDigit_of_mem_toDigits (by decide) (by decide) hc
  have hdigits : (grouped (Nat.toDigits 10 n)).filter (· ≠ ',') = Nat.toDigits 10 n :=
    filter_grouped _ fun c hc => isDigit_ne (hall c hc) (by decide)
  rw [readGrouped, hdigits, if_pos ⟨Nat.toDigits_ne_nil, List.all_eq_true.mpr hall, rfl⟩,
    Nat.ofDigitChars_ten_toDigits]

end Decimals
