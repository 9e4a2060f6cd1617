import BankSim.Core.MoneyText

/-!
# Money Text Is Lossless

The text of an amount gives the amount back.

`parseMoney` reads a sign, the dollar sign, the dollars up to the point, and
the two digits after it. Nothing about the format is ambiguous: the dollars
hold no point, so the point is the first one, and the sign is the only
character that can stand before the dollar sign.

## Main definitions

* `parseMoney`: The number of cents a text stands for.

## Theorems

* `thousands_add`: The format `,` puts a comma before each group of three.
* `parseMagnitude_formatted`: Dollars and cents are read back.
* `formatMoney_lossless`: The format loses nothing, whichever way it is asked
  to write the sign.
-/

namespace BankSim

/-- The magnitude written after the dollar sign: dollars, a point and two
    digits. -/
def parseMagnitude (text : List Char) : Option Nat :=
  match text.dropWhile (· ≠ '.') with
  | ['.', tens, units] =>
      if tens.isDigit && units.isDigit then
        (Decimals.readGrouped (text.takeWhile (· ≠ '.'))).map fun dollars =>
          100 * dollars + Nat.ofDigitChars 10 [tens, units] 0
      else
        none
  | _ => none

/-- The number of cents a text stands for, if it is the text of one. -/
def parseMoney (text : String) : Option Int :=
  match text.toList with
  | '-' :: '$' :: magnitude => (parseMagnitude magnitude).map (Int.neg ∘ Nat.cast)
  | '+' :: '$' :: magnitude => (parseMagnitude magnitude).map Nat.cast
  | '$' :: magnitude => (parseMagnitude magnitude).map Nat.cast
  | _ => none

/-- The digits of a number that has a last one to spare. -/
theorem toDigits_snoc (n d : Nat) (hn : 0 < n) (hd : d < 10) :
    Nat.toDigits 10 (10 * n + d) = Nat.toDigits 10 n ++ [d.digitChar] := by
  rw [← Nat.toDigits_append_toDigits (by decide) hn hd, Nat.toDigits_of_lt_base hd]

/-- The format `,` counts its groups from the right: the last three digits of
    a number with more of them stand behind a comma. -/
theorem thousands_add (n a b c : Nat) (hn : 0 < n) (ha : a < 10) (hb : b < 10) (hc : c < 10) :
    thousands (1000 * n + 100 * a + 10 * b + c)
      = thousands n ++ String.ofList [',', a.digitChar, b.digitChar, c.digitChar] := by
  have hsplit : 1000 * n + 100 * a + 10 * b + c = 10 * (10 * (10 * n + a) + b) + c := by omega
  have hdigits : Nat.toDigits 10 (1000 * n + 100 * a + 10 * b + c)
      = Nat.toDigits 10 n ++ [a.digitChar, b.digitChar, c.digitChar] := by
    rw [hsplit, toDigits_snoc _ c (by omega) hc, toDigits_snoc _ b (by omega) hb,
      toDigits_snoc n a hn ha]
    simp only [List.append_assoc, List.cons_append, List.nil_append]
  rw [thousands, thousands, hdigits, Decimals.grouped_append_three _ Nat.toDigits_ne_nil,
    String.ofList_append]

example : formatMoney (-1234567) false = "-$12,345.67" := by decide +kernel

/-- The format `02d` of a number of cents that is less than a dollar. -/
theorem twoDigits_toList (n : Nat) (hn : n < 100) :
    (twoDigits n).toList = [(n / 10).digitChar, (n % 10).digitChar] := by
  rw [twoDigits, String.toList_ofList]
  by_cases hsmall : n < 10
  · -- One digit, and the zero that pads it.
    have hten : n / 10 = 0 := by omega
    rw [Nat.toDigits_of_lt_base hsmall, hten, Nat.mod_eq_of_lt hsmall]
    rfl
  · have hsplit : n = 10 * (n / 10) + n % 10 := by omega
    rw [hsplit, toDigits_snoc _ _ (by omega) (by omega), ← hsplit,
      Nat.toDigits_of_lt_base (by omega)]
    rfl

/-- No digit and no comma is a point, so the dollars end where the first point
    stands. -/
theorem ne_point_of_mem_thousands {n : Nat} {c : Char} (hc : c ∈ (thousands n).toList) :
    c ≠ '.' := by
  rw [thousands, String.toList_ofList] at hc
  rcases Decimals.mem_grouped hc with hdigit | rfl
  · exact Decimals.isDigit_ne (Nat.isDigit_of_mem_toDigits (by decide) (by decide) hdigit)
      (by decide)
  · decide

theorem isDigit_digitChar {n : Nat} (hn : n < 10) : n.digitChar.isDigit := by
  have hmem : n.digitChar ∈ Nat.toDigits 10 n := by
    rw [Nat.toDigits_of_lt_base hn]
    exact List.mem_singleton_self _
  exact Nat.isDigit_of_mem_toDigits (by decide) (by decide) hmem

/-- Dollars and cents are read back as the magnitude they were divided from. -/
theorem parseMagnitude_formatted (n : Nat) :
    parseMagnitude ((thousands (n / 100)).toList ++ '.' :: (twoDigits (n % 100)).toList)
      = some n := by
  have hcents : n % 100 < 100 := Nat.mod_lt n (by decide)
  have hplain : ∀ c ∈ (thousands (n / 100)).toList, decide (c ≠ '.') = true := fun c hc =>
    decide_eq_true (ne_point_of_mem_thousands hc)
  have hread : Decimals.readGrouped (thousands (n / 100)).toList = some (n / 100) := by
    rw [thousands, String.toList_ofList, Decimals.readGrouped_grouped]
  have htens : (n % 100 / 10).digitChar.isDigit := isDigit_digitChar (by omega)
  have hunits : (n % 100 % 10).digitChar.isDigit := isDigit_digitChar (by omega)
  have hvalue : Nat.ofDigitChars 10 [(n % 100 / 10).digitChar, (n % 100 % 10).digitChar] 0
      = n % 100 := by
    rw [Nat.ofDigitChars_cons_digitChar_of_lt_ten (by omega),
      Nat.ofDigitChars_cons_digitChar_of_lt_ten (by omega), Nat.ofDigitChars_nil]
    omega
  rw [twoDigits_toList _ hcents, parseMagnitude, List.dropWhile_append_of_pos hplain,
    List.takeWhile_append_of_pos hplain]
  simp only [List.dropWhile_cons, List.takeWhile_cons, ne_eq, not_true_eq_false, decide_false,
    Bool.false_eq_true, if_false, List.append_nil, htens, hunits, Bool.and_self, if_true, hread,
    Option.map_some, hvalue]
  congr 1
  omega

/-- The text of an amount, as the list of its characters. -/
theorem formatMoney_toList (cents : Int) (showSign : Bool) :
    (formatMoney cents showSign).toList
      = (if cents < 0 then ['-'] else if showSign then ['+'] else []) ++
        '$' :: ((thousands (cents.natAbs / 100)).toList ++
          '.' :: (twoDigits (cents.natAbs % 100)).toList) := by
  simp only [formatMoney, String.toList_append, apply_ite String.toList, List.append_assoc]
  rfl

theorem parseMoney_formatMoney (cents : Int) (showSign : Bool) :
    parseMoney (formatMoney cents showSign) = some cents := by
  have hmagnitude := parseMagnitude_formatted cents.natAbs
  rw [parseMoney, formatMoney_toList]
  by_cases hneg : cents < 0
  · simp only [hneg, if_true, List.cons_append, List.nil_append, hmagnitude, Option.map_some]
    have habs : -(cents.natAbs : Int) = cents := by omega
    exact congrArg some habs
  · -- Written with a sign or without one, the magnitude is the amount.
    have habs : (cents.natAbs : Int) = cents := by omega
    cases showSign with
    | true =>
        simp only [hneg, if_false, if_true, List.cons_append, List.nil_append, hmagnitude,
          Option.map_some, habs]
    | false =>
        simp only [hneg, if_false, Bool.false_eq_true, List.nil_append, hmagnitude,
          Option.map_some, habs]

/-- The text of an amount decodes to that amount, with or without the sign of
    a positive one, and so two amounts never share a text. -/
theorem formatMoney_lossless :
    (∀ (cents : Int) (showSign : Bool), parseMoney (formatMoney cents showSign) = some cents) ∧
      ∀ showSign : Bool, Function.Injective fun cents => formatMoney cents showSign := by
  refine ⟨parseMoney_formatMoney, fun showSign a b h => ?_⟩
  have hparse := congrArg parseMoney h
  simp only [parseMoney_formatMoney] at hparse
  exact Option.some.inj hparse

end BankSim
