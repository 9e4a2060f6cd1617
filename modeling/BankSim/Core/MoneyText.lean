import BankSim.Library.Decimals

/-!
# Money as Text

`format_money` of `ledger.py`: exact cents as text, without floating point.

`divmod` is taken of the magnitude, so neither part of it is ever negative and
the sign is written once, in front of the dollar sign.

## Main definitions

* `thousands`: The format `,` of a whole number.
* `twoDigits`: The format `02d`.
* `formatMoney`: The text of an amount of cents.
-/

namespace BankSim

/-- The format `,`: decimal digits in groups of three. -/
def thousands (n : Nat) : String :=
  String.ofList (Decimals.grouped (Nat.toDigits 10 n))

/-- The format `02d`: decimal digits, padded with zeros to a width of two. -/
def twoDigits (n : Nat) : String :=
  String.ofList ((Nat.toDigits 10 n).leftpad 2 '0')

/-- Format exact cents without converting through floating point. -/
def formatMoney (cents : Int) (showSign : Bool) : String :=
  let sign := if cents < 0 then "-" else if showSign then "+" else ""
  let magnitude := cents.natAbs
  let dollars := magnitude / 100
  let remainder := magnitude % 100
  sign ++ "$" ++ thousands dollars ++ "." ++ twoDigits remainder

end BankSim
