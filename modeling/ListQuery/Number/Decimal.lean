import ListQuery.Number.Digits

/-!
# Decimal numbers

Numbers with an exact decimal coefficient and exponent, as a `NUMERIC` column holds them: `1.5` and
`1.50` are different spellings of equal numbers. The special values are the infinities and the
quiet and signalling not-a-number with an optional diagnostic number.
-/

namespace ListQuery.Number

inductive Decimal where
  | finite (negative : Bool) (coefficient : Nat) (exponent : Int)
  | infinite (negative : Bool)
  | nan (negative signalling : Bool) (payload : Nat)
  deriving DecidableEq

namespace Decimal

/-- The exponent of the leading digit. -/
def adjusted (coefficient : Nat) (exponent : Int) : Int := exponent + digitCount coefficient - 1

/-- The exponents that a decimal number can have: the leading digit at most at 10^(10^18 - 1), the
last one not below the matching least place. -/
def inRange (coefficient : Nat) (exponent : Int) : Bool :=
  decide (adjusted coefficient exponent ≤ 999999999999999999) &&
    decide (-1999999999999999997 ≤ exponent)

/-- A coefficient with its exponent: positional when nothing has to be filled up on the right and
at most five zeros follow the point, otherwise scientific. -/
def magnitudeChars (coefficient : Nat) (exponent : Int) : List Char :=
  let ds := natChars coefficient
  if exponent = 0 then ds
  else if exponent < 0 ∧ -6 ≤ adjusted coefficient exponent then
    positional ds (ds.length + exponent)
  else scientific 'E' 1 ds (adjusted coefficient exponent)

def text : Decimal → String
  | .finite negative c e =>
    String.ofList (if negative then '-' :: magnitudeChars c e else magnitudeChars c e)
  | .infinite negative => if negative then "-Infinity" else "Infinity"
  | .nan negative signalling payload =>
    (if negative then "-" else "") ++ (if signalling then "sNaN" else "NaN") ++
      (if payload = 0 then "" else String.ofList (natChars payload))

/-- The integer part of a finite number, toward zero. -/
def truncated (negative : Bool) (c : Nat) (e : Int) : Int :=
  let n : Nat := if 0 ≤ e then c * Nat.pow 10 e.natAbs
    else if (digitCount c : Int) + e ≤ 0 then 0 else c / Nat.pow 10 e.natAbs
  if negative then -(n : Int) else n

end Decimal

end ListQuery.Number
