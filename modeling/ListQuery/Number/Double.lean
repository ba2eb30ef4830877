import ListQuery.Number.Digits

/-!
# Double precision numbers

The binary64 numbers with their exact value `± m · 2 ^ e`, so that rounding, reading and printing
are arithmetic on natural numbers. A finite number has one representation: the mantissa has 53 bits
unless the exponent is the least one.

* `Double.ofRatio` rounds a quotient to the nearest number, a tie to the even mantissa;
* `Double.ofScientific` rounds `c · 10 ^ k`, so it is what a decimal spelling denotes.
-/

namespace ListQuery.Number

/-- Mantissa and exponent in the form that every finite number has exactly once. -/
def Canonical (m : Nat) (e : Int) : Prop :=
  m < Nat.pow 2 53 ∧ -1074 ≤ e ∧ e ≤ 971 ∧ (Nat.pow 2 52 ≤ m ∨ e = -1074)

instance (m : Nat) (e : Int) : Decidable (Canonical m e) := by unfold Canonical; infer_instance

/-- A double precision number. -/
inductive Double where
  | nan
  | infinite (negative : Bool)
  | finite (negative : Bool) (m : Nat) (e : Int) (canonical : Canonical m e)
  deriving DecidableEq

namespace Double

def zero (negative : Bool) : Double := .finite negative 0 (-1074) (by decide)

-- ---------------------------------------------------------------------------
-- Rounding
-- ---------------------------------------------------------------------------

/-- The integer nearest to `num / den`, a tie going to the even one. -/
def nearest (num den : Nat) : Nat :=
  let q := num / den
  let r := num % den
  if 2 * r < den then q else if den < 2 * r then q + 1 else q + q % 2

/-- `num / den / 2 ^ e` as a quotient of natural numbers. -/
def scaled (num den : Nat) (e : Int) : Nat × Nat :=
  if 0 ≤ e then (num, den * Nat.pow 2 e.natAbs) else (num * Nat.pow 2 e.natAbs, den)

/-- The exponent under which the integer part of `num / den / 2 ^ e` has 53 bits, but never below
the least exponent. -/
def exponentOf (num den : Nat) : Int :=
  let e : Int := max ((Nat.log2 num : Int) - Nat.log2 den - 53) (-1074)
  let s := scaled num den e
  if Nat.pow 2 53 ≤ s.1 / s.2 then e + 1 else e

/-- The number nearest to `± num / den`; infinite beyond the largest. -/
def ofRatio (negative : Bool) (num den : Nat) : Double :=
  if num = 0 then zero negative
  else
    let e := exponentOf num den
    let s := scaled num den e
    let m := nearest s.1 s.2
    let (m, e) := if m = Nat.pow 2 53 then (Nat.pow 2 52, e + 1) else (m, e)
    if h : Canonical m e then .finite negative m e h else .infinite negative

/-- The number nearest to `± c · 10 ^ k`. Beyond 10^310 it is infinite and below 10^-330 zero, so no
power has to be computed there. -/
def ofScientific (negative : Bool) (c : Nat) (k : Int) : Double :=
  let size : Int := digitCount c + k
  if c = 0 ∨ size < -330 then zero negative
  else if 310 < size then .infinite negative
  else if 0 ≤ k then ofRatio negative (c * Nat.pow 10 k.natAbs) 1
  else ofRatio negative c (Nat.pow 10 k.natAbs)

/-- An integer rounded to the nearest number, unless that is too large to be finite. -/
def ofInt? (n : Int) : Option Double :=
  match ofRatio (decide (n < 0)) n.natAbs 1 with
  | .infinite _ => none
  | d           => some d

-- ---------------------------------------------------------------------------
-- Exact value
-- ---------------------------------------------------------------------------

/-- The magnitude `m · 2 ^ e` as a quotient. -/
def magnitude (m : Nat) (e : Int) : Nat × Nat :=
  if 0 ≤ e then (m * Nat.pow 2 e.natAbs, 1) else (m, Nat.pow 2 e.natAbs)

/-- The integer part, toward zero. -/
def truncated (negative : Bool) (m : Nat) (e : Int) : Int :=
  let r := magnitude m e
  let n : Int := (r.1 / r.2 : Nat)
  if negative then -n else n

/-- The least integer that is not below the number. -/
def ceiling (negative : Bool) (m : Nat) (e : Int) : Int :=
  let r := magnitude m e
  if negative then -((r.1 / r.2 : Nat) : Int) else (((r.1 + r.2 - 1) / r.2 : Nat) : Int)

/-- The magnitude as `c · 10 ^ k`, exactly. -/
def exactDecimal (m : Nat) (e : Int) : Nat × Int :=
  if 0 ≤ e then (m * Nat.pow 2 e.natAbs, 0) else (m * Nat.pow 5 e.natAbs, e)

end Double

end ListQuery.Number
