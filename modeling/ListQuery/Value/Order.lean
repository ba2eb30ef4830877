import ListQuery.Value.Equal

/-!
# Order of numbers

Numbers of all kinds in the order of their exact values. A double that is not a number is below
nothing and above nothing; a decimal that is not one cannot be ordered.
-/

namespace ListQuery

open Number

namespace ExactNumber

/-- One more than the exponent of the leading digit. -/
def magnitude (n : ExactNumber) : Int := digitCount n.coefficient + n.exponent

/-- Whether the absolute value of a number other than zero is less than that of another one. Only
numbers of the same magnitude have to be brought to one exponent. -/
def absBelow (a b : ExactNumber) : Bool :=
  if a.magnitude ≠ b.magnitude then decide (a.magnitude < b.magnitude)
  else
    let e := min a.exponent b.exponent
    decide (a.coefficient * Nat.pow 10 (a.exponent - e).natAbs <
      b.coefficient * Nat.pow 10 (b.exponent - e).natAbs)

def lessThan (a b : ExactNumber) : Bool :=
  if a.coefficient = 0 then !b.negative && b.coefficient != 0
  else if b.coefficient = 0 then a.negative
  else if a.negative then !b.negative || absBelow b a
  else !b.negative && absBelow a b

end ExactNumber

namespace KeyForm

/-- Whether one number is less than another. -/
def lessThan : KeyForm → KeyForm → Bool
  | .number a,   .number b   => a.lessThan b
  | .infinite a, .infinite b => a && !b
  | .infinite a, .number _   => a
  | .number _,   .infinite b => !b
  | _,           _           => false

end KeyForm

namespace Value

/-- Decimals that are not numbers. -/
def isUndefined : Value → Bool
  | .decimal (.nan ..) => true
  | _                  => false

/-- Whether one number is less than another. -/
def lessThan (v w : Value) : Except Failure Bool :=
  if !v.isNumber || !w.isNumber then .error .wrongKind
  else if v.isUndefined || w.isUndefined then .error .signalling
  else
    match v.keyForm?, w.keyForm? with
    | some a, some b => .ok (a.lessThan b)
    | _,      _      => .ok false

/-- The smaller of two numbers, the first one when neither is. -/
def smaller (v w : Value) : Except Failure Value := do if ← w.lessThan v then .ok w else .ok v

/-- The larger of two numbers, the first one when neither is. -/
def larger (v w : Value) : Except Failure Value := do if ← v.lessThan w then .ok w else .ok v

end Value

end ListQuery
