import ListQuery.Value.Basic

/-!
# When two values are the same key

Numbers count by their exact value whatever their kind, a truth value as 0 or 1, timestamps with an
offset by their instant; not-a-number is no key's equal. Lists and maps are never keys, nor is a
signalling not-a-number.
-/

namespace ListQuery

open Number Calendar

/-- A finite number as sign, coefficient without zeros at its end, and power of ten; zero has no
sign. -/
structure ExactNumber where
  negative    : Bool
  coefficient : Nat
  exponent    : Int
  deriving DecidableEq

/-- Moves the zeros at the end of the coefficient into the exponent. At most `fuel` of them, where
the coefficient itself is always enough. -/
def stripZeros : Nat → Nat → Int → Nat × Int
  | 0,        c, e => (c, e)
  | fuel + 1, c, e => if c % 10 = 0 then stripZeros fuel (c / 10) (e + 1) else (c, e)

def ExactNumber.of (negative : Bool) (c : Nat) (e : Int) : ExactNumber :=
  if c = 0 then ⟨false, 0, 0⟩
  else
    let (c, e) := stripZeros (digitCount c) c e
    ⟨negative, c, e⟩

/-- What a value is compared by. -/
inductive KeyForm where
  | null
  | number (n : ExactNumber)
  | infinite (negative : Bool)
  | text (s : String)
  | date (d : Date)
  | time (micros : Int) (offset : Bool)
  | timestamp (instant : Int) (offset : Bool)
  deriving DecidableEq

namespace Value

/-- What the value is compared by, if it equals anything. -/
def keyForm? : Value → Option KeyForm
  | .null                          => some .null
  | .bool b                        => some (.number (.of false (if b then 1 else 0) 0))
  | .int n                         => some (.number (.of (decide (n < 0)) n.natAbs 0))
  | .float (.finite s m e _)       =>
    let (c, k) := Double.exactDecimal m e
    some (.number (.of s c k))
  | .float (.infinite s)           => some (.infinite s)
  | .float .nan                    => none
  | .decimal (.finite s c e)       => some (.number (.of s c e))
  | .decimal (.infinite s)         => some (.infinite s)
  | .decimal (.nan ..)             => none
  | .text s                        => some (.text s)
  | .date d                        => some (.date d)
  | .time t                        =>
    some (.time (t.clock.micros - (t.offset.map (·.micros)).getD 0) t.offset.isSome)
  | .timestamp t                   => some (.timestamp t.instant t.offset.isSome)
  | .list _                        => none
  | .map _                         => none

/-- Whether two values are the same key. -/
def same (v w : Value) : Bool :=
  match v.keyForm?, w.keyForm? with
  | some a, some b => decide (a = b)
  | _, _           => false

/-- Lists, maps and signalling not-a-numbers cannot stand as a key. -/
def isKey : Value → Bool
  | .list _ | .map _        => false
  | .decimal (.nan _ sig _) => !sig
  | _                       => true

end Value

end ListQuery
