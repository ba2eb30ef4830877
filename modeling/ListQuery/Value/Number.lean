import ListQuery.Failure
import ListQuery.Number.Reading

/-!
# Values as numbers

The integer or double that a value of any kind stands for: truth values as 0 and 1, texts by their
spelling, fractions cut off toward zero.
-/

namespace ListQuery.Value

open Number

/-- The integer of a value. Not-a-number has none, an infinity is out of range. -/
def toInteger : Value → Except Failure Int
  | .int n                   => .ok n
  | .bool b                  => .ok (if b then 1 else 0)
  | .float (.finite s m e _) => .ok (Double.truncated s m e)
  | .float (.infinite _)     => .error .outOfRange
  | .float .nan              => .error .unreadable
  | .decimal (.finite s c e) => .ok (Decimal.truncated s c e)
  | .decimal (.infinite _)   => .error .outOfRange
  | .decimal (.nan ..)       => .error .unreadable
  | .text s                  =>
    match readInteger s with
    | some n => .ok n
    | none   => .error .unreadable
  | _                        => .error .wrongKind

/-- The double of a value. An integer beyond the finite doubles is out of range. -/
def toDouble : Value → Except Failure Double
  | .float d                 => .ok d
  | .int n                   =>
    match Double.ofInt? n with
    | some d => .ok d
    | none   => .error .outOfRange
  | .bool b                  => .ok (Double.ofScientific false (if b then 1 else 0) 0)
  | .decimal (.finite s c e) => .ok (Double.ofScientific s c e)
  | .decimal (.infinite s)   => .ok (.infinite s)
  | .decimal (.nan _ sig _)  => if sig then .error .unreadable else .ok .nan
  | .text s                  =>
    match readDouble s with
    | some d => .ok d
    | none   => .error .unreadable
  | _                        => .error .wrongKind

end ListQuery.Value
