import ListQuery.Failure
import ListQuery.Schema.ColumnType
import ListQuery.Number.Reading
import ListQuery.Calendar.Reading
import ListQuery.Text.Digit

/-!
# Coercion

A raw value from a request as a value of a column's type. Null stays null, a value that has the
type already stays as it is, anything else is read from its text. `dayRange` is the span of the day
that a date without a time of day denotes on a column of timestamps.
-/

namespace ListQuery

open Text Number Calendar

/-- A reading of the trimmed text of a value. -/
def readText {α : Type} (read : String → Option α) (raw : Value) (failure : Failure) :
    Except Failure α :=
  match read (trim raw.display) with
  | some v => .ok v
  | none   => .error failure

def readBoolean (s : String) : Option Bool :=
  let s := lower s
  if s = "true" ∨ s = "1" ∨ s = "yes" then some true
  else if s = "false" ∨ s = "0" ∨ s = "no" then some false
  else none

/-- The raw value as a value of the type. -/
def coerce (t : ColumnType) (raw : Value) : Except Failure Value :=
  match raw with
  | .null => .ok .null
  | raw =>
    match t.native? with
    | some .boolean =>
      match raw with
      | .bool b => .ok (.bool b)
      | _       => (readText readBoolean raw (.notBoolean raw)).map .bool
    | some .integer =>
      match raw with
      | .bool _ => .error (.notInteger raw)
      | .int n  => .ok (.int n)
      | _       => (readText readInteger raw .unreadable).map .int
    | some .float   => (readText readDouble raw .unreadable).map .float
    | some .decimal => (readText readDecimal raw (.notNumber raw)).map .decimal
    | none =>
      match t, raw with
      | .dateTime _, .timestamp _ => .ok raw
      | .dateTime _, _            => (readText readTimestamp raw .unreadable).map .timestamp
      | .date, .timestamp _       => .ok raw
      | .date, .date _            => .ok raw
      | .date, _                  => (readText readDate raw .unreadable).map .date
      | _, _                      => .ok raw

/-- What stands in for a value that cannot be read, on the types that have such a value. -/
def zero? (t : ColumnType) : Option Value :=
  t.native?.map fun
    | .boolean => .bool false
    | .integer => .int 0
    | .float   => .float (Double.zero false)
    | .decimal => .decimal (.finite false 0 0)

/-- Four, two and two digits of any script between hyphens. -/
def isDateOnly (cs : List Char) : Bool :=
  match splitChars '-' cs with
  | [y, m, d] =>
    y.length == 4 && m.length == 2 && d.length == 2 && (y ++ m ++ d).all isDecimal
  | _         => false

/-- The first and the following midnight of the day that a value denotes on a column of the type,
if it has no time of day. -/
def dayRange (t : ColumnType) (v : Value) : Except Failure (Option (Timestamp × Timestamp)) :=
  match t with
  | .dateTime _ =>
    match v with
    | .timestamp x => if x.isMidnight then day x else .ok none
    | .date d      => day (.ofDate d)
    | .text s      =>
      if isDateOnly (trimChars s.toList) then
        match readTimestamp (trim s) with
        | some x => day x
        | none   => .error .unreadable
      else .ok none
    | _            => .ok none
  | _ => .ok none
where
  day (start : Timestamp) : Except Failure (Option (Timestamp × Timestamp)) :=
    match start.nextDay? with
    | some next => .ok (some (start, next))
    | none      => .error .outOfRange

end ListQuery
