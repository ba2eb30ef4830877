import ListQuery.Calendar.Basic
import ListQuery.Number.Digits

/-!
# Writing dates and times

The extended ISO 8601 form. The fraction of a second is written with six digits, and only when it is
not zero; an offset has seconds only when it needs them.
-/

namespace ListQuery.Calendar

open ListQuery.Number (padded)

def Date.chars (d : Date) : List Char :=
  padded 4 d.year ++ '-' :: padded 2 d.month ++ '-' :: padded 2 d.day

def Date.text (d : Date) : String := String.ofList d.chars

/-- `.ffffff`, or nothing for a whole second. -/
def fractionChars (micro : Nat) : List Char := if micro = 0 then [] else '.' :: padded 6 micro

def Clock.chars (c : Clock) : List Char :=
  padded 2 c.hour ++ ':' :: padded 2 c.minute ++ ':' :: padded 2 c.second ++ fractionChars c.micro

def Offset.chars (o : Offset) : List Char :=
  let n := o.micros.natAbs
  let seconds := n / 1000000
  let micro := n % 1000000
  (if o.micros < 0 then '-' else '+') :: padded 2 (seconds / 3600) ++
    ':' :: padded 2 (seconds / 60 % 60) ++
    (if seconds % 60 = 0 ∧ micro = 0 then []
      else ':' :: padded 2 (seconds % 60) ++ fractionChars micro)

def offsetChars (o : Option Offset) : List Char := (o.map Offset.chars).getD []

def DayTime.text (t : DayTime) : String := String.ofList (t.clock.chars ++ offsetChars t.offset)

/-- Date and time with `separator` between them. -/
def Timestamp.textWith (separator : Char) (t : Timestamp) : String :=
  String.ofList (t.date.chars ++ separator :: t.clock.chars ++ offsetChars t.offset)

end ListQuery.Calendar
