import ListQuery.Value.Basic
import ListQuery.Number.Shortest
import ListQuery.Calendar.Printing
import ListQuery.Text.Quoted
import ListQuery.Text.Split

/-!
# The text of a value

Two spellings. `display` is the bare text: a text stands for itself, a date in ISO form. `shown` is
the form inside messages, from which the kind of the value can be seen: texts in quotes, dates and
decimals with their constructor. Lists and maps are displayed as they are shown.
-/

namespace ListQuery

open Number Calendar Text

/-- Texts separated by a comma and a blank. -/
def commaSeparated (parts : List String) : String := join ", " parts

/-- The parts of a time of day, without zeros for a whole second or minute. -/
def Calendar.Clock.shownParts (c : Clock) : List String :=
  ([c.hour, c.minute] ++ (if c.second = 0 ∧ c.micro = 0 then [] else [c.second]) ++
    (if c.micro = 0 then [] else [c.micro])).map natText

/-- A span of time by its days, seconds of a day and microseconds, without the parts that are
zero. -/
def shownSpan (micros : Int) : String :=
  let days := Int.fdiv micros dayMicros
  let rest := (Int.fmod micros dayMicros).toNat
  let parts :=
    [("days", days), ("seconds", (rest / 1000000 : Nat)),
      ("microseconds", (rest % 1000000 : Nat))]
  let written := (parts.filter fun p => p.2 ≠ 0).map fun p => p.1 ++ "=" ++ intText p.2
  "datetime.timedelta(" ++ (if written = [] then "0" else commaSeparated written) ++ ")"

def Calendar.Offset.shown (o : Offset) : String :=
  if o.micros = 0 then "datetime.timezone.utc"
  else "datetime.timezone(" ++ shownSpan o.micros ++ ")"

def shownOffset (o : Option Offset) : List String := o.toList.map fun o => "tzinfo=" ++ o.shown

def Calendar.Date.shownParts (d : Date) : List String := [d.year, d.month, d.day].map natText

namespace Value

mutual

/-- The form inside messages. -/
def shown : Value → String
  | .null        => "None"
  | .bool b      => if b then "True" else "False"
  | .int n       => intText n
  | .float d     => d.text
  | .decimal d   => "Decimal('" ++ d.text ++ "')"
  | .text s      => quoted s
  | .date d      => "datetime.date(" ++ commaSeparated d.shownParts ++ ")"
  | .time t      =>
    "datetime.time(" ++ commaSeparated (t.clock.shownParts ++ shownOffset t.offset) ++ ")"
  | .timestamp t =>
    "datetime.datetime(" ++
      commaSeparated (t.date.shownParts ++ t.clock.shownParts ++ shownOffset t.offset) ++ ")"
  | .list vs     => "[" ++ commaSeparated (shownItems vs) ++ "]"
  | .map es      => "\x7b" ++ commaSeparated (shownEntries es) ++ "\x7d"

def shownItems : List Value → List String
  | []      => []
  | v :: vs => shown v :: shownItems vs

def shownEntries : List (Value × Value) → List String
  | []           => []
  | (k, v) :: es => (shown k ++ ": " ++ shown v) :: shownEntries es

end

/-- The bare text. -/
def display : Value → String
  | .text s      => s
  | .decimal d   => d.text
  | .date d      => d.text
  | .time t      => t.text
  | .timestamp t => t.textWith ' '
  | v            => shown v

end Value

end ListQuery
