import ListQuery.Calendar.Basic
import ListQuery.Number.Digits

/-!
# Reading dates and times

The ISO 8601 spellings that are understood: calendar dates and week dates, in the basic or extended
form, and after a date any one character and then a time of day with an optional offset. Fractions
of a second are cut to microseconds. The readers are lenient where noted, and they measure a text in
octets, so a character outside ASCII counts as several.
-/

namespace ListQuery.Calendar

open ListQuery.Number (isAsciiDigit digitsValue)

/-- The text as octets: a character outside ASCII stands as often as it has octets, as a character
that no spelling uses. -/
def octets (cs : List Char) : List Char :=
  cs.flatMap fun c => if c.toNat < 0x80 then [c] else List.replicate c.utf8Size '\ufffd'

/-- The next octet; the end reads as NUL. -/
def peek (cs : List Char) : Char := cs.headD '\x00'

/-- A number of exactly `n` digits and what follows. -/
def takeDigits (n : Nat) (cs : List Char) : Option (Nat × List Char) :=
  if (cs.take n).length = n ∧ (cs.take n).all isAsciiDigit then
    some (digitsValue (cs.take n), cs.drop n)
  else none

-- ---------------------------------------------------------------------------
-- Dates
-- ---------------------------------------------------------------------------

/-- The Monday of a year's first week: the week that holds the fourth of January. Year 1 begins
with one. -/
def firstMonday? (year : Nat) : Option Date := do
  let start ← Date.ofParts? year 1 1
  if start.weekday ≤ 3 then
    if start.weekday = 0 then some start else Date.ofParts? (year - 1) 12 (32 - start.weekday)
  else Date.ofParts? year 1 (8 - start.weekday)

/-- Years that begin on a Thursday, and leap years that begin on a Wednesday, have 53 weeks. -/
def weeksIn (year : Nat) : Nat :=
  match Date.ofParts? year 1 1 with
  | some d => if d.weekday = 3 ∨ (d.weekday = 2 ∧ isLeap year) then 53 else 52
  | none   => 52

/-- The date of a week date. -/
def ofWeek? (year week day : Nat) : Option Date :=
  if 1 ≤ week ∧ week ≤ weeksIn year ∧ 1 ≤ day ∧ day ≤ 7 then
    (firstMonday? year).bind (Date.advance? ((week - 1) * 7 + (day - 1)))
  else none

/-- A date at the start of the octets. What follows a complete date is not looked at. -/
def readDateOctets (cs : List Char) : Option Date := do
  let (year, cs) ← takeDigits 4 cs
  let dashed := peek cs == '-'
  let cs := if dashed then cs.tail else cs
  if peek cs = 'W' then
    let (week, cs) ← takeDigits 2 cs.tail
    if cs = [] then ofWeek? year week 1
    else
      let cs ← if dashed then (if peek cs = '-' then some cs.tail else none) else some cs
      let (day, _) ← takeDigits 1 cs
      ofWeek? year week day
  else
    let (month, cs) ← takeDigits 2 cs
    let cs ← if dashed then (if peek cs = '-' then some cs.tail else none) else some cs
    let (day, _) ← takeDigits 2 cs
    Date.ofParts? year month day

/-- A date as a text of 7, 8 or 10 octets. -/
def readDate (s : String) : Option Date :=
  let cs := octets s.toList
  if cs.length = 7 ∨ cs.length = 8 ∨ cs.length = 10 then readDateOctets cs else none

-- ---------------------------------------------------------------------------
-- Times of day
-- ---------------------------------------------------------------------------

/-- Hour, minute, second and microsecond as they are spelled, not checked against their bounds. -/
structure Parts where
  hour   : Nat
  minute : Nat
  second : Nat
  micro  : Nat

/-- The fraction of a second: up to six digits count, more are skipped. The result says whether
anything follows. -/
def readFraction (cs : List Char) (followed : Bool) : Option (Nat × Bool) := do
  let n := min cs.length 6
  let (v, rest) ← takeDigits n cs
  let rest := rest.dropWhile isAsciiDigit
  some (v * Nat.pow 10 (6 - n), if rest = [] then followed else peek rest != '\x00')

/-- Up to three two-digit numbers, with colons or without, then perhaps a fraction. `followed` says
whether an offset follows the octets, and the result whether anything, be it an offset or a stray
octet, follows the number that was read last. -/
def readNumbers (colons followed : Bool) :
    Nat → List Nat → List Char → Option (List Nat × Nat × Bool)
  | 0,     done, cs => (readFraction cs followed).map fun (f, more) => (done, f, more)
  | n + 1, done, cs => do
    let (v, rest) ← takeDigits 2 cs
    let done := done ++ [v]
    match rest with
    | []      => some (done, 0, followed)
    | c :: cs =>
      let colons := if n = 2 then c == ':' else colons
      if cs = [] then some (done, 0, c != '\x00')
      else if colons ∧ c = ':' then readNumbers colons followed n done cs
      else if c = '.' ∨ c = ',' then
        (readFraction cs followed).map fun (f, more) => (done, f, more)
      else if colons then none
      else readNumbers colons followed n done (c :: cs)

def readParts (cs : List Char) (followed : Bool) : Option (Parts × Bool) := do
  let (ns, micro, more) ← readNumbers true followed 3 [] cs
  some (⟨ns.getD 0 0, ns.getD 1 0, ns.getD 2 0, micro⟩, more)

def isOffsetMark (c : Char) : Bool := c == '+' || c == '-' || c == 'Z'

/-- The offset that begins at its mark. Fewer than a second's worth of offset counts as none. -/
def readOffset (cs : List Char) : Option Offset :=
  if peek cs = 'Z' then (if peek cs.tail = '\x00' then some .utc else none)
  else do
    let (p, more) ← readParts cs.tail false
    let seconds := (p.hour * 60 + p.minute) * 60 + p.second
    if more then none
    else if seconds = 0 then some .utc
    else
      let micros : Int := seconds * 1000000 + p.micro
      Offset.ofMicros? (if peek cs = '-' then -micros else micros)

/-- A time of day with an optional offset, in octets. -/
def readDayTimeOctets (cs : List Char) : Option DayTime := do
  let body := cs.takeWhile (!isOffsetMark ·)
  let mark := cs.dropWhile (!isOffsetMark ·)
  let (p, more) ← readParts body (mark != [])
  let offset ← if mark = [] then (if more then none else some none) else (readOffset mark).map some
  let clock ← Clock.ofParts? p.hour p.minute p.second p.micro
  some ⟨clock, offset⟩

/-- A time of day, with or without the letter `T` before it. -/
def readDayTime (s : String) : Option DayTime :=
  let cs := octets s.toList
  readDayTimeOctets (if peek cs = 'T' then cs.tail else cs)

-- ---------------------------------------------------------------------------
-- Timestamps
-- ---------------------------------------------------------------------------

/-- How many octets the date takes up. The forms differ at the fifth and sixth octet; for the week
dates the number of digits, or what follows a hyphen, decides whether the day is there. -/
def dateLength (cs : List Char) : Option Nat :=
  let at? (i : Nat) : Char := peek (cs.drop i)
  if cs.length < 7 then none
  else if cs.length = 7 then some 7
  else if at? 4 = '-' then
    if at? 5 ≠ 'W' then some 10
    else if cs.length > 8 ∧ at? 8 = '-' then
      if cs.length = 9 then none
      else if cs.length > 10 ∧ isAsciiDigit (at? 10) then some 8 else some 10
    else some 8
  else if at? 4 = 'W' then
    let digitsEnd := 7 + ((cs.drop 7).takeWhile isAsciiDigit).length
    if digitsEnd < 9 then some digitsEnd else if digitsEnd % 2 = 0 then some 7 else some 8
  else some 8

/-- A date, optionally followed by one separating character and a time of day. -/
def readTimestamp (s : String) : Option Timestamp := do
  let cs := octets s.toList
  let n ← dateLength cs
  let date ← readDateOctets (cs.take n)
  if cs.length ≤ n then some (.ofDate date)
  else
    let time ← readDayTimeOctets (octets (s.toList.drop (n + 1)))
    some ⟨date, time.clock, time.offset⟩

end ListQuery.Calendar
