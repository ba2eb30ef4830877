/-!
# Dates and times of day

The proleptic Gregorian calendar for the years 1 to 9999, times of day to the microsecond, offsets
from universal time of less than a day, and timestamps. Every value is a possible one: the bounds
stand in the types.
-/

namespace ListQuery.Calendar

def isLeap (year : Nat) : Bool := year % 4 == 0 && (year % 100 != 0 || year % 400 == 0)

/-- The number of days of a month. -/
def daysIn (year month : Nat) : Nat :=
  if month = 2 then (if isLeap year then 29 else 28)
  else if month = 4 ∨ month = 6 ∨ month = 9 ∨ month = 11 then 30 else 31

def IsDate (year month day : Nat) : Prop :=
  1 ≤ year ∧ year ≤ 9999 ∧ 1 ≤ month ∧ month ≤ 12 ∧ 1 ≤ day ∧ day ≤ daysIn year month

instance (year month day : Nat) : Decidable (IsDate year month day) := by
  unfold IsDate; infer_instance

structure Date where
  year  : Nat
  month : Nat
  day   : Nat
  valid : IsDate year month day
  deriving DecidableEq

def IsClock (hour minute second micro : Nat) : Prop :=
  hour < 24 ∧ minute < 60 ∧ second < 60 ∧ micro < 1000000

instance (hour minute second micro : Nat) : Decidable (IsClock hour minute second micro) := by
  unfold IsClock; infer_instance

/-- A time of day. -/
structure Clock where
  hour   : Nat
  minute : Nat
  second : Nat
  micro  : Nat
  valid  : IsClock hour minute second micro
  deriving DecidableEq

/-- Microseconds of a day. -/
def dayMicros : Nat := 86400000000

/-- The lead of a local time over universal time, in microseconds. -/
structure Offset where
  micros : Int
  valid  : micros.natAbs < dayMicros
  deriving DecidableEq

/-- A time of day, on its own or with the offset of its clock. -/
structure DayTime where
  clock  : Clock
  offset : Option Offset
  deriving DecidableEq

/-- A day and a time of that day. -/
structure Timestamp where
  date   : Date
  clock  : Clock
  offset : Option Offset
  deriving DecidableEq

namespace Date

def ofParts? (year month day : Nat) : Option Date :=
  if h : IsDate year month day then some ⟨year, month, day, h⟩ else none

/-- The following day; there is none after the last day of the year 9999. -/
def next? (d : Date) : Option Date :=
  if d.day < daysIn d.year d.month then ofParts? d.year d.month (d.day + 1)
  else if d.month < 12 then ofParts? d.year (d.month + 1) 1
  else ofParts? (d.year + 1) 1 1

/-- The day `n` days later. -/
def advance? : Nat → Date → Option Date
  | 0,     d => some d
  | n + 1, d => d.next?.bind (advance? n)

/-- Days before the first of January of a year, counted from the year 1. -/
def daysBeforeYear (year : Nat) : Nat :=
  let y := year - 1
  y * 365 + y / 4 - y / 100 + y / 400

/-- Days of a year before the first of a month. -/
def daysBeforeMonth (year month : Nat) : Nat :=
  (List.range (month - 1)).foldl (fun days i => days + daysIn year (i + 1)) 0

/-- The day's number, the first of January of the year 1 being day 1. -/
def ordinal (d : Date) : Nat := daysBeforeYear d.year + daysBeforeMonth d.year d.month + d.day

/-- Monday is 0. -/
def weekday (d : Date) : Nat := (d.ordinal + 6) % 7

end Date

namespace Clock

def midnight : Clock := ⟨0, 0, 0, 0, by decide⟩

def ofParts? (hour minute second micro : Nat) : Option Clock :=
  if h : IsClock hour minute second micro then some ⟨hour, minute, second, micro, h⟩ else none

/-- Microseconds since midnight. -/
def micros (c : Clock) : Nat := ((c.hour * 60 + c.minute) * 60 + c.second) * 1000000 + c.micro

end Clock

namespace Offset

def utc : Offset := ⟨0, by decide⟩

def ofMicros? (n : Int) : Option Offset := if h : n.natAbs < dayMicros then some ⟨n, h⟩ else none

end Offset

namespace Timestamp

/-- The start of a day. -/
def ofDate (d : Date) : Timestamp := ⟨d, .midnight, none⟩

/-- The same time on the following day. -/
def nextDay? (t : Timestamp) : Option Timestamp := t.date.next?.map fun d => { t with date := d }

def isMidnight (t : Timestamp) : Bool := t.clock == .midnight

/-- Microseconds since the start of the year 1, in universal time if the offset is known. -/
def instant (t : Timestamp) : Int :=
  (t.date.ordinal : Int) * dayMicros + t.clock.micros - (t.offset.map (·.micros)).getD 0

end Timestamp

end ListQuery.Calendar
