import ListQuery.Calendar.Basic

/-!
# Days one after the other

The number of the day that follows is one more, also over the end of a month or of a year. So the
same time on the following day is a whole day later, in local time and in universal time. No two days
have the same number, so in local time a timestamp is on a day if it is not before its midnight and
less than a day after it.

* `Date.ordinal_of_next?` — the number of the following day;
* `Timestamp.instant_of_nextDay?` — the same time on it;
* `Date.ordinal_injective` — the number tells the day;
* `Timestamp.instant_lt_ofDate_iff`, `Timestamp.ofDate_le_instant_iff` — before and after a midnight.
-/

namespace ListQuery.Calendar

namespace Date

theorem daysBeforeMonth_succ (year : Nat) {month : Nat} (h : 1 ≤ month) :
    daysBeforeMonth year (month + 1) = daysBeforeMonth year month + daysIn year month := by
  obtain ⟨before, rfl⟩ := Nat.exists_eq_add_of_le' h
  simp [daysBeforeMonth, List.range_succ]

theorem daysBeforeMonth_december (year : Nat) :
    daysBeforeMonth year 12 = 334 + if isLeap year then 1 else 0 := by
  have hmonths : List.range 11 = [0, 1, 2, 3, 4, 5, 6, 7, 8, 9, 10] := rfl
  unfold daysBeforeMonth daysIn
  rw [hmonths]
  cases isLeap year <;> rfl

/-- A year has 365 days, and a leap year one more. -/
theorem daysBeforeYear_succ {year : Nat} (h : 1 ≤ year) :
    daysBeforeYear (year + 1) = daysBeforeYear year + 365 + if isLeap year then 1 else 0 := by
  obtain ⟨before, rfl⟩ := Nat.exists_eq_add_of_le' h
  have hstep (k : Nat) : (before + 1) / k = before / k + if (before + 1) % k = 0 then 1 else 0 := by
    simp [Nat.succ_div, Nat.dvd_iff_mod_eq_zero]
  have hcentury : before / 100 ≤ before * 365 + before / 4 := by omega
  unfold daysBeforeYear isLeap
  simp only [Nat.add_sub_cancel, hstep]
  -- every fourth year, but of the hundredth ones only every fourth
  by_cases h4 : (before + 1) % 4 = 0
  · by_cases h100 : (before + 1) % 100 = 0
    · by_cases h400 : (before + 1) % 400 = 0
      · simp [h4, h100, h400]
        omega
      · simp [h4, h100, h400]
        omega
    · have h400 : (before + 1) % 400 ≠ 0 := by omega
      simp [h4, h100, h400]
      omega
  · have h100 : (before + 1) % 100 ≠ 0 := by omega
    have h400 : (before + 1) % 400 ≠ 0 := by omega
    simp [h4, h100, h400]
    omega

/-- The number of the following day. -/
theorem ordinal_of_next? {d next : Date} (h : d.next? = some next) :
    next.ordinal = d.ordinal + 1 := by
  obtain ⟨year, month, day, valid⟩ := d
  have hvalid := valid
  obtain ⟨hyear, -, hmonth, hmonth', -, hday'⟩ := hvalid
  have hparts : ∀ {y m n : Nat}, ofParts? y m n = some next →
      next.year = y ∧ next.month = m ∧ next.day = n := by
    intro y m n hnext
    obtain ⟨_, hnext⟩ := Option.dite_none_right_eq_some.mp hnext
    obtain rfl := Option.some.inj hnext
    exact ⟨rfl, rfl, rfl⟩
  unfold next? at h
  dsimp only at h hday'
  unfold ordinal
  split at h
  case isTrue hwithin =>
    obtain ⟨hy, hm, hd⟩ := hparts h
    rw [hy, hm, hd]
    rfl
  case isFalse hlast =>
    obtain rfl : day = daysIn year month := by omega
    split at h
    case isTrue hbefore =>
      obtain ⟨hy, hm, hd⟩ := hparts h
      rw [hy, hm, hd]
      dsimp only
      rw [daysBeforeMonth_succ year hmonth]
      omega
    case isFalse hdecember =>
      obtain rfl : month = 12 := by omega
      obtain ⟨hy, hm, hd⟩ := hparts h
      have hfirst : daysBeforeMonth (year + 1) 1 = 0 := rfl
      have hdays : daysIn year 12 = 31 := rfl
      rw [hy, hm, hd]
      dsimp only
      rw [daysBeforeYear_succ hyear, hfirst, daysBeforeMonth_december, hdays]
      omega

-- ---------------------------------------------------------------------------
-- The number tells the day
-- ---------------------------------------------------------------------------

theorem daysBeforeYear_mono {year later : Nat} (hyear : 1 ≤ year) (h : year ≤ later) :
    daysBeforeYear year ≤ daysBeforeYear later := by
  induction h with
  | refl => exact Nat.le_refl _
  | step h ih =>
    rw [daysBeforeYear_succ (Nat.le_trans hyear h)]
    omega

theorem daysBeforeMonth_mono (year : Nat) {month later : Nat} (hmonth : 1 ≤ month)
    (h : month ≤ later) : daysBeforeMonth year month ≤ daysBeforeMonth year later := by
  induction h with
  | refl => exact Nat.le_refl _
  | step h ih =>
    rw [daysBeforeMonth_succ year (Nat.le_trans hmonth h)]
    omega

/-- The days of a month come before those of a later month of the year. -/
theorem dayOfYear_le (d : Date) {later : Nat} (h : d.month < later) :
    daysBeforeMonth d.year d.month + d.day ≤ daysBeforeMonth d.year later := by
  obtain ⟨-, -, hmonth, -, -, hday⟩ := d.valid
  have hnext := daysBeforeMonth_succ d.year hmonth
  have hlater : daysBeforeMonth d.year (d.month + 1) ≤ daysBeforeMonth d.year later :=
    daysBeforeMonth_mono d.year (Nat.succ_pos d.month) h
  omega

/-- The days of a year come before those of a later year. -/
theorem ordinal_le (d : Date) {later : Nat} (h : d.year < later) :
    d.ordinal ≤ daysBeforeYear later := by
  obtain ⟨hyear, -, -, hmonth, -, -⟩ := d.valid
  have hwithin : daysBeforeMonth d.year d.month + d.day ≤ daysBeforeMonth d.year 13 :=
    d.dayOfYear_le (Nat.lt_succ_of_le hmonth)
  have hmonths : daysBeforeMonth d.year 13 = 365 + if isLeap d.year then 1 else 0 := by
    have hdays : daysIn d.year 12 = 31 := rfl
    rw [daysBeforeMonth_succ d.year (by decide : 1 ≤ 12), daysBeforeMonth_december, hdays]
    omega
  have hnext := daysBeforeYear_succ hyear
  have hlater : daysBeforeYear (d.year + 1) ≤ daysBeforeYear later :=
    daysBeforeYear_mono (Nat.succ_pos d.year) h
  rw [ordinal]
  omega

theorem year_le_of_ordinal_eq {d d' : Date} (h : d.ordinal = d'.ordinal) : d.year ≤ d'.year := by
  refine Nat.le_of_not_lt fun hlater => ?_
  have hle := d'.ordinal_le hlater
  have hday := d.valid.2.2.2.2.1
  rw [← h, ordinal] at hle
  omega

/-- No two days have the same number. -/
theorem ordinal_injective {d d' : Date} (h : d.ordinal = d'.ordinal) : d = d' := by
  have hyear : d.year = d'.year :=
    Nat.le_antisymm (year_le_of_ordinal_eq h) (year_le_of_ordinal_eq h.symm)
  have hofYear : daysBeforeMonth d.year d.month + d.day =
      daysBeforeMonth d.year d'.month + d'.day := by
    simp only [ordinal, ← hyear] at h
    omega
  have hday := d.valid.2.2.2.2.1
  have hday' := d'.valid.2.2.2.2.1
  have hmonth : d.month = d'.month := by
    rcases Nat.lt_trichotomy d.month d'.month with hlt | heq | hgt
    · have hle := d.dayOfYear_le hlt
      omega
    · exact heq
    · have hle := d'.dayOfYear_le hgt
      rw [← hyear] at hle
      omega
  obtain ⟨year, month, day, valid⟩ := d
  obtain ⟨year', month', day', valid'⟩ := d'
  obtain rfl : year = year' := hyear
  obtain rfl : month = month' := hmonth
  obtain rfl : day = day' := Nat.add_left_cancel hofYear
  rfl

end Date

/-- The same time on the following day is a day later. -/
theorem Timestamp.instant_of_nextDay? {t next : Timestamp} (h : t.nextDay? = some next) :
    next.instant = t.instant + dayMicros := by
  obtain ⟨d, hd, rfl⟩ := Option.map_eq_some_iff.mp h
  unfold instant
  dsimp only
  rw [Date.ordinal_of_next? hd, Int.natCast_succ, Int.add_mul, Int.one_mul]
  omega

-- ---------------------------------------------------------------------------
-- Local times of a day
-- ---------------------------------------------------------------------------

theorem Clock.micros_lt (c : Clock) : c.micros < dayMicros := by
  obtain ⟨hhour, hminute, hsecond, hmicro⟩ := c.valid
  rw [micros, dayMicros]
  omega

namespace Timestamp

theorem instant_ofDate (d : Date) : (ofDate d).instant = d.ordinal * dayMicros := by
  have hmidnight : Clock.midnight.micros = 0 := rfl
  rw [instant, ofDate, hmidnight]
  exact (Int.sub_zero _).trans (Int.add_zero _)

variable {t : Timestamp} (hlocal : t.offset = none) (d : Date)

include hlocal

/-- A local time is before a midnight if its day is an earlier one. -/
theorem instant_lt_ofDate_iff : t.instant < (ofDate d).instant ↔ t.date.ordinal < d.ordinal := by
  have hclock := t.clock.micros_lt
  rw [instant_ofDate, instant, hlocal]
  rw [dayMicros] at hclock ⊢
  simp only [Option.map_none, Option.getD_none]
  omega

/-- A local time is not before a midnight if its day is the same or a later one. -/
theorem ofDate_le_instant_iff : (ofDate d).instant ≤ t.instant ↔ d.ordinal ≤ t.date.ordinal := by
  rw [← Int.not_lt, instant_lt_ofDate_iff hlocal d, Nat.not_lt]

end Timestamp

end ListQuery.Calendar
