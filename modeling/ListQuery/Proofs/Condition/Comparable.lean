import Mathlib.Tactic.SplitIfs
import ListQuery.Proofs.Condition.Keyset
import ListQuery.Proofs.Schema.Coercion

/-!
# Which comparisons have a condition

Nothing and the truth values stand in no order and are like no pattern, and the last day of the
calendar ends at no midnight. A column can be compared with everything else.

* `exists_dayRange_timestamp` — the timestamps whose day has no end;
* `coerce_text`, `readsAs_of_zero?` — what a text is read as, and what may stand in for it;
* `exists_condition_iff` — conditions on a column;
* `exists_pathCondition_iff` — conditions on what stands in its documents.
-/

namespace ListQuery

open Calendar Sql

-- ---------------------------------------------------------------------------
-- The last day
-- ---------------------------------------------------------------------------

namespace Calendar

/-- The last day of the calendar. -/
def Date.last : Date := ⟨9999, 12, 31, by decide⟩

theorem one_le_daysIn (year month : Nat) : 1 ≤ daysIn year month := by
  unfold daysIn
  split_ifs <;> omega

theorem Date.next?_eq_none_iff {d : Date} : d.next? = none ↔ d = .last := by
  obtain ⟨year, month, day, valid⟩ := d
  have hvalid := valid
  simp only [IsDate] at hvalid
  obtain ⟨hyear, hyear', hmonth, hmonth', hday, hday'⟩ := hvalid
  have hdays : daysIn year 12 = 31 := rfl
  simp only [next?, last, Date.mk.injEq]
  split_ifs with hwithin hbefore
  · have hnext : IsDate year month (day + 1) := ⟨hyear, hyear', hmonth, hmonth', by omega, hwithin⟩
    simp only [ofParts?, dif_pos hnext, reduceCtorEq, false_iff]
    rintro ⟨rfl, rfl, rfl⟩
    omega
  · have hnext : IsDate year (month + 1) 1 :=
      ⟨hyear, hyear', by omega, hbefore, Nat.le_refl 1, one_le_daysIn _ _⟩
    simp only [ofParts?, dif_pos hnext, reduceCtorEq, false_iff]
    omega
  · obtain rfl : month = 12 := by omega
    by_cases hlast : year = 9999
    · subst hlast
      have hnext : ofParts? (9999 + 1) 1 1 = none := rfl
      simp only [hnext, true_iff, true_and]
      omega
    · have hnext : IsDate (year + 1) 1 1 :=
        ⟨by omega, by omega, Nat.le_refl 1, by omega, Nat.le_refl 1, one_le_daysIn _ _⟩
      simp only [ofParts?, dif_pos hnext, reduceCtorEq, false_iff]
      omega

/-- Midnight of the last day, whatever clock it is read from. -/
def Timestamp.StartsLastDay (t : Timestamp) : Prop := t.isMidnight = true ∧ t.date = .last

theorem Timestamp.nextDay?_eq_none_iff {t : Timestamp} : t.nextDay? = none ↔ t.date = .last := by
  rw [nextDay?, Option.map_eq_none_iff, Date.next?_eq_none_iff]

end Calendar

/-- A timestamp has a day, or none is asked for, unless it starts the last one. -/
theorem exists_dayRange_timestamp {zoned : Bool} {t : Timestamp} :
    (∃ r, dayRange (.dateTime zoned) (.timestamp t) = .ok r) ↔ ¬t.StartsLastDay := by
  simp only [dayRange, Timestamp.StartsLastDay]
  cases hmidnight : t.isMidnight with
  | false => simp
  | true =>
    rw [← Timestamp.nextDay?_eq_none_iff]
    cases hnext : t.nextDay? <;> simp [dayRange.day, hnext]

theorem dayRange_of_not_dateTime {t : ColumnType} (ht : ∀ zoned, t ≠ .dateTime zoned) (v : Value) :
    dayRange t v = .ok none := by
  cases t with
  | dateTime zoned => exact absurd rfl (ht zoned)
  | _ => rfl

-- ---------------------------------------------------------------------------
-- What a text is read as
-- ---------------------------------------------------------------------------

/-- What a column of the type can have for a text: a truth value, the time that the text spells, or
a value that is neither. -/
inductive ReadsAs (t : ColumnType) (s : String) : Value → Prop
  | truth (ht : t.isBoolean = true) (b : Bool) : ReadsAs t s (.bool b)
  | moment {zoned : Bool} {x : Timestamp} (ht : t = .dateTime zoned)
      (hx : readTimestamp (Text.trim s) = some x) : ReadsAs t s (.timestamp x)
  | other {v : Value} (hboolean : t.isBoolean = false) (hmoment : ∀ zoned, t ≠ .dateTime zoned)
      (hv : Keyset.IsOrdered v) : ReadsAs t s v

theorem coerce_text {t : ColumnType} {s : String} {v : Value} (h : coerce t (.text s) = .ok v) :
    ReadsAs t s v := by
  unfold coerce at h
  cases t with
  | boolean =>
    obtain ⟨b, -, rfl⟩ := map_readText_eq_ok h
    exact .truth rfl b
  | dateTime zoned =>
    obtain ⟨x, hx, rfl⟩ := map_readText_eq_ok h
    exact .moment rfl hx
  | integer | bigInteger | smallInteger | float | numericFloat | numeric | floatDecimal | date =>
    obtain ⟨a, -, rfl⟩ := map_readText_eq_ok h
    exact .other rfl (by simp) (by simp [Keyset.IsOrdered])
  | _ =>
    cases h
    exact .other rfl (by simp) (by simp [Keyset.IsOrdered])

theorem readsAs_of_zero? {t : ColumnType} {v : Value} (h : zero? t = some v) (s : String) :
    ReadsAs t s v := by
  unfold zero? at h
  cases t with
  | boolean =>
    cases h
    exact .truth rfl false
  | integer | bigInteger | smallInteger | float | numericFloat | numeric | floatDecimal =>
    cases h
    exact .other rfl (by simp) (by simp [Keyset.IsOrdered])
  | _ => cases h

theorem ReadsAs.isOrdered_iff {t : ColumnType} {s : String} {v : Value} (h : ReadsAs t s v) :
    Keyset.IsOrdered v ↔ t.isBoolean = false := by
  cases h with
  | truth ht b => simp [ht, Keyset.IsOrdered]
  | moment ht hx => simp [ht, Keyset.IsOrdered, ColumnType.isBoolean]
  | other hboolean hmoment hv => exact iff_of_true hv hboolean

-- ---------------------------------------------------------------------------
-- Conditions on a column
-- ---------------------------------------------------------------------------

/-- Operators that compare with a pattern as it is given. -/
def Operator.isLike : Operator → Bool
  | like | ilike | notLike | notIlike => true
  | _                                 => false

/-- Operators for which a date stands for its whole day. -/
def Operator.readsDay : Operator → Bool
  | eq | ne | gt | lte => true
  | _                  => false

def Operand.isList : Operand → Bool
  | multiple _ => true
  | _          => false

namespace Column

variable {c : Column} {v : Value} {op : Operator} {operand : Operand}

theorem exists_ordered_iff {cmp : Comparison} :
    (∃ p, c.ordered cmp v = .ok p) ↔ Keyset.IsOrdered v := by
  cases v <;> simp [ordered, Keyset.IsOrdered]

theorem exists_likePattern_iff {caseless negated : Bool} :
    (∃ p, c.likePattern caseless negated v = .ok p) ↔ Keyset.IsOrdered v := by
  cases v <;> simp [likePattern, Keyset.IsOrdered]

/-- What has a day of its own is a date or a time, so it is comparable. -/
theorem isOrdered_of_dayRange {span : Timestamp × Timestamp}
    (h : dayRange c.type v = .ok (some span)) : Keyset.IsOrdered v := by
  cases htype : c.type with
  | dateTime zoned =>
    rw [htype] at h
    cases v <;> simp_all [dayRange, Keyset.IsOrdered]
  | _ =>
    rw [htype] at h
    cases h

/-- What goes on in any case once it is known whether the value has a day. -/
theorem exists_onDay_iff {f : Option (Timestamp × Timestamp) → Except Failure Predicate}
    (h : ∀ r, ∃ p, f r = .ok p) :
    (∃ p, dayRange c.type v >>= f = .ok p) ↔ ∃ r, dayRange c.type v = .ok r := by
  rw [exists_bind_eq_ok]
  exact exists_congr fun r => and_iff_left (h r)

/-- What compares the value itself unless it has a day. -/
theorem exists_onDay_or_ordered_iff {cmp : Comparison}
    {f : Option (Timestamp × Timestamp) → Except Failure Predicate}
    (hnone : f none = c.ordered cmp v) (hsome : ∀ span, ∃ p, f (some span) = .ok p) :
    (∃ p, dayRange c.type v >>= f = .ok p) ↔
      Keyset.IsOrdered v ∧ ∃ r, dayRange c.type v = .ok r := by
  rw [exists_bind_eq_ok]
  constructor
  · rintro ⟨r, hday, hp⟩
    refine ⟨?_, r, hday⟩
    cases r with
    | none => exact exists_ordered_iff.mp (hnone ▸ hp)
    | some span => exact isOrdered_of_dayRange hday
  · rintro ⟨hv, r, hday⟩
    refine ⟨r, hday, ?_⟩
    cases r with
    | none => exact hnone ▸ exists_ordered_iff.mpr hv
    | some span => exact hsome span

theorem exists_equalsDay_iff :
    (∃ p, c.equalsDay v = .ok p) ↔ ∃ r, dayRange c.type v = .ok r :=
  exists_onDay_iff fun r => by cases r <;> exact ⟨_, rfl⟩

theorem exists_differsFromDay_iff :
    (∃ p, c.differsFromDay v = .ok p) ↔ ∃ r, dayRange c.type v = .ok r :=
  exists_onDay_iff fun r => by cases r <;> exact ⟨_, rfl⟩

theorem exists_above_iff :
    (∃ p, c.above v = .ok p) ↔ Keyset.IsOrdered v ∧ ∃ r, dayRange c.type v = .ok r :=
  exists_onDay_or_ordered_iff rfl fun _ => ⟨_, rfl⟩

theorem exists_upTo_iff :
    (∃ p, c.upTo v = .ok p) ↔ Keyset.IsOrdered v ∧ ∃ r, dayRange c.type v = .ok r :=
  exists_onDay_or_ordered_iff rfl fun _ => ⟨_, rfl⟩

/-- The operand is one with which the column can be compared as the operator says. -/
structure Takes (c : Column) (op : Operator) (operand : Operand) : Prop where
  comparable : op.isOrdering = true ∨ op.isLike = true → Keyset.IsOrdered operand.first
  day : op.readsDay = true → ¬(op.category = .equality ∧ operand.isList = true) →
    ∃ r, dayRange c.type operand.first = .ok r

/-- A single operand: every operator asks for what it needs, and for no more. -/
theorem exists_compareWith_iff :
    (∃ p, c.compareWith op v = .ok p) ↔
      (op.isOrdering = true ∨ op.isLike = true → Keyset.IsOrdered v) ∧
        (op.readsDay = true → ∃ r, dayRange c.type v = .ok r) := by
  cases op <;>
    simp [compareWith, Operator.isOrdering, Operator.isLike, Operator.readsDay,
      exists_ordered_iff, exists_likePattern_iff, exists_equalsDay_iff, exists_differsFromDay_iff,
      exists_above_iff, exists_upTo_iff]

theorem takes_iff_of_single (h : ¬(op.category = .equality ∧ operand.isList = true)) :
    c.Takes op operand ↔ ∃ p, c.compareWith op operand.first = .ok p := by
  rw [exists_compareWith_iff]
  constructor
  · exact fun ht => ⟨ht.comparable, fun hday => ht.day hday h⟩
  · exact fun ht => ⟨ht.1, fun hday _ => ht.2 hday⟩

/-- Operators that neither order nor compare with a pattern or a day take any operand. -/
theorem takes_of_indifferent (hordering : op.isOrdering = false) (hlike : op.isLike = false)
    (hday : op.readsDay = true → op.category = .equality ∧ operand.isList = true) :
    c.Takes op operand where
  comparable h := by simp [hordering, hlike] at h
  day h hnot := absurd (hday h) hnot

/-- There is a condition on the column if the operand can be compared with it. -/
theorem exists_condition_iff (hjson : op.category ≠ .json) :
    (∃ p, c.condition op operand = .ok p) ↔ c.Takes op operand := by
  unfold condition
  cases hcategory : op.category with
  | json => exact absurd hcategory hjson
  | equality =>
    have hop : op.isOrdering = false ∧ op.isLike = false := by
      cases op <;> simp_all [Operator.category, Operator.isOrdering, Operator.isLike]
    cases operand with
    | multiple vs =>
      exact iff_of_true ⟨_, rfl⟩ (takes_of_indifferent hop.1 hop.2 fun _ => ⟨hcategory, rfl⟩)
    | single v => exact (takes_iff_of_single (by simp [Operand.isList])).symm
    | range low high => exact (takes_iff_of_single (by simp [Operand.isList])).symm
  | set =>
    refine iff_of_true ⟨_, rfl⟩ ?_
    cases op <;> simp [Operator.category] at hcategory <;>
      exact takes_of_indifferent rfl rfl (by simp [Operator.readsDay])
  | range =>
    dsimp only
    split
    case isTrue hrange =>
      refine iff_of_true ⟨_, rfl⟩ ?_
      cases op <;> simp [Operator.takesRange] at hrange <;>
        exact takes_of_indifferent rfl rfl (by simp [Operator.readsDay])
    case isFalse hsingle => exact (takes_iff_of_single (by simp [hcategory])).symm
  | _ => exact (takes_iff_of_single (by simp [hcategory])).symm

/-- The conditions that binary documents allow. -/
theorem exists_documentCondition (hjson : op.category = .json) (hjsonb : c.type.isJsonb = true)
    (hdocument : op.takesDocument = true → ∃ d, documentOf operand.first = .ok d) :
    ∃ p, c.documentCondition op operand = .ok p := by
  cases op with
  | jsonHasKey | jsonHasAnyKey | jsonHasAllKeys => exact ⟨_, if_pos hjsonb⟩
  | jsonContains | jsonContainedBy =>
    obtain ⟨d, hd⟩ := hdocument rfl
    exact exists_bind_eq_ok.mpr ⟨d, hd, _, if_pos hjsonb⟩
  | _ => cases hjson

/-- There is a condition on what stands at a path unless a number is asked for and there is none. -/
theorem exists_pathCondition_iff {path : List String} (hworks : op.worksOnPath = true) :
    (∃ p, c.pathCondition path op operand = .ok p) ↔
      (op.isOrdering = true → ∃ d, operand.first.toDouble = .ok d) := by
  cases op <;> simp_all [pathCondition, Operator.worksOnPath, Operator.isOrdering, pathNumber,
    exists_map_eq_ok]

end Column

end ListQuery
