import ListQuery.Proofs.Calendar.Days
import ListQuery.Proofs.Condition.Comparable
import ListQuery.Proofs.Sql.Standard

/-!
# Conditions by the order of values

What the conditions on a column say of where its value stands to the operands. A text that denotes a
day is compared with its whole day by four of the operators; they differ from a comparison with the
midnight just where the value is later on that day. A list compares with the midnight.

* `DenotesDay`, `LaterThatDay` — days, and values that are later on a day than its midnight;
* `Operator.Asks`, `truth_compareWith_iff` — what the operators with a single operand ask for;
* `onDay`, `compareWith_timestamp_iff` — the conditions on a day, and when an operator makes one;
* `truth_oneOf_iff` — what a list asks for.
-/

namespace ListQuery

open Calendar Sql

/-- The values that a type reads from texts are bound as one type. -/
theorem typeFor_of_coerce_text {t : ColumnType} {a b : String} {v w : Value}
    (hv : coerce t (.text a) = .ok v) (hw : coerce t (.text b) = .ok w) :
    Bind.typeFor t v = Bind.typeFor t w := by
  unfold coerce at hv hw
  cases t with
  | boolean | integer | bigInteger | smallInteger | float | numericFloat | numeric | floatDecimal
  | dateTime | date =>
    obtain ⟨x, -, rfl⟩ := map_readText_eq_ok hv
    obtain ⟨y, -, rfl⟩ := map_readText_eq_ok hw
    rfl
  | _ =>
    cases hv
    cases hw
    rfl

/-- What is read from a text is something. -/
theorem isNull_of_coerce_text {t : ColumnType} {a : String} {v : Value}
    (h : coerce t (.text a) = .ok v) : v.isNull = false := by
  cases coerce_text h with
  | truth | moment => rfl
  | other _ _ hv => cases v <;> first | rfl | exact hv.elim

/-- Values that are read from texts are bound in a list as they are bound alone. -/
theorem binds_ofList {t : ColumnType} {as : List String} {vs : List Value}
    (h : List.Forall₂ (fun a v => coerce t (.text a) = .ok v) as vs) :
    (BindList.ofList t vs).binds = vs.map (Bind.ofValue t) := by
  cases h with
  | nil => rfl
  | @cons a v as vs hv hvs =>
    refine List.map_congr_left fun w hw => ?_
    obtain ⟨b, hb⟩ : ∃ b, coerce t (.text b) = .ok w := by
      rcases List.mem_cons.mp hw with rfl | hw
      · exact ⟨a, hv⟩
      · obtain ⟨b, -, hb⟩ := exists_of_mem_forall₂ hvs hw
        exact ⟨b, hb⟩
    exact congrArg (Sql.Bind.mk w) (typeFor_of_coerce_text hv hb)

-- ---------------------------------------------------------------------------
-- Days
-- ---------------------------------------------------------------------------

namespace Column

/-- On a column of timestamps the text is read as a midnight, which `next` follows. -/
structure DenotesDay (c : Column) (a : String) (start next : Timestamp) : Prop where
  isMoment : ∃ zoned, c.type = .dateTime zoned
  read     : coerce c.type (.text a) = .ok (.timestamp start)
  midnight : start.isMidnight = true
  next     : start.nextDay? = some next

/-- The value is on the day that the text denotes, and later than the midnight that the text is
read as. -/
def LaterThatDay (c : Column) (place : Placing) (v : Value) (a : String) : Prop :=
  ∃ start next, c.DenotesDay a start next ∧
    Comparison.gt.Meets place v (c.bind (.timestamp start)) ∧
    Comparison.lt.Meets place v (c.bind (.timestamp next))

/-- The condition of an operator on the day from one midnight to the next. -/
def onDay (c : Column) (op : Operator) (start next : Timestamp) : Predicate :=
  match op with
  | .eq  => .conj [c.moment .ge start, c.moment .lt next]
  | .ne  => .disj [c.moment .lt start, c.moment .ge next]
  | .gt  => c.moment .ge next
  | .gte => c.moment .ge start
  | .lt  => c.moment .lt start
  | _    => c.moment .lt next

/-- On a column of timestamps a value can be compared with every moment, and if it is not after one
it is before the same time on the following day. -/
structure IsTimed (c : Column) (place : Placing) (v : Value) : Prop where
  known  : (∃ zoned, c.type = .dateTime zoned) → v.isNull = false →
    ∀ t, ∃ o, place v (c.bind (.timestamp t)) = some o
  before : (∃ zoned, c.type = .dateTime zoned) → ∀ {t next : Timestamp}, t.nextDay? = some next →
    Comparison.le.Meets place v (c.bind (.timestamp t)) →
      Comparison.lt.Meets place v (c.bind (.timestamp next))

/-- Timestamps in the order of time stand in the order of days. -/
theorem isTimed_alike (c : Column) (x : Timestamp) :
    c.IsTimed (Expr.column c).placing (.timestamp x) where
  known _ _ t := ⟨_, rfl⟩
  before := by
    rintro - t next hnext ⟨o, ho, hle⟩
    obtain rfl := Option.some.inj ho
    have hday := Timestamp.instant_of_nextDay? hnext
    have hmicros : dayMicros = 86400000000 := rfl
    have hat : x.instant ≤ t.instant := Std.isLE_compare.mp hle
    exact ⟨.lt, congrArg some (Std.compare_eq_lt.mpr (by omega)), rfl⟩

variable {c : Column} {a : String} {v : Value}

theorem dayRange_eq_some_iff (h : coerce c.type (.text a) = .ok v)
    {r : Option (Timestamp × Timestamp)} (hr : dayRange c.type v = .ok r)
    (start next : Timestamp) : r = some (start, next) ↔ c.DenotesDay a start next := by
  by_cases hmoment : ∃ zoned, c.type = .dateTime zoned
  · obtain ⟨zoned, htype⟩ := hmoment
    have hread := h
    rw [htype] at hr h
    cases coerce_text h with
    | truth ht => cases ht
    | other _ hnot => exact absurd rfl (hnot zoned)
    | @moment _ x ht hx =>
      simp only [dayRange] at hr
      split at hr
      case isTrue hmidnight =>
        unfold dayRange.day at hr
        split at hr
        case h_2 => cases hr
        case h_1 y hy =>
          obtain rfl := Except.ok.inj hr
          constructor
          · intro heq
            obtain ⟨rfl, rfl⟩ := Prod.mk.inj (Option.some.inj heq)
            exact ⟨⟨zoned, htype⟩, hread, hmidnight, hy⟩
          · intro hday
            obtain rfl := Value.timestamp.inj (Except.ok.inj (hread.symm.trans hday.read))
            rw [Option.some.inj (hy.symm.trans hday.next)]
      case isFalse hmidnight =>
        obtain rfl := Except.ok.inj hr
        refine iff_of_false (by simp) fun hday => hmidnight ?_
        obtain rfl := Value.timestamp.inj (Except.ok.inj (hread.symm.trans hday.read))
        exact hday.midnight
  · rw [dayRange_of_not_dateTime fun zoned ht => hmoment ⟨zoned, ht⟩] at hr
    obtain rfl := Except.ok.inj hr
    exact iff_of_false (by simp) fun hday => hmoment hday.isMoment

-- ---------------------------------------------------------------------------
-- Single operands
-- ---------------------------------------------------------------------------

end Column

/-- What an operator with a single operand asks of a value, by how it stands to the operand and
whether it is later on the day that the operand denotes. -/
def Operator.Asks (op : Operator) (meets : Comparison → Prop) (later : Prop) : Prop :=
  match op with
  | .eq  => meets .eq ∨ later
  | .ne  => meets .ne ∧ ¬later
  | .gt  => meets .gt ∧ ¬later
  | .gte => meets .ge
  | .lt  => meets .lt
  | .lte => meets .le ∨ later
  | _    => False

/-- Operators that compare with a single operand. -/
def Operator.isComparison (op : Operator) : Bool := op.isOrdering || op == .eq || op == .ne

/-- The comparison that an operator makes with its single operand. -/
def Operator.comparison? : Operator → Option Comparison
  | .eq  => some .eq
  | .ne  => some .ne
  | .gt  => some .gt
  | .gte => some .ge
  | .lt  => some .lt
  | .lte => some .le
  | _    => none

theorem Operator.isComparison_of_comparison? {op : Operator} {cmp : Comparison}
    (h : op.comparison? = some cmp) : op.isComparison = true := by
  cases op <;> first | rfl | cases h

theorem Operator.exists_comparison? {op : Operator} (h : op.isComparison = true) :
    ∃ cmp, op.comparison? = some cmp := by
  cases op <;> first | exact ⟨_, rfl⟩ | cases h

namespace Column

variable {c : Column} {a : String} {v : Value} {j : Judge} {place : Placing} {s : Scene}

/-- A truth value is bound as one on every column. -/
theorem bind_bool (c : Column) (b : Bool) : c.bind (.bool b) = ⟨.bool b, .boolean⟩ := by
  simp only [bind, Bind.ofValue, Bind.typeFor, ownType?]
  cases c.type <;> rfl

section
variable (hj : j.IsStandard (.column c) place)

include hj

theorem truth_equals_iff (hv : v.isNull = false) (negated : Bool) :
    truth j s (c.equals negated v) = .holds ↔
      (if negated then Comparison.ne else .eq).Meets place (s.at c) (c.bind v) := by
  cases v with
  | null => cases hv
  | bool b =>
    rw [bind_bool]
    exact hj.truth_isTruth_iff negated
  | _ => exact hj.truth_compare_iff

end

/-- Without a day there is nothing later on it. -/
theorem not_laterThatDay (hread : coerce c.type (.text a) = .ok v)
    (hr : dayRange c.type v = .ok none) {w : Value} : ¬c.LaterThatDay place w a := by
  rintro ⟨start, next, hday, -⟩
  cases (dayRange_eq_some_iff hread hr start next).mpr hday

theorem laterThatDay_iff {start next : Timestamp} (hday : c.DenotesDay a start next) {w : Value} :
    c.LaterThatDay place w a ↔ Comparison.gt.Meets place w (c.bind (.timestamp start)) ∧
      Comparison.lt.Meets place w (c.bind (.timestamp next)) := by
  constructor
  · rintro ⟨start', next', hday', hlater⟩
    obtain rfl := Value.timestamp.inj (Except.ok.inj (hday.read.symm.trans hday'.read))
    rwa [Option.some.inj (hday.next.symm.trans hday'.next)]
  · exact fun hlater => ⟨start, next, hday, hlater⟩

/-- What is later that day is greater than what the text is read as. -/
theorem LaterThatDay.meets_gt {w : Value} (h : c.LaterThatDay place w a)
    (hread : coerce c.type (.text a) = .ok v) : Comparison.gt.Meets place w (c.bind v) := by
  obtain ⟨start, next, hday, hgt, -⟩ := h
  rwa [Except.ok.inj (hread.symm.trans hday.read)]

/-- Where a value stands, by what the operators ask for that take a day as a whole. -/
theorem meets_iff_asks (place : Placing) (hread : coerce c.type (.text a) = .ok v) (w : Value) :
    let meets (cmp : Comparison) := cmp.Meets place w (c.bind v)
    let later := c.LaterThatDay place w a
    (meets .eq ↔ Operator.eq.Asks meets later ∧ ¬later) ∧
    (meets .ne ↔ Operator.ne.Asks meets later ∨ later) ∧
    (meets .le ↔ Operator.lte.Asks meets later ∧ ¬later) ∧
    (meets .gt ↔ Operator.gt.Asks meets later ∨ later) := by
  intro meets later
  have hgt : later → meets .gt := fun hlater => hlater.meets_gt hread
  have hne : later → meets .ne := fun hlater => (meets_gt_iff.mp (hgt hlater)).2
  have heq : later → ¬meets .eq := fun hlater => not_meets_opposite (hne hlater)
  have hle : later → ¬meets .le := fun hlater => not_meets_opposite (hgt hlater)
  unfold Operator.Asks
  by_cases hlater : later
  · simp [hlater, heq hlater, hne hlater, hle hlater, hgt hlater]
  · simp [hlater]

/-- A condition that depends on the day of the operand, with a day and without one. -/
theorem truth_dayRange_iff (hread : coerce c.type (.text a) = .ok v)
    {f : Option (Timestamp × Timestamp) → Except Failure Predicate} {P : Prop → Prop}
    (hnone : ∀ {p}, f none = .ok p → (truth j s p = .holds ↔ P False))
    (hsome : ∀ {start next p}, c.DenotesDay a start next → v = .timestamp start →
      f (some (start, next)) = .ok p →
        (truth j s p = .holds ↔ P (c.LaterThatDay place (s.at c) a)))
    {p : Predicate} (hp : dayRange c.type v >>= f = .ok p) :
    truth j s p = .holds ↔ P (c.LaterThatDay place (s.at c) a) := by
  obtain ⟨r, hr, hp⟩ := bind_eq_ok.mp hp
  cases r with
  | none =>
    rw [eq_false (not_laterThatDay hread hr)]
    exact hnone hp
  | some span =>
    obtain ⟨start, next⟩ := span
    have hday := (dayRange_eq_some_iff hread hr start next).mp rfl
    exact hsome hday (Except.ok.inj (hread.symm.trans hday.read)) hp

/-- A timestamp is compared as it is, but a midnight stands for its day where the operator reads
days. -/
theorem compareWith_timestamp_iff {zoned : Bool} (hmoment : c.type = .dateTime zoned)
    {op : Operator} {cmp : Comparison} (hop : op.comparison? = some cmp) (t : Timestamp)
    (p : Predicate) :
    c.compareWith op (.timestamp t) = .ok p ↔
      if t.isMidnight = true ∧ op.readsDay = true then
        ∃ next, t.nextDay? = some next ∧ c.onDay op t next = p
      else c.moment cmp t = p := by
  have hday : dayRange c.type (.timestamp t) =
      if t.isMidnight then dayRange.day t else .ok none := by rw [hmoment, dayRange]
  have hspan {f : Option (Timestamp × Timestamp) → Except Failure Predicate} :
      dayRange c.type (.timestamp t) >>= f = .ok p ↔
        if t.isMidnight = true then ∃ next, t.nextDay? = some next ∧ f (some (t, next)) = .ok p
        else f none = .ok p := by
    rw [hday]
    cases t.isMidnight with
    | false => rfl
    | true => cases hnext : t.nextDay? <;> simp [dayRange.day, hnext, bind_eq_ok]
  cases op with
  | gte | lt =>
    obtain rfl := Option.some.inj hop
    simp [Operator.readsDay, compareWith, ordered, moment]
  | eq | ne | gt | lte =>
    obtain rfl := Option.some.inj hop
    simp only [Operator.readsDay, and_true]
    refine hspan.trans ?_
    cases t.isMidnight <;> simp [onDay, ordered, equals, moment]
  | _ => cases hop

section
variable (hj : j.IsStandard (.column c) place) (htimed : c.IsTimed place (s.at c))

include hj htimed

/-- On a day is what is equal to its midnight or later that day; after the day is what is after its
midnight and not later that day. -/
theorem truth_onDay_iff {start next : Timestamp} (hmoment : ∃ zoned, c.type = .dateTime zoned)
    (hnext : start.nextDay? = some next) {op : Operator} (hop : op.isComparison = true) :
    truth j s (c.onDay op start next) = .holds ↔
      op.Asks (fun cmp => cmp.Meets place (s.at c) (c.bind (.timestamp start)))
        (Comparison.gt.Meets place (s.at c) (c.bind (.timestamp start)) ∧
          Comparison.lt.Meets place (s.at c) (c.bind (.timestamp next))) := by
  have htruth {cmp t} : truth j s (c.moment cmp t) = .holds ↔
      cmp.Meets place (s.at c) (c.bind (.timestamp t)) := hj.truth_compare_iff
  cases hnull : (s.at c).isNull with
  | true =>
    have hnone (cmp : Comparison) (b : Bind) : ¬cmp.Meets place (s.at c) b := by
      simp [Comparison.Meets, hj.missing _ hnull]
    cases op with
    | eq | ne | gt | gte | lt | lte =>
      simp [onDay, Operator.Asks, truth_conj_pair, truth_disj_pair, htruth, hnone]
    | _ => cases hop
  | false =>
    obtain ⟨o, ho⟩ := htimed.known hmoment hnull start
    obtain ⟨o', ho'⟩ := htimed.known hmoment hnull next
    have hmeets (cmp : Comparison) :
        cmp.Meets place (s.at c) (c.bind (.timestamp start)) ↔ cmp.agrees o = true := by
      simp [Comparison.Meets, ho]
    have hmeets' (cmp : Comparison) :
        cmp.Meets place (s.at c) (c.bind (.timestamp next)) ↔ cmp.agrees o' = true := by
      simp [Comparison.Meets, ho']
    have hlt : Comparison.le.agrees o = true → Comparison.lt.agrees o' = true := fun hle =>
      (hmeets' .lt).mp (htimed.before hmoment hnext ((hmeets .le).mpr hle))
    cases op with
    | gte | lt => simp only [onDay, Operator.Asks, htruth]
    | eq | ne | gt | lte =>
      simp only [onDay, Operator.Asks, truth_conj_pair, truth_disj_pair, htruth, hmeets, hmeets']
      clear * - hlt
      revert hlt
      cases o <;> cases o' <;> decide
    | _ => cases hop

variable (hread : coerce c.type (.text a) = .ok v)

include hread

/-- What a single operand asks of a value. -/
theorem truth_compareWith_iff {op : Operator} (hop : op.isComparison = true) {p : Predicate}
    (hp : c.compareWith op v = .ok p) :
    truth j s p = .holds ↔
      op.Asks (fun cmp => cmp.Meets place (s.at c) (c.bind v))
        (c.LaterThatDay place (s.at c) a) := by
  have hvalue := isNull_of_coerce_text hread
  have hordered {cmp p} (hp : c.ordered cmp v = .ok p) :
      truth j s p = .holds ↔ cmp.Meets place (s.at c) (c.bind v) := by
    unfold ordered at hp
    split at hp
    case h_1 | h_2 => cases hp
    case h_3 =>
      obtain rfl := Except.ok.inj hp
      exact hj.truth_compare_iff
  have hday {start next} (hd : c.DenotesDay a start next) (op) (hop : op.isComparison = true) :
      truth j s (c.onDay op start next) = .holds ↔
        op.Asks (fun cmp => cmp.Meets place (s.at c) (c.bind (.timestamp start)))
          (c.LaterThatDay place (s.at c) a) := by
    rw [laterThatDay_iff hd, truth_onDay_iff hj htimed hd.isMoment hd.next hop]
  cases op with
  | gte => exact hordered hp
  | lt => exact hordered hp
  | eq =>
    refine truth_dayRange_iff (P := fun later => _ ∨ later) hread ?_ ?_ hp
    · rintro p ⟨⟩
      rw [or_false]
      exact truth_equals_iff hj hvalue false
    · rintro start next p hd rfl ⟨⟩
      exact hday hd .eq rfl
  | ne =>
    refine truth_dayRange_iff (P := fun later => _ ∧ ¬later) hread ?_ ?_ hp
    · rintro p ⟨⟩
      rw [not_false_eq_true, and_true]
      exact truth_equals_iff hj hvalue true
    · rintro start next p hd rfl ⟨⟩
      exact hday hd .ne rfl
  | gt =>
    refine truth_dayRange_iff (P := fun later => _ ∧ ¬later) hread ?_ ?_ hp
    · intro p hp
      rw [not_false_eq_true, and_true]
      exact hordered hp
    · rintro start next p hd rfl ⟨⟩
      exact hday hd .gt rfl
  | lte =>
    refine truth_dayRange_iff (P := fun later => _ ∨ later) hread ?_ ?_ hp
    · intro p hp
      rw [or_false]
      exact hordered hp
    · rintro start next p hd rfl ⟨⟩
      exact hday hd .lte rfl
  | _ => cases hop

end

-- ---------------------------------------------------------------------------
-- Lists
-- ---------------------------------------------------------------------------

/-- What a list asks of a value, and what its negation does. -/
theorem truth_oneOf_iff (hj : j.IsStandard (.column c) place) {as : List String} {vs : List Value}
    (hread : List.Forall₂ (fun a v => coerce c.type (.text a) = .ok v) as vs) :
    (truth j s (c.oneOf false vs) = .holds ↔
      ∃ v ∈ vs, Comparison.eq.Meets place (s.at c) (c.bind v)) ∧
    (truth j s (c.oneOf true vs) = .holds ↔
      ∀ v ∈ vs, Comparison.ne.Meets place (s.at c) (c.bind v)) := by
  have hbinds := binds_ofList hread
  cases vs with
  | nil =>
    rw [oneOf, oneOf, truth, truth]
    exact ⟨by simp [Truth.ofBool_eq_holds], by simp [Truth.ofBool_eq_holds]⟩
  | cons v vs =>
    obtain ⟨hmember, hnot⟩ := hj.truth_member_iff (s := s) (.ofList c.type (v :: vs))
    rw [hbinds] at hmember hnot
    refine ⟨hmember.trans ?_, hnot.trans List.forall_mem_map⟩
    simp only [List.mem_map, exists_exists_and_eq_and]
    exact Iff.rfl

end Column

end ListQuery
