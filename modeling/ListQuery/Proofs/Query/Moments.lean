import ListQuery.Proofs.Calendar.Text
import ListQuery.Proofs.Query.Bounds
import ListQuery.Proofs.Calendar.Days

/-!
# Days and moments as operands

On a column of timestamps an operand is a date, which stands for its whole day, or a moment, which
stands for itself. Both are timestamps once they are read, and then a midnight is taken for its date
however it was spelled. So a moment is compared as it is unless it is a midnight and the operator is
one for which a date is more than a midnight.

* `Value.IsDay`, `Value.IsMoment` — the two kinds of operands, of which every readable text is one;
* `IsColumn.places_moment_iff` — the condition for a timestamp that was read;
* `compared_asSpelled` — when the condition compares with the moment itself, and which rows differ.
-/

namespace ListQuery

open Calendar Sql

-- ---------------------------------------------------------------------------
-- Operands
-- ---------------------------------------------------------------------------

/-- The operand is a date, or a text that ends with one. -/
inductive Value.IsDay : Value → Date → Prop
  | date (d : Date) : IsDay (.date d) d
  | text {s : String} {d : Date} (h : SpellsDay (Text.trim s) d) : IsDay (.text s) d

/-- The operand is a timestamp, or a text with a time of day. -/
inductive Value.IsMoment : Value → Timestamp → Prop
  | timestamp (t : Timestamp) : IsMoment (.timestamp t) t
  | text {s : String} {t : Timestamp} (h : SpellsTime (Text.trim s) t) : IsMoment (.text s) t

/-- What is read as a timestamp, from the text of the operand. -/
theorem readText_timestamp {raw : Value} {s : String} {t : Timestamp} (hdisplay : raw.display = s)
    (h : readTimestamp (Text.trim s) = some t) :
    (readText readTimestamp raw .unreadable).map Value.timestamp = .ok (.timestamp t) := by
  rw [readText, hdisplay, h]
  rfl

theorem Value.IsDay.coerce_eq {zoned : Bool} {raw : Value} {d : Date} (h : raw.IsDay d) :
    coerce (.dateTime zoned) raw = .ok (.timestamp (.ofDate d)) := by
  cases h with
  | @text s _ h =>
    show (readText readTimestamp (.text s) .unreadable).map Value.timestamp = _
    exact readText_timestamp rfl h.read
  | date =>
    have hread : readTimestamp (Text.trim d.text) = some (.ofDate d) := by
      rw [d.trim_text]
      exact (spellsDay_text d).read
    show (readText readTimestamp (.date d) .unreadable).map Value.timestamp = _
    exact readText_timestamp rfl hread

theorem Value.IsMoment.coerce_eq {zoned : Bool} {raw : Value} {t : Timestamp}
    (h : raw.IsMoment t) : coerce (.dateTime zoned) raw = .ok (.timestamp t) := by
  cases h with
  | timestamp => rfl
  | @text s _ h =>
    show (readText readTimestamp (.text s) .unreadable).map Value.timestamp = _
    exact readText_timestamp rfl h.read

/-- No operand is a day and a moment. -/
theorem Value.IsMoment.not_isDay {raw : Value} {t : Timestamp} {d : Date} (h : raw.IsMoment t) :
    ¬raw.IsDay d := by
  cases h with
  | timestamp => exact nofun
  | text ht =>
    rintro (- | hd)
    exact ht.not_spellsDay hd

/-- Every text that a column of timestamps reads is a day or a moment. -/
theorem Column.Reads.isDay_or_isMoment {c : Column} {zoned : Bool} {a : String} (h : c.Reads a)
    (hmoment : c.type = .dateTime zoned) :
    (∃ d, (Value.text a).IsDay d) ∨ ∃ t, (Value.text a).IsMoment t := by
  obtain ⟨v, hv⟩ := h
  rw [hmoment] at hv
  cases coerce_text hv with
  | truth ht => cases ht
  | other _ hnot => exact absurd rfl (hnot zoned)
  | @moment _ t _ ht =>
    rcases readTimestamp_eq_some_iff.mp ht with ⟨d, hd, -⟩ | ht
    · exact .inl ⟨d, .text hd⟩
    · exact .inr ⟨t, .text ht⟩

-- ---------------------------------------------------------------------------
-- Conditions
-- ---------------------------------------------------------------------------

theorem Calendar.Timestamp.isMidnight_ofDate (d : Date) : (ofDate d).isMidnight = true := rfl

theorem Calendar.Timestamp.nextDay?_ofDate (d : Date) :
    (ofDate d).nextDay? = d.next?.map ofDate := rfl

/-- Operators that read days make of the day another condition than of its midnight. -/
theorem Column.onDay_ne_moment {c : Column} {op : Operator} {cmp : Comparison}
    (hop : op.comparison? = some cmp) (hday : op.readsDay = true) (start next : Timestamp) :
    c.onDay op start next ≠ c.moment cmp start := by
  cases op with
  | eq | ne | gt | lte =>
    obtain rfl := Option.some.inj hop
    simp [onDay, moment, Predicate.conj, Predicate.disj, Predicate.conjuncts, Predicate.disjuncts]
  | _ => cases hday

/-- Operators that read days ask for something else than their comparison just where a value is
later on the day of the operand. -/
theorem Operator.asks_iff_meets {op : Operator} {cmp : Comparison}
    (hop : op.comparison? = some cmp) (hday : op.readsDay = true) {place : Placing} {v : Value}
    {b : Bind} {later : Prop} (hlater : later → Comparison.gt.Meets place v b) :
    (op.Asks (fun cmp => cmp.Meets place v b) later ↔ cmp.Meets place v b) ↔ ¬later := by
  by_cases h : later
  · have hgt := hlater h
    have hne : Comparison.ne.Meets place v b := (meets_gt_iff.mp hgt).2
    have heq : ¬Comparison.eq.Meets place v b := not_meets_opposite hne
    have hle : ¬Comparison.le.Meets place v b := not_meets_opposite hgt
    cases op with
    | eq | ne | gt | lte =>
      obtain rfl := Option.some.inj hop
      simp [Operator.Asks, h, hgt, hne, heq, hle]
    | _ => cases hday
  · cases op with
    | eq | ne | gt | lte =>
      obtain rfl := Option.some.inj hop
      simp [Operator.Asks, h]
    | _ => cases hday

/-- The moment is a midnight, and the value is later on the day that begins with it. -/
def Column.LaterOnDayOf (c : Column) (place : Placing) (v : Value) (t : Timestamp) : Prop :=
  t.isMidnight = true ∧ ∃ next, t.nextDay? = some next ∧
    Comparison.gt.Meets place v (c.bind (.timestamp t)) ∧
    Comparison.lt.Meets place v (c.bind (.timestamp next))

namespace Query

variable {q : Query} {field : String} {c : Column} {zoned : Bool} {op : Operator}
  {cmp : Comparison}

/-- The condition for an operand that is read as a timestamp. -/
theorem IsColumn.places_moment_iff (h : q.IsColumn field c) (hmoment : c.type = .dateTime zoned)
    (hop : op.comparison? = some cmp) {raw : Value} {t : Timestamp}
    (hread : coerce (.dateTime zoned) raw = .ok (.timestamp t)) {p : Predicate} :
    q.Places (.compare op field raw) p ↔
      if t.isMidnight = true ∧ op.readsDay = true then
        ∃ next, t.nextDay? = some next ∧ c.onDay op t next = p
      else c.moment cmp t = p := by
  have hcomparison := Operator.isComparison_of_comparison? hop
  have hoperand : (Operand.single raw).mapM (coerce c.type) = .ok (.single (.timestamp t)) :=
    Operand.mapM_single (hmoment ▸ hread)
  rw [Filter.compare, h.places_iff (Operator.comparesValues_of_isComparison hcomparison) hoperand,
    Column.condition_single hcomparison, Column.compareWith_timestamp_iff hmoment hop]

/-- Among the rows, a moment is compared as it is but for what is later on the day that begins with
it. -/
theorem IsColumn.matches_moment_iff (h : q.IsColumn field c) (hmoment : c.type = .dateTime zoned)
    (hop : op.comparison? = some cmp) {raw : Value} {t : Timestamp}
    (hread : coerce (.dateTime zoned) raw = .ok (.timestamp t)) {j : Judge} {place : Placing}
    {s : Scene} (hj : j.IsStandard (.column c) place) (htimed : c.IsTimed place (s.at c))
    (hcondition : q.HasConditionFor (.compare op field raw)) :
    (q.Matches j s (.compare op field raw) ↔ cmp.Meets place (s.at c) (c.bind (.timestamp t))) ↔
      ¬(op.readsDay = true ∧ c.LaterOnDayOf place (s.at c) t) := by
  obtain ⟨p, hp⟩ := hasConditionFor_iff_places.mp hcondition
  rw [hp.matches_iff]
  rw [h.places_moment_iff hmoment hop hread] at hp
  split at hp
  case isTrue hday =>
    obtain ⟨next, hnext, rfl⟩ := hp
    have hlater : c.LaterOnDayOf place (s.at c) t ↔
        Comparison.gt.Meets place (s.at c) (c.bind (.timestamp t)) ∧
          Comparison.lt.Meets place (s.at c) (c.bind (.timestamp next)) := by
      simp [Column.LaterOnDayOf, hday.1, hnext]
    rw [Column.truth_onDay_iff hj htimed ⟨zoned, hmoment⟩ hnext
      (Operator.isComparison_of_comparison? hop), hlater, Operator.asks_iff_meets hop hday.2
      And.left]
    simp [hday.2]
  case isFalse hday =>
    subst hp
    refine iff_of_true hj.truth_compare_iff ?_
    rintro ⟨hreads, hmidnight, -⟩
    exact hday ⟨hmidnight, hreads⟩

/-- An operand that is a moment is compared as it is, unless it is a midnight and the operator reads
days. Then its condition is that of a date: it takes the day as a whole, or there is none where the
day has no end; and the rows that it finds are others than those of the comparison just in what is
later that day. -/
theorem compared_asSpelled (h : q.IsColumn field c) (hmoment : c.type = .dateTime zoned)
    (hop : op.comparison? = some cmp) :
    let compared (raw : Value) : Filter := .compare op field raw
    (∀ a, c.Reads a → (∃ d, (Value.text a).IsDay d) ∨ ∃ t, (Value.text a).IsMoment t) ∧
    (∀ raw : Value, ∀ t d, raw.IsMoment t → ¬raw.IsDay d) ∧
    (∀ raw t, raw.IsMoment t →
      (q.Places (compared raw) (c.moment cmp t) ↔
        ¬(t.isMidnight = true ∧ op.readsDay = true)) ∧
      (t.isMidnight = true → op.readsDay = true → ∀ p, q.Places (compared raw) p ↔
        ∃ next, t.nextDay? = some next ∧ c.onDay op t next = p) ∧
      ∀ {j : Judge} {place : Placing} {s : Scene}, j.IsStandard (.column c) place →
        c.IsTimed place (s.at c) → q.HasConditionFor (compared raw) →
          ((q.Matches j s (compared raw) ↔ cmp.Meets place (s.at c) (c.bind (.timestamp t))) ↔
            ¬(op.readsDay = true ∧ c.LaterOnDayOf place (s.at c) t))) ∧
    ∀ raw d, raw.IsDay d → ∀ p, q.Places (compared raw) p ↔
      if op.readsDay = true then
        ∃ next, d.next? = some next ∧ c.onDay op (.ofDate d) (.ofDate next) = p
      else c.moment cmp (.ofDate d) = p := by
  intro compared
  refine ⟨fun a ha => ha.isDay_or_isMoment hmoment, fun _ _ _ hraw => hraw.not_isDay,
    fun raw t hraw => ?_, fun raw d hraw p => ?_⟩
  · have hplaces {p : Predicate} := h.places_moment_iff (p := p) hmoment hop hraw.coerce_eq
    refine ⟨?_, fun hmidnight hday p => ?_, fun {j place s} hj htimed hcondition => ?_⟩
    · rw [hplaces]
      split
      case isTrue hday =>
        refine iff_of_false ?_ (not_not_intro hday)
        rintro ⟨next, -, hp⟩
        exact Column.onDay_ne_moment hop hday.2 t next hp
      case isFalse hday => exact iff_of_true rfl hday
    · rw [hplaces, if_pos ⟨hmidnight, hday⟩]
    · exact h.matches_moment_iff hmoment hop hraw.coerce_eq hj htimed hcondition
  · rw [h.places_moment_iff hmoment hop hraw.coerce_eq]
    simp [Timestamp.isMidnight_ofDate, Timestamp.nextDay?_ofDate]

/-- Ten o'clock is compared as it is. Midnight is not: an article of that morning is found by a
request for what was written at the midnight before. -/
theorem compared_asSpelled_articles :
    let q : Query := { entity := .articles }
    let midnight : Value := .text "2024-01-05T00:00:00"
    let morning : Value := .text "2024-01-05T10:00:00"
    midnight.IsMoment (.january 5) ∧ morning.IsMoment .fridayMorning ∧
      q.Places (.compare .eq "written_at" morning)
        (Entity.writtenAt.moment .eq .fridayMorning) ∧
      ¬q.Places (.compare .eq "written_at" midnight) (Entity.writtenAt.moment .eq (.january 5)) ∧
      q.Matches .alike .fridayArticle (.compare .eq "written_at" midnight) := by
  intro q midnight morning
  have hmidnight : midnight.IsMoment (.january 5) :=
    .text ⟨10, by decide +kernel, by decide +kernel, by decide +kernel, by decide +kernel⟩
  have hmorning : morning.IsMoment .fridayMorning :=
    .text ⟨10, by decide +kernel, by decide +kernel, by decide +kernel, by decide +kernel⟩
  have heq : Operator.comparison? .eq = some .eq := rfl
  obtain ⟨-, -, hmoments, -⟩ := compared_asSpelled (q := q) Entity.isColumn_writtenAt rfl heq
  obtain ⟨hexact, -⟩ := hmoments morning .fridayMorning hmorning
  obtain ⟨hnotExact, hday, hrows⟩ := hmoments midnight (.january 5) hmidnight
  refine ⟨hmidnight, hmorning, hexact.mpr (fun h => absurd h.1 (by decide)),
    fun h => hnotExact.mp h ⟨rfl, rfl⟩, ?_⟩
  have hplaces := (hday rfl rfl _).mpr ⟨.january 6, rfl, rfl⟩
  have hgt : Comparison.gt.Meets (Expr.column Entity.writtenAt).placing
      (Sql.Scene.fridayArticle.at Entity.writtenAt)
      (Entity.writtenAt.bind (.timestamp (.january 5))) := ⟨.gt, by decide +kernel, rfl⟩
  have hlater : Entity.writtenAt.LaterOnDayOf (Expr.column Entity.writtenAt).placing
      (Sql.Scene.fridayArticle.at Entity.writtenAt) (.january 5) :=
    ⟨rfl, .january 6, rfl, hgt, ⟨.lt, by decide +kernel, rfl⟩⟩
  have hdiffer := mt (hrows (isStandard_alike (.column Entity.writtenAt))
    Entity.isTimed_fridayArticle (hasConditionFor_iff_places.mpr ⟨_, hplaces⟩)).mp
    (not_not_intro ⟨rfl, hlater⟩)
  by_contra hnot
  exact hdiffer (iff_of_false hnot (not_meets_opposite (meets_gt_iff.mp hgt).2))

end Query

end ListQuery

/-!
## Filters in the order of days

On a column without time zones, a filter with a date compares the day of a timestamp with that date:
whatever its time of day, it is before the day, on it or after it, and the operators are satisfied
by these three as comparisons are. So what is after a day is what is at the following day or later.

* `IsColumn.matches_day_iff` — every operator compares days;
* `wholeDay_trichotomy` — what follows for the operators among each other.
-/

namespace ListQuery

open Calendar Sql

/-- Timestamps without an offset stand in the order of time. -/
def Column.InLocalTime (c : Column) (place : Placing) : Prop :=
  ∀ x t : Timestamp, x.offset = none → t.offset = none →
    place (.timestamp x) (c.bind (.timestamp t)) = some (compare x.instant t.instant)

/-- How the days of two timestamps compare tells how they compare with midnights. -/
theorem Column.InLocalTime.meets_midnight_iff {c : Column} {place : Placing}
    (h : c.InLocalTime place) {x : Timestamp} (hlocal : x.offset = none) (d : Date) :
    let meets (cmp : Comparison) :=
      cmp.Meets place (.timestamp x) (c.bind (.timestamp (.ofDate d)))
    (meets .lt ↔ x.date.ordinal < d.ordinal) ∧ (meets .ge ↔ d.ordinal ≤ x.date.ordinal) := by
  have hplace := h x (.ofDate d) hlocal rfl
  constructor
  · rw [← Timestamp.instant_lt_ofDate_iff hlocal d]
    simp [Comparison.Meets, hplace, Comparison.agrees, Std.compare_eq_lt]
  · rw [← Timestamp.ofDate_le_instant_iff hlocal d]
    simp [Comparison.Meets, hplace, Comparison.agrees, Std.isGE_compare]

/-- Of two values that stand in an order, one is less, or they are equal, or it is greater. -/
theorem Sql.Comparison.agrees_trichotomy (o : Ordering) :
    let agrees (cmp : Comparison) : Prop := cmp.agrees o = true
    (agrees .lt ∨ agrees .eq ∨ agrees .gt) ∧
      ¬(agrees .lt ∧ agrees .eq) ∧ ¬(agrees .eq ∧ agrees .gt) ∧ ¬(agrees .lt ∧ agrees .gt) ∧
      (agrees .ge ↔ agrees .eq ∨ agrees .gt) ∧
      (agrees .le ↔ agrees .lt ∨ agrees .eq) ∧
      (agrees .ne ↔ ¬agrees .eq) := by
  cases o <;> decide

/-- After a number is from the following one on, and up to it is below that one. -/
theorem Sql.Comparison.agrees_following (a b : Nat) :
    (gt.agrees (compare a b) = true ↔ ge.agrees (compare a (b + 1)) = true) ∧
      (le.agrees (compare a b) = true ↔ lt.agrees (compare a (b + 1)) = true) := by
  have hgt : gt.agrees (compare a b) = true ↔ b < a :=
    Ordering.isGT_iff_eq_gt.trans Nat.compare_eq_gt
  have hlt : lt.agrees (compare a (b + 1)) = true ↔ a < b + 1 :=
    Ordering.isLT_iff_eq_lt.trans Nat.compare_eq_lt
  have hge : ge.agrees (compare a (b + 1)) = true ↔ b + 1 ≤ a := Std.isGE_compare
  have hle : le.agrees (compare a b) = true ↔ a ≤ b := Std.isLE_compare
  rw [hgt, hge, hle, hlt]
  omega

namespace Query

variable {q : Query} {field : String} {c : Column} (h : q.IsColumn field c)

include h

section
variable {raw : Value} {d : Date} (hraw : raw.IsDay d) {op : Operator} {cmp : Comparison}
  (hop : op.comparison? = some cmp) (hlast : op.readsDay = true → d ≠ .last)

include hraw hop hlast

/-- Every comparison with a date has a condition, those that need the end of the day unless it is
the last one. -/
theorem IsColumn.hasConditionFor_day {zoned : Bool} (hmoment : c.type = .dateTime zoned) :
    q.HasConditionFor (.compare op field raw) := by
  rw [hasConditionFor_iff_places]
  simp only [h.places_moment_iff hmoment hop hraw.coerce_eq, Timestamp.isMidnight_ofDate,
    Timestamp.nextDay?_ofDate, true_and]
  split
  case isTrue hday =>
    obtain ⟨next, hnext⟩ := Option.ne_none_iff_exists'.mp
      (mt Date.next?_eq_none_iff.mp (hlast hday))
    exact ⟨_, .ofDate next, by rw [hnext]; rfl, rfl⟩
  case isFalse => exact ⟨_, rfl⟩

/-- A filter with a date compares the day of a timestamp with it. -/
theorem IsColumn.matches_day_iff {zoned : Bool} (hmoment : c.type = .dateTime zoned) {j : Judge}
    {place : Placing} {s : Scene} (hj : j.IsStandard (.column c) place)
    (hplace : c.InLocalTime place) {x : Timestamp} (hx : s.at c = .timestamp x)
    (hlocal : x.offset = none) :
    q.Matches j s (.compare op field raw) ↔
      cmp.agrees (compare x.date.ordinal d.ordinal) = true := by
  obtain ⟨p, hp⟩ := hasConditionFor_iff_places.mp (h.hasConditionFor_day hraw hop hlast hmoment)
  rw [hp.matches_iff]
  rw [h.places_moment_iff hmoment hop hraw.coerce_eq] at hp
  have hlt (d : Date) : truth j s (c.moment .lt (.ofDate d)) = .holds ↔
      x.date.ordinal < d.ordinal := by
    rw [← (hplace.meets_midnight_iff hlocal d).1, ← hx]
    exact hj.truth_compare_iff
  have hge (d : Date) : truth j s (c.moment .ge (.ofDate d)) = .holds ↔
      d.ordinal ≤ x.date.ordinal := by
    rw [← (hplace.meets_midnight_iff hlocal d).2, ← hx]
    exact hj.truth_compare_iff
  split at hp
  case isTrue hday =>
    rw [Timestamp.nextDay?_ofDate] at hp
    obtain ⟨t, ht, rfl⟩ := hp
    obtain ⟨next, hnext, rfl⟩ := Option.map_eq_some_iff.mp ht
    have hfollows := Date.ordinal_of_next? hnext
    have hdays := hday.2
    cases op with
    | eq | ne | gt | lte =>
      obtain rfl := Option.some.inj hop
      simp only [Column.onDay, truth_conj_pair, truth_disj_pair, hlt, hge, hfollows]
      cases ho : compare x.date.ordinal d.ordinal <;>
        simp only [Nat.compare_eq_lt, Nat.compare_eq_eq, Nat.compare_eq_gt] at ho <;>
        simp [Comparison.agrees] <;> omega
    | _ => cases hdays
  case isFalse hday =>
    subst hp
    cases op with
    | gte | lt =>
      obtain rfl := Option.some.inj hop
      simp [hlt, hge, Comparison.agrees, Std.compare_eq_lt, Std.isGE_compare]
    | eq | ne | gt | lte => exact absurd ⟨rfl, rfl⟩ hday
    | _ => cases hop

end

/-- Whatever its time of day, a timestamp is before a day, on it or after it, and it is found by the
operators for these cases alone. What is after a day is what is at the following day or later. -/
theorem wholeDay_trichotomy (hmoment : c.type = .dateTime false) {raw : Value} {d : Date}
    (hraw : raw.IsDay d) (hlast : d ≠ .last) :
    let compared (op : Operator) : Filter := .compare op field raw
    (∀ op, op.isComparison = true → q.HasConditionFor (compared op)) ∧
    ∀ {j : Judge} {place : Placing} {s : Scene} {x : Timestamp}, j.IsStandard (.column c) place →
      c.InLocalTime place → s.at c = .timestamp x → x.offset = none →
      let found (op : Operator) := q.Matches j s (compared op)
      (found .lt ∨ found .eq ∨ found .gt) ∧
      ¬(found .lt ∧ found .eq) ∧ ¬(found .eq ∧ found .gt) ∧ ¬(found .lt ∧ found .gt) ∧
      (found .gte ↔ found .eq ∨ found .gt) ∧
      (found .lte ↔ found .lt ∨ found .eq) ∧
      (found .ne ↔ ¬found .eq) ∧
      (found .eq ↔ x.date = d) ∧
      ∀ raw' d', raw'.IsDay d' → d.next? = some d' →
        (∀ op, op = .gte ∨ op = .lt → q.HasConditionFor (.compare op field raw')) ∧
        (found .gt ↔ q.Matches j s (.compare .gte field raw')) ∧
        (found .lte ↔ q.Matches j s (.compare .lt field raw')) := by
  intro compared
  refine ⟨fun op hop => ?_, fun {j place s x} hj hplace hx hlocal => ?_⟩
  · obtain ⟨cmp, hcmp⟩ := Operator.exists_comparison? hop
    exact h.hasConditionFor_day hraw hcmp (fun _ => hlast) hmoment
  intro found
  have hfound (op : Operator) {cmp : Comparison} (hop : op.comparison? = some cmp) :
      found op ↔ cmp.agrees (compare x.date.ordinal d.ordinal) = true :=
    h.matches_day_iff hraw hop (fun _ => hlast) hmoment hj hplace hx hlocal
  have hday : Comparison.eq.agrees (compare x.date.ordinal d.ordinal) = true ↔ x.date = d := by
    simp only [Comparison.agrees, Ordering.isEq_iff_eq_eq, Nat.compare_eq_eq]
    exact ⟨Date.ordinal_injective, congrArg Date.ordinal⟩
  have hfollowing {raw' : Value} {d' : Date} (hraw' : raw'.IsDay d') (op : Operator)
      {cmp : Comparison} (hop : op.comparison? = some cmp) (hreads : op.readsDay = false) :
      q.HasConditionFor (.compare op field raw') ∧ (q.Matches j s (.compare op field raw') ↔
        cmp.agrees (compare x.date.ordinal d'.ordinal) = true) := by
    have hlast' : op.readsDay = true → d' ≠ .last := by simp [hreads]
    exact ⟨h.hasConditionFor_day hraw' hop hlast' hmoment,
      h.matches_day_iff hraw' hop hlast' hmoment hj hplace hx hlocal⟩
  simp only [hfound .lt rfl, hfound .eq rfl, hfound .gt rfl,
    hfound .gte rfl, hfound .lte rfl, hfound .ne rfl]
  obtain ⟨hsome, hlteq, heqgt, hltgt, hge, hle, hne⟩ :=
    Comparison.agrees_trichotomy (compare x.date.ordinal d.ordinal)
  refine ⟨hsome, hlteq, heqgt, hltgt, hge, hle, hne, hday, fun raw' d' hraw' hnext => ?_⟩
  obtain ⟨hhasGte, hgte⟩ := hfollowing hraw' .gte rfl rfl
  obtain ⟨hhasLt, hlt⟩ := hfollowing hraw' .lt rfl rfl
  rw [hgte, hlt, Date.ordinal_of_next? hnext]
  exact ⟨fun op hop => hop.elim (· ▸ hhasGte) (· ▸ hhasLt), Comparison.agrees_following _ _⟩

end Query

-- ---------------------------------------------------------------------------
-- Articles of a leap day
-- ---------------------------------------------------------------------------

/-- The day that only leap years have. -/
def Calendar.Date.leapDay : Date := ⟨2024, 2, 29, by decide⟩

/-- The last microsecond of it. -/
def Calendar.Timestamp.leapNight : Timestamp :=
  ⟨.leapDay, ⟨23, 59, 59, 999999, by decide⟩, none⟩

/-- An article that was written then. -/
def Sql.Scene.leapArticle : Scene :=
  .single "articles" fun name => if name = "written_at" then .timestamp .leapNight else .null

/-- It was written on that day, so before the first of March and not after the leap day. -/
theorem Query.wholeDay_trichotomy_articles :
    let q : Query := { entity := .articles }
    let found (op : Operator) (raw : Value) :=
      q.Matches .alike .leapArticle (.compare op "written_at" raw)
    let day : Value := .date .leapDay
    let march : Value := .text "2024-03-01"
    found .eq day ∧ ¬found .ne day ∧ ¬found .gt day ∧ found .lte day ∧ found .lt march := by
  intro q found day march
  have hmarch : march.IsDay ⟨2024, 3, 1, by decide⟩ :=
    .text ⟨10, by decide +kernel, by decide +kernel, by decide +kernel⟩
  obtain ⟨-, hrows⟩ := wholeDay_trichotomy Entity.isColumn_writtenAt rfl (.date .leapDay) (by decide)
  obtain ⟨-, -, heqgt, -, -, hle, hne, heq, hnext⟩ :=
    hrows (x := .leapNight) (isStandard_alike (.column Entity.writtenAt)) (fun _ _ _ _ => rfl)
      (rfl : Scene.leapArticle.at Entity.writtenAt = _) rfl
  have hday : found .eq day := heq.mpr rfl
  have hupTo : found .lte day := hle.mpr (.inr hday)
  exact ⟨hday, fun h => hne.mp h hday, fun h => heqgt ⟨hday, h⟩, hupTo,
    (hnext march _ hmarch rfl).2.2.mp hupTo⟩

end ListQuery
