import ListQuery.Proofs.Query.Matching
import ListQuery.Proofs.Query.Interleaved

/-!
# Ranges and their bounds

A range on a column is met by the values that are not below the one bound and not above the other.
The operators that compare with one bound say the same, but for the upper bound of a range of days:
alone it stands for its whole day, in the range only for the midnight that begins it.

* `ranged_iff_bounds` — a range and its bounds, on any column that has an order.
-/

namespace ListQuery

open Calendar Sql

namespace Query

variable {q : Query} {field : String} {c : Column} {a b : String}

/-- A range has a condition whatever its bounds are, and so has its negation. It is met by what is
at least the lower bound, and less than the upper bound or equal to it. Unless the upper bound is
the last day of the calendar, there are also the comparisons of what is at most the upper bound, or
greater; these differ from the range in what is later on the day of the upper bound. -/
theorem ranged_iff_bounds (h : q.IsColumn field c) (hboolean : c.type.isBoolean = false)
    (ha : c.Reads a) (hb : c.Reads b) :
    let compared (op : Operator) (a : String) : Filter := .compare op field (.text a)
    (q.HasConditionFor (.ranged .between field a b) ∧
      q.HasConditionFor (.ranged .notBetween field a b) ∧
      (∀ op, op = .gte ∨ op = .lt → q.HasConditionFor (compared op a)) ∧
      ∀ op, op = .lte ∨ op = .gt →
        (q.HasConditionFor (compared op b) ↔ ¬c.ReadsLastDay (.text b))) ∧
    ∀ {j : Judge} {place : Placing} {s : Scene}, j.IsStandard (.column c) place →
      c.IsTimed place (s.at c) →
      let later := c.LaterThatDay place (s.at c) b
      (q.Matches j s (.ranged .between field a b) ↔
        q.Matches j s (compared .gte a) ∧
          (q.Matches j s (compared .lt b) ∨ q.Matches j s (.listed .isIn field [b]))) ∧
      (q.Matches j s (.ranged .notBetween field a b) ↔
        q.Matches j s (compared .lt a) ∨
          q.Matches j s (compared .gte b) ∧ q.Matches j s (.listed .notIn field [b])) ∧
      (¬c.ReadsLastDay (.text b) →
        (q.Matches j s (.ranged .between field a b) ↔
          q.Matches j s (compared .gte a) ∧ q.Matches j s (compared .lte b) ∧ ¬later) ∧
        (q.Matches j s (.ranged .notBetween field a b) ↔
          (s.at c).isNull = false ∧
            (q.Matches j s (compared .lt a) ∨ q.Matches j s (compared .gt b) ∨ later))) := by
  obtain ⟨v, hv⟩ := ha
  obtain ⟨w, hw⟩ := hb
  have hbelow {op : Operator} (hop : op = .gte ∨ op = .lt) {x : String} (hx : c.Reads x) :
      q.HasConditionFor (.compare op field (.text x)) := by
    refine (h.hasConditionFor_compare_iff ?_ hx).mpr ⟨fun _ => hboolean, ?_⟩ <;>
      rcases hop with rfl | rfl <;>
        simp [Operator.isComparison, Operator.isOrdering, Operator.readsDay]
  have habove {op : Operator} (hop : op = .lte ∨ op = .gt) :
      q.HasConditionFor (.compare op field (.text b)) ↔ ¬c.ReadsLastDay (.text b) := by
    rcases hop with rfl | rfl <;> rw [h.hasConditionFor_compare_iff rfl ⟨w, hw⟩] <;>
      simp [hboolean, Operator.readsDay]
  refine ⟨⟨(h.condition_ranged hv hw rfl).1, (h.condition_ranged hv hw rfl).1,
    fun _ hop => hbelow hop ⟨v, hv⟩, fun _ => habove⟩, ?_⟩
  intro j place s hj htimed later
  -- every filter by how the value stands to the bounds
  have hgte {x y} (hread : coerce c.type (.text x) = .ok y) :
      q.Matches j s (.compare .gte field (.text x)) ↔
        Comparison.ge.Meets place (s.at c) (c.bind y) :=
    h.matches_compare_iff hj htimed rfl hread (hbelow (.inl rfl) ⟨y, hread⟩)
  have hlt {x y} (hread : coerce c.type (.text x) = .ok y) :
      q.Matches j s (.compare .lt field (.text x)) ↔
        Comparison.lt.Meets place (s.at c) (c.bind y) :=
    h.matches_compare_iff hj htimed rfl hread (hbelow (.inr rfl) ⟨y, hread⟩)
  have hisIn : q.Matches j s (.listed .isIn field [b]) ↔
      Comparison.eq.Meets place (s.at c) (c.bind w) := by
    simpa using h.matches_included_iff (.cons hw .nil) hj rfl
  have hnotIn : q.Matches j s (.listed .notIn field [b]) ↔
      Comparison.ne.Meets place (s.at c) (c.bind w) := by
    simpa using h.matches_excluded_iff (.cons hw .nil) hj rfl
  refine ⟨?_, ?_, fun hlast => ⟨?_, ?_⟩⟩
  · rw [h.matches_between_iff hv hw hj, hgte hv, hlt hw, hisIn, ← meets_le_iff]
  · rw [h.matches_notBetween_iff hv hw hj, hlt hv, hgte hw, hnotIn, ← meets_gt_iff]
  · have hle := (h.meets_le_iff_matches hj htimed hw hlast hboolean).1
    rw [h.matches_between_iff hv hw hj, hgte hv, hle]
  · have hgt := (h.meets_le_iff_matches hj htimed hw hlast hboolean).2
    rw [h.matches_notBetween_iff hv hw hj, hlt hv, ← hgt, iff_and_self]
    exact fun hmeets => hmeets.elim hj.isNull_of_meets hj.isNull_of_meets

end Query

-- ---------------------------------------------------------------------------
-- Articles of a week
-- ---------------------------------------------------------------------------

/-- The days of a week in January, each with its midnight. -/
def Calendar.Timestamp.january (day : Nat) (h : IsDate 2024 1 day := by decide) : Timestamp :=
  .ofDate ⟨2024, 1, day, h⟩

/-- When an article was written. -/
def Entity.writtenAt : Column := ⟨"articles", "written_at", .dateTime false⟩

/-- Ten o'clock on the fifth of January. -/
def Calendar.Timestamp.fridayMorning : Timestamp :=
  { january 5 with clock := ⟨10, 0, 0, 0, by decide⟩ }

/-- An article that was written that morning. -/
def Sql.Scene.fridayArticle : Scene :=
  .single "articles" fun name => if name = "written_at" then .timestamp .fridayMorning else .null

theorem Entity.isColumn_writtenAt : Query.IsColumn { entity := .articles } "written_at" writtenAt :=
  ⟨rfl, rfl, rfl⟩

theorem Entity.isTimed_fridayArticle :
    writtenAt.IsTimed (Expr.column writtenAt).placing (Scene.fridayArticle.at writtenAt) :=
  Column.isTimed_alike writtenAt .fridayMorning

/-- That morning is later on the fifth of January. -/
theorem Entity.laterThatDay_fridayMorning :
    writtenAt.LaterThatDay (Expr.column writtenAt).placing (Scene.fridayArticle.at writtenAt)
      "2024-01-05" :=
  ⟨.january 5, .january 6, ⟨⟨false, rfl⟩, rfl, rfl, rfl⟩, ⟨.gt, by decide +kernel, rfl⟩,
    ⟨.lt, by decide +kernel, rfl⟩⟩

theorem Entity.not_readsLastDay_writtenAt : ¬writtenAt.ReadsLastDay (.text "2024-01-05") := by
  rintro ⟨-, s, x, -, hs, hx, -, hlast⟩
  obtain rfl := Value.text.inj hs
  have hread : readTimestamp (Text.trim "2024-01-05") = some (.january 5) := by decide +kernel
  obtain rfl := Option.some.inj (hread.symm.trans hx)
  exact absurd hlast (by decide)

/-- An article of the last morning of a week meets both bounds of the week, but is not in the
range. -/
theorem Query.ranged_iff_bounds_articles :
    let q : Query := { entity := .articles }
    let found := q.Matches .alike .fridayArticle
    Entity.writtenAt.Reads "2024-01-01" ∧ Entity.writtenAt.Reads "2024-01-05" ∧
      found (.compare .gte "written_at" (.text "2024-01-01")) ∧
      found (.compare .lte "written_at" (.text "2024-01-05")) ∧
      ¬found (.ranged .between "written_at" "2024-01-01" "2024-01-05") ∧
      found (.ranged .notBetween "written_at" "2024-01-01" "2024-01-05") := by
  have hcolumn := Entity.isColumn_writtenAt
  have hfirst : coerce Entity.writtenAt.type (.text "2024-01-01") =
      .ok (.timestamp (.january 1)) := rfl
  have hlast : coerce Entity.writtenAt.type (.text "2024-01-05") =
      .ok (.timestamp (.january 5)) := rfl
  have hj := isStandard_alike (.column Entity.writtenAt)
  have htimed := Entity.isTimed_fridayArticle
  have hlater := Entity.laterThatDay_fridayMorning
  obtain ⟨⟨-, -, hbelow, habove⟩, hrows⟩ :=
    ranged_iff_bounds hcolumn rfl ⟨_, hfirst⟩ ⟨_, hlast⟩
  obtain ⟨-, -, hdays⟩ := hrows hj htimed
  obtain ⟨hbetween, hnotBetween⟩ := hdays Entity.not_readsLastDay_writtenAt
  refine ⟨⟨_, hfirst⟩, ⟨_, hlast⟩, ?_, ?_, fun h => (hbetween.mp h).2.2 hlater,
    hnotBetween.mpr ⟨rfl, .inr (.inr hlater)⟩⟩
  · rw [hcolumn.matches_compare_iff hj htimed rfl hfirst (hbelow .gte (.inl rfl))]
    exact ⟨.gt, by decide +kernel, rfl⟩
  · rw [hcolumn.matches_compare_iff hj htimed rfl hlast
      ((habove .lte (.inl rfl)).mpr Entity.not_readsLastDay_writtenAt)]
    exact .inr hlater

end ListQuery

/-!
## Lists and their members

A list of texts on a column is met by the values that are equal to one of them, and its negation by
the values that are equal to none, in the same way whether the list is given to an operator for
lists or its texts are given to equality one after the other. Equality with a single text says the
same, but for a text that denotes a day: alone it stands for the whole day, in a list only for the
midnight that begins it.

* `listed_iff_compared` — a list and its members, on any column.
-/

namespace ListQuery

open Calendar Sql ItemParams

section
variable {α β : Type} {R : α → β → Prop} {l : List α} {rs : List β} {P : α → Prop} {Q : β → Prop}
  (h : List.Forall₂ R l rs) (hiff : ∀ a ∈ l, ∀ b, R a b → (P a ↔ Q b))

include h hiff

theorem exists_mem_iff_of_forall₂ : (∃ b ∈ rs, Q b) ↔ ∃ a ∈ l, P a := by
  constructor
  · rintro ⟨b, hb, hQ⟩
    obtain ⟨a, ha, hab⟩ := exists_of_mem_forall₂ h hb
    exact ⟨a, ha, (hiff a ha b hab).mpr hQ⟩
  · rintro ⟨a, ha, hP⟩
    obtain ⟨b, hb, hab⟩ := exists_of_mem_forall₂ h.flip ha
    exact ⟨b, hb, (hiff a ha b hab).mp hP⟩

theorem forall_mem_iff_of_forall₂ : (∀ b ∈ rs, Q b) ↔ ∀ a ∈ l, P a := by
  constructor
  · intro hQ a ha
    obtain ⟨b, hb, hab⟩ := exists_of_mem_forall₂ h.flip ha
    exact (hiff a ha b hab).mpr (hQ b hb)
  · intro hP b hb
    obtain ⟨a, ha, hab⟩ := exists_of_mem_forall₂ h hb
    exact (hiff a ha b hab).mp (hP a ha)

end

namespace Query

variable {q : Query} {field : String} {c : Column}

/-- A value that is not equal to any member of a list is not missing, unless the list is empty. -/
theorem forall_meets_ne_iff {j : Judge} {place : Placing} {s : Scene}
    (hj : j.IsStandard (.column c) place) {as : List String} {vs : List Value} {P : String → Prop}
    (hvs : List.Forall₂ (fun a v => coerce c.type (.text a) = .ok v) as vs)
    (hP : ∀ a ∈ as, ∀ v, coerce c.type (.text a) = .ok v →
      (P a ↔ Comparison.ne.Meets place (s.at c) (c.bind v))) :
    (∀ v ∈ vs, Comparison.ne.Meets place (s.at c) (c.bind v)) ↔
      as = [] ∨ (s.at c).isNull = false ∧ ∀ a ∈ as, P a := by
  rw [← forall_mem_iff_of_forall₂ hvs hP]
  cases hvs with
  | nil => simp
  | @cons a v as vs _ _ =>
    constructor
    · intro hall
      exact .inr ⟨hj.isNull_of_meets (hall v List.mem_cons_self), hall⟩
    · rintro (hnil | ⟨-, hall⟩)
      · cases hnil
      · exact hall

/-- A list of readable texts has a condition, also where a key of the request repeats equality. It
is met by what is equal to a member, and its negation by what is equal to none. Unless a member is
the last day of the calendar, there are also the comparisons with single texts; these differ from
the list in what is later on the day of a member. -/
theorem listed_iff_compared (h : q.IsColumn field c) {as : List String}
    (hread : ∀ a ∈ as, c.Reads a) :
    (∀ op, op.includes = true ∨ op.excludes = true → q.HasConditionFor (.listed op field as)) ∧
    (∀ op, op = .eq ∨ op = .ne → ∀ a ∈ as,
      (q.HasConditionFor (.compare op field (.text a)) ↔ ¬c.ReadsLastDay (.text a))) ∧
    (∀ op, op = .eq ∨ op = .ne → ∀ items spelling, Operator.parse? spelling = some op →
      partsFor field items = as.map (some spelling, ·) → 2 ≤ as.length →
      ∃ parsed, (ofItems items).toRequest.parsedFilters = .ok parsed ∧
        ∀ f, f.field = field → (f ∈ parsed.filters ↔ f = .listed op field as)) ∧
    ∀ {j : Judge} {place : Placing} {s : Scene}, j.IsStandard (.column c) place →
      c.IsTimed place (s.at c) →
      let later (a : String) := c.LaterThatDay place (s.at c) a
      (∀ op, op.includes = true →
        (q.Matches j s (.listed op field as) ↔
          ∃ a ∈ as, q.Matches j s (.listed .isIn field [a])) ∧
        ((∀ a ∈ as, ¬c.ReadsLastDay (.text a)) →
          (q.Matches j s (.listed op field as) ↔
            ∃ a ∈ as, q.Matches j s (.compare .eq field (.text a)) ∧ ¬later a))) ∧
      (∀ op, op.excludes = true →
        (q.Matches j s (.listed op field as) ↔
          as = [] ∨ (s.at c).isNull = false ∧
            ∀ a ∈ as, q.Matches j s (.listed .notIn field [a])) ∧
        ((∀ a ∈ as, ¬c.ReadsLastDay (.text a)) →
          (q.Matches j s (.listed op field as) ↔
            as = [] ∨ (s.at c).isNull = false ∧
              ∀ a ∈ as, q.Matches j s (.compare .ne field (.text a)) ∨ later a))) := by
  obtain ⟨vs, hvs⟩ := exists_forall₂ hread
  have hcondition {op : Operator} (hop : op = .eq ∨ op = .ne) {a : String} (ha : c.Reads a) :
      q.HasConditionFor (.compare op field (.text a)) ↔ ¬c.ReadsLastDay (.text a) := by
    rcases hop with rfl | rfl <;> rw [h.hasConditionFor_compare_iff rfl ha] <;>
      simp [Operator.isOrdering, Operator.readsDay]
  refine ⟨fun op hop => (h.condition_listed hvs hop).1,
    fun op hop a ha => hcondition hop (hread a ha), ?_, ?_⟩
  · rintro op hop items spelling hspelling hparts hlength
    have hrange : op.takesRange = false := by
      rcases hop with rfl | rfl <;> rfl
    exact exists_parsedFilters_repeated hparts hspelling hrange hlength
  · intro j place s hj htimed later
    have hisIn : ∀ a ∈ as, ∀ v, coerce c.type (.text a) = .ok v →
        (q.Matches j s (.listed .isIn field [a]) ↔
          Comparison.eq.Meets place (s.at c) (c.bind v)) := by
      intro a _ v hv
      simpa using h.matches_included_iff (.cons hv .nil) hj rfl
    have hnotIn : ∀ a ∈ as, ∀ v, coerce c.type (.text a) = .ok v →
        (q.Matches j s (.listed .notIn field [a]) ↔
          Comparison.ne.Meets place (s.at c) (c.bind v)) := by
      intro a _ v hv
      simpa using h.matches_excluded_iff (.cons hv .nil) hj rfl
    refine ⟨fun op hop => ⟨?_, fun hlast => ?_⟩, fun op hop => ⟨?_, fun hlast => ?_⟩⟩
    · rw [h.matches_included_iff hvs hj hop, exists_mem_iff_of_forall₂ hvs hisIn]
    · rw [h.matches_included_iff hvs hj hop]
      exact exists_mem_iff_of_forall₂ hvs fun a ha v hv =>
        (h.meets_eq_iff_matches hj htimed hv (hlast a ha)).1.symm
    · rw [h.matches_excluded_iff hvs hj hop, forall_meets_ne_iff hj hvs hnotIn]
    · rw [h.matches_excluded_iff hvs hj hop]
      exact forall_meets_ne_iff hj hvs fun a ha v hv =>
        (h.meets_eq_iff_matches hj htimed hv (hlast a ha)).2.symm

/-- An article of that morning is equal to the day, but is not found by a request that says so
twice. -/
theorem listed_iff_compared_articles :
    let q : Query := { entity := .articles }
    let found := q.Matches .alike .fridayArticle
    let items := [("filter[written_at][eq]", "2024-01-05"), ("filter[written_at][eq]", "2024-01-05")]
    let days := ["2024-01-05", "2024-01-05"]
    (∃ parsed, (ofItems items).toRequest.parsedFilters = .ok parsed ∧
      .listed .eq "written_at" days ∈ parsed.filters) ∧
      found (.compare .eq "written_at" (.text "2024-01-05")) ∧
      ¬found (.listed .eq "written_at" days) ∧
      ¬found (.compare .ne "written_at" (.text "2024-01-05")) ∧
      found (.listed .ne "written_at" days) := by
  intro q found items days
  have hcolumn := Entity.isColumn_writtenAt
  have hread : coerce Entity.writtenAt.type (.text "2024-01-05") =
      .ok (.timestamp (.january 5)) := rfl
  have hj := isStandard_alike (.column Entity.writtenAt)
  have htimed := Entity.isTimed_fridayArticle
  have hlater := Entity.laterThatDay_fridayMorning
  have hdays : ∀ a ∈ days, a = "2024-01-05" := by decide
  have hreads : ∀ a ∈ days, Entity.writtenAt.Reads a := fun a ha => hdays a ha ▸ ⟨_, hread⟩
  have hlast : ∀ a ∈ days, ¬Entity.writtenAt.ReadsLastDay (.text a) :=
    fun a ha => hdays a ha ▸ Entity.not_readsLastDay_writtenAt
  have hparts : partsFor "written_at" items = days.map (some "eq", ·) := by decide +kernel
  obtain ⟨-, hcondition, hrequest, hrows⟩ := listed_iff_compared hcolumn hreads
  obtain ⟨parsed, hparsed, hfilters⟩ :=
    hrequest .eq (.inl rfl) items "eq" rfl hparts (Nat.le_refl 2)
  obtain ⟨hincluded, hexcluded⟩ := hrows hj htimed
  have hcompare {op : Operator} (hop : op = .eq ∨ op = .ne)
      (hcomparison : op.isComparison = true) :=
    hcolumn.matches_compare_iff hj htimed hcomparison hread
      ((hcondition op hop _ List.mem_cons_self).mpr Entity.not_readsLastDay_writtenAt)
  refine ⟨⟨parsed, hparsed, (hfilters _ rfl).mpr rfl⟩, (hcompare (.inl rfl) rfl).mpr (.inr hlater),
    fun h => ?_, fun h => ((hcompare (.inr rfl) rfl).mp h).2 hlater, ?_⟩
  · obtain ⟨a, ha, -, hnot⟩ := ((hincluded .eq rfl).2 hlast).mp h
    rw [hdays a ha] at hnot
    exact hnot hlater
  · refine ((hexcluded .ne rfl).2 hlast).mpr (.inr ⟨rfl, fun a ha => .inr ?_⟩)
    rw [hdays a ha]
    exact hlater

end Query

end ListQuery
