import ListQuery.Proofs.Condition.Negated
import ListQuery.Proofs.Query.PathValues

/-!
# Filters and their negations

An operator and its negation divide the rows among them. Where the column has a value, or the path a
text, just one of the two filters finds the row; where it has none, neither does, but for a list
without members, which nothing is in and everything is outside of. Tests for nothing divide all
rows.

* `Complements` — two filters that divide the rows;
* `IsColumn.complements`, `IsPath.complements`, `IsColumn.complements_null` — the pairs of operators;
* `negations_complement` — all of them.
-/

namespace ListQuery

open Sql

/-- The type of the column reads every value of the operand. -/
def Column.ReadsAll (c : Column) (raw : Operand) : Prop :=
  ∃ operand, raw.mapM (coerce c.type) = .ok operand

/-- Texts that a type reads, as the values of the operand that they become. -/
theorem Operand.IsSpelled.forall₂_values {raw operand : Operand} {t : ColumnType}
    (h : raw.IsSpelled) (hread : raw.mapM (coerce t) = .ok operand) :
    ∃ as : List String, raw.values = as.map .text ∧
      List.Forall₂ (fun a v => coerce t (.text a) = .ok v) as operand.values := by
  cases h with
  | single a =>
    obtain ⟨v, hv, rfl⟩ := map_eq_ok.mp hread
    have hvalue := isNull_of_coerce_text hv
    refine ⟨[a], rfl, ?_⟩
    cases v with
    | null => cases hvalue
    | _ => exact .cons hv .nil
  | multiple as =>
    obtain ⟨vs, hvs, rfl⟩ := map_eq_ok.mp hread
    exact ⟨as, rfl, List.forall₂_map_left_iff.mp (mapM_eq_ok.mp hvs)⟩
  | range a b =>
    obtain ⟨v, hv, hread⟩ := bind_eq_ok.mp hread
    obtain ⟨w, hw, hread⟩ := bind_eq_ok.mp hread
    obtain rfl := Except.ok.inj hread
    exact ⟨[a, b], rfl, .cons hv (.cons hw .nil)⟩

/-- Two bounds are read as two bounds. -/
theorem Operand.exists_range_of_mapM {ε : Type} {f : Value → Except ε Value} {raw operand : Operand}
    (h : ∃ low high, raw = .range low high) (hread : raw.mapM f = .ok operand) :
    ∃ low high, operand = .range low high := by
  obtain ⟨low, high, rfl⟩ := h
  cases mapM_eq_ok_iff.mp hread
  exact ⟨_, _, rfl⟩

/-- A spelled operand without values is a list without members. -/
theorem Operand.IsSpelled.eq_of_values_eq_nil {raw : Operand} (h : raw.IsSpelled)
    (hnil : raw.values = []) : raw = .multiple [] := by
  cases h with
  | single | range => cases hnil
  | multiple as =>
    rw [show as = [] from List.map_eq_nil_iff.mp hnil]
    rfl

/-- A pattern is a text. -/
theorem Operand.IsSpelled.first_of_pattern {raw : Operand} (h : raw.IsSpelled) {c : Column}
    {op op' : Operator} (hop : op.negation? = some op')
    (hvalues : op.category.comparesValues = false) {p : Predicate}
    (hp : c.condition op raw = .ok p) : ∃ a, raw.first = .text a := by
  rcases h.first with rfl | hfirst
  · cases op with
    | like | ilike => cases hp
    | eq | isIn | between => cases hvalues
    | _ => cases hop
  · exact hfirst

namespace Query

/-- The filters divide the rows: where something is there, one of them finds the row, and where it
is missing, none does, unless the second one finds all rows. -/
structure Complements (q : Query) (j : Judge) (s : Scene) (f f' : Filter) (missing all : Prop) :
    Prop where
  present : ¬missing → (q.Matches j s f' ↔ ¬q.Matches j s f)
  missing : missing → ¬q.Matches j s f ∧ (q.Matches j s f' ↔ all)

variable {q : Query} {field path : String} {c : Column} {op op' : Operator} {raw : Operand}
  {j : Judge} {s : Scene}

/-- Filters with opposed conditions divide the rows. -/
theorem complements_of_opposed {f f' : Filter} {p p' : Predicate} {missing all : Prop}
    (hp : q.Places f p) (hp' : q.Places f' p')
    (h : Truth.Opposed missing (truth j s p) (truth j s p')) (hall : ¬all) :
    q.Complements j s f f' missing all where
  present hpresent := by rw [hp.matches_iff, hp'.matches_iff, h.holds_iff hpresent]
  missing hmissing := by
    rw [hp.matches_iff, hp'.matches_iff]
    obtain ⟨hnot, hnot'⟩ := h.ne_holds hmissing
    exact ⟨hnot, iff_of_false hnot' hall⟩

/-- A filter that finds no row and one that finds every row. -/
theorem complements_of_all {f f' : Filter} {missing all : Prop} (hf : ¬q.Matches j s f)
    (hf' : q.Matches j s f') (hall : all) : q.Complements j s f f' missing all :=
  ⟨fun _ => iff_of_true hf' hf, fun _ => ⟨hf, iff_of_true hf' hall⟩⟩

-- ---------------------------------------------------------------------------
-- Columns
-- ---------------------------------------------------------------------------

namespace IsColumn

/-- The operand that the conditions of an operator and its negation are made of: what was read, or
the operand itself where it is a pattern. -/
theorem exists_operand (h : q.IsColumn field c) (hop : op.negation? = some op')
    (hreads : op.category.comparesValues = true → c.ReadsAll raw) :
    ∃ operand,
      (∀ p, q.Places ⟨field, op, raw, false⟩ p ↔ c.condition op operand = .ok p) ∧
      (∀ p, q.Places ⟨field, op', raw, false⟩ p ↔ c.condition op' operand = .ok p) ∧
      (op.category.comparesValues = true ∧ raw.mapM (coerce c.type) = .ok operand ∨
        op.category.comparesValues = false ∧ raw = operand) := by
  have hcategory := (Operator.negation_alike hop).1
  cases hvalues : op.category.comparesValues with
  | true =>
    obtain ⟨operand, hread⟩ := hreads hvalues
    have hvalues' : op'.category.comparesValues = true := hcategory ▸ hvalues
    exact ⟨operand, fun _ => h.places_iff hvalues hread, fun _ => h.places_iff hvalues' hread,
      .inl ⟨rfl, hread⟩⟩
  | false =>
    have hvalues' : op'.category.comparesValues = false := hcategory ▸ hvalues
    have hjson := Operator.not_json_of_negation? hop
    exact ⟨raw, fun _ => h.places_unread_iff hjson hvalues,
      fun _ => h.places_unread_iff (hcategory ▸ hjson) hvalues', .inr ⟨rfl, rfl⟩⟩

/-- An operator has a condition where its negation has one, and their filters divide the rows. -/
theorem complements (h : q.IsColumn field c) (hop : op.negation? = some op')
    (hraw : raw.IsSpelled)
    (hreads : op.category.comparesValues = true → c.ReadsAll raw)
    (hbounds : op.takesRange = true → ∃ low high, raw = .range low high) :
    let filter (op : Operator) : Filter := ⟨field, op, raw, false⟩
    (q.HasConditionFor (filter op) ↔ q.HasConditionFor (filter op')) ∧
      ∀ {j : Judge} {place : Placing} {alike : Likening} {s : Scene},
        j.Settles c place alike (s.at c) → q.HasConditionFor (filter op) →
          q.Complements j s (filter op) (filter op') ((s.at c).isNull = true)
            (raw.values = []) := by
  intro filter
  obtain ⟨operand, hplaces, hplaces', hoperand⟩ := h.exists_operand hop hreads
  have hjson := Operator.not_json_of_negation? hop
  have hcondition : q.HasConditionFor (filter op) ↔ q.HasConditionFor (filter op') := by
    simp only [filter, hasConditionFor_iff_places, hplaces, hplaces']
    rw [Column.exists_condition_iff hjson,
      Column.exists_condition_iff ((Operator.negation_alike hop).1 ▸ hjson),
      Column.takes_negation_iff hop]
  refine ⟨hcondition, fun {j place alike s} hj hhas => ?_⟩
  obtain ⟨p, hp⟩ := hasConditionFor_iff_places.mp hhas
  obtain ⟨p', hp'⟩ := hasConditionFor_iff_places.mp (hcondition.mp hhas)
  have hmade := (hplaces p).mp hp
  have hmade' := (hplaces' p').mp hp'
  rcases hoperand with ⟨hvalues, hread⟩ | ⟨hvalues, rfl⟩
  · have hbounds' : op.takesRange = true → ∃ low high, operand = .range low high :=
      fun htakes => Operand.exists_range_of_mapM (hbounds htakes) hread
    by_cases hnil : raw.values = []
    · obtain rfl := hraw.eq_of_values_eq_nil hnil
      obtain rfl : Operand.multiple [] = operand := Except.ok.inj hread
      obtain ⟨hfails, hholds⟩ :=
        Column.truth_condition_empty hop hvalues hbounds' rfl hmade hmade'
      refine complements_of_all ?_ (hp'.matches_iff.mpr hholds) rfl
      rw [hp.matches_iff, hfails]
      decide
    · obtain ⟨as, has, hforall⟩ := hraw.forall₂_values hread
      have hne : operand.values ≠ [] := by
        intro hempty
        rw [hempty] at hforall
        cases hforall
        exact hnil has
      have hopposed :=
        Column.opposed_condition hj hop hvalues hbounds' hforall hne hmade hmade'
      exact complements_of_opposed hp hp' hopposed hnil
  · obtain ⟨a, ha⟩ := hraw.first_of_pattern hop hvalues hmade
    have hopposed := Column.opposed_pattern hj hop hvalues ha hmade hmade'
    refine complements_of_opposed hp hp' hopposed fun hnil => ?_
    obtain rfl := hraw.eq_of_values_eq_nil hnil
    cases ha

/-- Tests for nothing divide all rows. -/
theorem complements_null (h : q.IsColumn field c) (raw : Operand) :
    let filter (op : Operator) : Filter := ⟨field, op, raw, false⟩
    q.HasConditionFor (filter .isNull) ∧ q.HasConditionFor (filter .isNotNull) ∧
      ∀ {j : Judge} {s : Scene},
        (q.Matches j s (filter .isNull) ↔ (s.at c).isNull = true) ∧
        (q.Matches j s (filter .isNotNull) ↔ ¬q.Matches j s (filter .isNull)) := by
  intro filter
  have hnull : q.Places (filter .isNull) (.isNull (.column c) false) :=
    (h.places_unread_iff (by decide) rfl).mpr rfl
  have hnotNull : q.Places (filter .isNotNull) (.isNull (.column c) true) :=
    (h.places_unread_iff (by decide) rfl).mpr rfl
  refine ⟨hasConditionFor_iff_places.mpr ⟨_, hnull⟩, hasConditionFor_iff_places.mpr ⟨_, hnotNull⟩,
    fun {j s} => ?_⟩
  rw [hnull.matches_iff, hnotNull.matches_iff, truth, truth, Truth.ofBool_eq_holds,
    Truth.ofBool_eq_holds]
  simp

end IsColumn

-- ---------------------------------------------------------------------------
-- Paths
-- ---------------------------------------------------------------------------

/-- On a path the values of the operand are compared as texts, and so is what an operand without
values has for its first one. -/
theorem IsPath.complements (h : q.IsPath field c path)
    (hop : op = .eq ∧ op' = .ne ∨ op = .isIn ∧ op' = .notIn) (raw : Operand) :
    let filter (op : Operator) : Filter := ⟨field, op, raw, false⟩
    q.HasConditionFor (filter op) ∧ q.HasConditionFor (filter op') ∧
      ∀ {j : Judge} {place : Placing} {r : DocumentReader} {s : Scene},
        j.IsStandard (.pathText c (segments path)) place → place.ReadsText r (segments path) →
          q.Complements j s (filter op) (filter op')
            (r.textAt? (segments path) (s.at c) = none) (op = .isIn ∧ raw.values = []) := by
  intro filter
  rcases hop with ⟨rfl, rfl⟩ | ⟨rfl, rfl⟩
  · obtain ⟨heq, hrows⟩ := h.matches_display_iff (.inl ⟨rfl, rfl⟩) raw
    obtain ⟨hne, hrows'⟩ := h.matches_display_iff (.inr ⟨rfl, rfl⟩) raw
    refine ⟨heq, hne, fun {j place r s} hj htexts => ?_⟩
    have hmatches := (hrows hj (s := s)).trans (meets_eq_iff_textAt? htexts _ _)
    have hmatches' := (hrows' hj (s := s)).trans (meets_ne_iff_textAt? htexts _ _)
    constructor <;> intro hmissing <;> rw [hmatches, hmatches']
    · obtain ⟨t, ht⟩ := Option.ne_none_iff_exists'.mp hmissing
      simp [ht]
    · simp [hmissing]
  · obtain ⟨hin, hnotIn, hrows⟩ := h.matches_displays_iff raw
    refine ⟨hin, hnotIn, fun {j place r s} hj htexts => ?_⟩
    obtain ⟨hmatches, hmatches'⟩ := hrows hj (s := s)
    simp only [meets_eq_iff_textAt? htexts, meets_ne_iff_textAt? htexts] at hmatches hmatches'
    constructor <;> intro hmissing <;> rw [hmatches, hmatches']
    · obtain ⟨t, ht⟩ := Option.ne_none_iff_exists'.mp hmissing
      simp [ht]
    · simp [hmissing, List.eq_nil_iff_forall_not_mem]

-- ---------------------------------------------------------------------------
-- All pairs
-- ---------------------------------------------------------------------------

/-- An operator and its negation divide the rows that have a value in the column, or a text at the
path, and leave out those that have none. Only a list without members is different there: what has
no value is not in it, but it is outside of it, whether inequality asks for that or the operator for
lists. Tests for nothing divide all rows. -/
theorem negations_complement (q : Query) :
    (∀ {field : String} {c : Column} {op op' : Operator} {raw : Operand},
      q.IsColumn field c → op.negation? = some op' → raw.IsSpelled →
      (op.category.comparesValues = true → c.ReadsAll raw) →
      (op.takesRange = true → ∃ low high, raw = .range low high) →
        let filter (op : Operator) : Filter := ⟨field, op, raw, false⟩
        (q.HasConditionFor (filter op) ↔ q.HasConditionFor (filter op')) ∧
          ∀ {j : Judge} {place : Placing} {alike : Likening} {s : Scene},
            j.Settles c place alike (s.at c) → q.HasConditionFor (filter op) →
              q.Complements j s (filter op) (filter op') ((s.at c).isNull = true)
                (raw.values = [])) ∧
    (∀ {field path : String} {c : Column} {op op' : Operator}, q.IsPath field c path →
      op = .eq ∧ op' = .ne ∨ op = .isIn ∧ op' = .notIn → ∀ raw : Operand,
        let filter (op : Operator) : Filter := ⟨field, op, raw, false⟩
        q.HasConditionFor (filter op) ∧ q.HasConditionFor (filter op') ∧
          ∀ {j : Judge} {place : Placing} {r : DocumentReader} {s : Scene},
            j.IsStandard (.pathText c (segments path)) place →
            place.ReadsText r (segments path) →
              q.Complements j s (filter op) (filter op')
                (r.textAt? (segments path) (s.at c) = none) (op = .isIn ∧ raw.values = [])) ∧
    ∀ {field : String} {c : Column}, q.IsColumn field c → ∀ raw : Operand,
      let filter (op : Operator) : Filter := ⟨field, op, raw, false⟩
      q.HasConditionFor (filter .isNull) ∧ q.HasConditionFor (filter .isNotNull) ∧
        ∀ {j : Judge} {s : Scene},
          (q.Matches j s (filter .isNull) ↔ (s.at c).isNull = true) ∧
          (q.Matches j s (filter .isNotNull) ↔ ¬q.Matches j s (filter .isNull)) :=
  ⟨fun h hop hraw hreads hbounds => h.complements hop hraw hreads hbounds,
    fun h hop raw => h.complements hop raw, fun h raw => h.complements_null raw⟩

/-- Labels are like a pattern, or unlike it, or missing. -/
theorem negations_complement_parcels :
    let q : Query := { entity := .parcels }
    let found (op : Operator) (label : Value) :=
      q.Matches (.withPatterns .ofTexts .alike) (.filledWith label)
        ⟨"label", op, .single (.text "box%"), false⟩
    found .like (.text "boxes") ∧ ¬found .notLike (.text "boxes") ∧
      ¬found .like .null ∧ ¬found .notLike .null := by
  intro q found
  have hcolumn : q.IsColumn "label" ⟨"parcels", "label", .string⟩ := ⟨rfl, rfl, rfl⟩
  have hop : Operator.negation? .like = some .notLike := rfl
  obtain ⟨-, hrows⟩ :=
    (negations_complement q).1 hcolumn hop (.single "box%") nofun nofun
  have hplaces : q.Places ⟨"label", .like, .single (.text "box%"), false⟩
      (.like (.column ⟨"parcels", "label", .string⟩) false false ⟨.text "box%", .string⟩) :=
    (hcolumn.places_unread_iff (by decide) rfl).mpr rfl
  have hhas := hasConditionFor_iff_places.mpr ⟨_, hplaces⟩
  have hboxes := hrows (s := .filledWith (.text "boxes"))
    (Judge.settles_texts rfl (.inr ⟨"boxes", rfl⟩)) hhas
  have hnone := hrows (s := .filledWith .null) (Judge.settles_texts rfl (.inl rfl)) hhas
  have hlike : found .like (.text "boxes") := by
    refine hplaces.matches_iff.mpr ?_
    simp only [truth, Predicate.subject?, Option.elim_some]
    decide +kernel
  obtain ⟨hnotLike, hnotNotLike⟩ := hnone.missing rfl
  exact ⟨hlike, fun h => (hboxes.present nofun).mp h hlike, hnotLike,
    fun h => absurd (hnotNotLike.mp h) (by simp [Operand.values])⟩

end Query

end ListQuery
