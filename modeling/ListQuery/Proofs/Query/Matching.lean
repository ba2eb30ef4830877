import ListQuery.Proofs.Condition.InOrder
import ListQuery.Proofs.Query.Independence
import ListQuery.Proofs.Query.Meaning
import ListQuery.Proofs.Query.TextOperands

/-!
# Rows that a filter matches

A filter matches a row if it is accepted and its condition is true of the row. On a column, texts
that its type reads are accepted under all settings; which rows they match is then a matter of how
the values of the column stand to them.

* `HasConditionFor`, `Places`, `Matches` — acceptance and condition of a filter as one;
* `IsColumn.accept` — readable operands are accepted;
* `IsColumn.matches_compare_iff` — single operands;
* `IsColumn.matches_included_iff`, `IsColumn.matches_between_iff` — lists and ranges.
-/

namespace ListQuery

open Sql

/-- The type of the column reads a value from the text. -/
def Column.Reads (c : Column) (a : String) : Prop := ∃ v, coerce c.type (.text a) = .ok v

namespace Query

variable (q : Query)

/-- The filter is accepted, and there is a condition for it. -/
def HasConditionFor (f : Filter) : Prop :=
  ∃ g p, q.accept f = .ok g ∧ q.entity.condition? g = .ok (some p)

/-- The filter is accepted, and this is the condition for it. -/
def Places (f : Filter) (p : Predicate) : Prop :=
  ∃ g, q.accept f = .ok g ∧ q.entity.condition? g = .ok (some p)

/-- The filter is accepted, and its condition is true of the row. -/
def Matches (j : Judge) (s : Scene) (f : Filter) : Prop :=
  ∃ g, q.accept f = .ok g ∧ g.Holds q.entity j s

/-- The field may be filtered, and is a column. -/
structure IsColumn (field : String) (c : Column) : Prop where
  allowed : q.entity.allowsFilter field = true
  noPath  : q.entity.jsonPath? field = none
  column  : q.entity.column? field = some c

variable {q}

theorem hasConditionFor_iff_places {f : Filter} : q.HasConditionFor f ↔ ∃ p, q.Places f p :=
  exists_comm

theorem Places.matches_iff {f : Filter} {p : Predicate} (h : q.Places f p) {j : Judge}
    {s : Scene} : q.Matches j s f ↔ truth j s p = .holds := by
  obtain ⟨g, hg, hp⟩ := h
  rw [← holds_iff hp]
  constructor
  · rintro ⟨g', hg', hholds⟩
    rwa [Except.ok.inj (hg.symm.trans hg')]
  · exact fun hholds => ⟨g, hg, hholds⟩

end Query

-- ---------------------------------------------------------------------------
-- Acceptance
-- ---------------------------------------------------------------------------

/-- A conversion that succeeds where another one does gives the same operand. -/
theorem Operand.mapM_imp {ε ε' : Type} {f : Value → Except ε Value} {g : Value → Except ε' Value}
    (h : ∀ {v w}, f v = .ok w → g v = .ok w) {o o' : Operand} (ho : o.mapM f = .ok o') :
    o.mapM g = .ok o' :=
  mapM_eq_ok_iff.mpr ((mapM_eq_ok_iff.mp ho).imp fun _ _ => h)

/-- A single value is converted alone. -/
theorem Operand.mapM_single {ε : Type} {f : Value → Except ε Value} {v w : Value}
    (h : f v = .ok w) : (Operand.single v).mapM f = .ok (.single w) :=
  map_eq_ok.mpr ⟨w, h, rfl⟩

namespace Query.IsColumn

variable {q : Query} {field : String} {c : Column} (h : q.IsColumn field c)
  {op : Operator} {raw operand : Operand}

include h

/-- Readable operands are accepted under all settings. -/
theorem accept (hvalues : op.category.comparesValues = true)
    (hread : raw.mapM (coerce c.type) = .ok operand) :
    q.accept ⟨field, op, raw, false⟩ = .ok ⟨field, op, operand, false⟩ := by
  have hconvert : raw.mapM (q.convertOperand ⟨field, op, raw, false⟩ c.type) = .ok operand :=
    Operand.mapM_imp (fun hv => by rw [convertOperand, hv]) hread
  have hjson : op.category ≠ .json := by
    intro hjson
    rw [hjson] at hvalues
    cases hvalues
  unfold Query.accept
  rw [if_pos h.allowed, h.noPath, h.column]
  dsimp only
  rw [acceptOnColumn_plain hjson, if_pos hvalues, convert, hconvert]
  rfl

theorem condition?_eq :
    q.entity.condition? ⟨field, op, operand, false⟩ = (c.condition op operand).map some := by
  unfold Entity.condition?
  rw [h.noPath, h.column]

/-- Operands that are not compared as values of the column are accepted as they are. -/
theorem places_unread_iff (hjson : op.category ≠ .json)
    (hvalues : op.category.comparesValues = false) {p : Predicate} :
    q.Places ⟨field, op, raw, false⟩ p ↔ c.condition op raw = .ok p := by
  have haccept : q.accept ⟨field, op, raw, false⟩ = .ok ⟨field, op, raw, false⟩ := by
    unfold Query.accept
    rw [if_pos h.allowed, h.noPath, h.column]
    dsimp only
    rw [acceptOnColumn_plain hjson]
    exact if_neg (Bool.not_eq_true _ ▸ hvalues)
  simp [Places, haccept, h.condition?_eq, map_eq_ok]

section
variable (hvalues : op.category.comparesValues = true)
  (hread : raw.mapM (coerce c.type) = .ok operand)

include hvalues hread

theorem places_iff {p : Predicate} :
    q.Places ⟨field, op, raw, false⟩ p ↔ c.condition op operand = .ok p := by
  simp [Places, h.accept hvalues hread, h.condition?_eq, map_eq_ok]

theorem hasConditionFor_iff :
    q.HasConditionFor ⟨field, op, raw, false⟩ ↔ ∃ p, c.condition op operand = .ok p := by
  simp only [hasConditionFor_iff_places, h.places_iff hvalues hread]

theorem matches_iff {j : Judge} {s : Scene} :
    q.Matches j s ⟨field, op, raw, false⟩ ↔
      ∃ p, c.condition op operand = .ok p ∧ truth j s p = .holds := by
  simp [Matches, Filter.Holds, h.accept hvalues hread, h.condition?_eq, map_eq_ok]

end

-- ---------------------------------------------------------------------------
-- Single operands
-- ---------------------------------------------------------------------------

end Query.IsColumn

theorem Operator.comparesValues_of_isComparison {op : Operator} (h : op.isComparison = true) :
    op.category.comparesValues = true := by
  cases op <;> first | rfl | cases h

/-- A comparison with a single operand. -/
theorem Column.condition_single {c : Column} {op : Operator} (hop : op.isComparison = true)
    (v : Value) : c.condition op (.single v) = c.compareWith op v := by
  cases op <;> first | rfl | cases hop

namespace Query.IsColumn

variable {q : Query} {field : String} {c : Column} (h : q.IsColumn field c)
  {op : Operator} {a b : String} {v w : Value}

include h

/-- A comparison has a condition unless it puts truth values in an order or asks for the end of the
last day. -/
theorem hasConditionFor_compare_iff (hop : op.isComparison = true) (hread : c.Reads a) :
    q.HasConditionFor (.compare op field (.text a)) ↔
      (op.isOrdering = true → c.type.isBoolean = false) ∧
        (op.readsDay = true → ¬c.ReadsLastDay (.text a)) := by
  obtain ⟨v, hread⟩ := hread
  have hlike := Operator.isLike_of_comparesValues (Operator.comparesValues_of_isComparison hop)
  have hoperand := Operand.mapM_single hread
  rw [Filter.compare,
    h.hasConditionFor_iff (Operator.comparesValues_of_isComparison hop) hoperand,
    Column.condition_single hop, Column.exists_compareWith_iff, hlike,
    (coerce_text hread).isOrdered_iff, (coerce_text hread).exists_dayRange_iff]
  simp

variable {j : Judge} {place : Placing} {s : Scene} (hj : j.IsStandard (.column c) place)

include hj

/-- A comparison that has a condition matches the rows for which its operator asks. -/
theorem matches_compare_iff
    (htimed : c.IsTimed place (s.at c)) (hop : op.isComparison = true)
    (hread : coerce c.type (.text a) = .ok v)
    (hcondition : q.HasConditionFor (.compare op field (.text a))) :
    q.Matches j s (.compare op field (.text a)) ↔
      op.Asks (fun cmp => cmp.Meets place (s.at c) (c.bind v))
        (c.LaterThatDay place (s.at c) a) := by
  have hvalues := Operator.comparesValues_of_isComparison hop
  have hoperand := Operand.mapM_single hread
  obtain ⟨p, hp⟩ := (h.hasConditionFor_iff hvalues hoperand).mp hcondition
  rw [Filter.compare, h.matches_iff hvalues hoperand, hp]
  rw [Column.condition_single hop] at hp
  rw [← Column.truth_compareWith_iff hj htimed hread hop hp]
  simp

section
variable (htimed : c.IsTimed place (s.at c)) (hread : coerce c.type (.text a) = .ok v)
  (hlast : ¬c.ReadsLastDay (.text a))

include htimed hread hlast

/-- Equality with what a text is read as, by the filters with that text: these take what is later on
its day for equal. -/
theorem meets_eq_iff_matches :
    (Comparison.eq.Meets place (s.at c) (c.bind v) ↔
      q.Matches j s (.compare .eq field (.text a)) ∧ ¬c.LaterThatDay place (s.at c) a) ∧
    (Comparison.ne.Meets place (s.at c) (c.bind v) ↔
      q.Matches j s (.compare .ne field (.text a)) ∨ c.LaterThatDay place (s.at c) a) := by
  have hcompare (op : Operator) (hop : op.isComparison = true)
      (hordering : op.isOrdering = false) :=
    h.matches_compare_iff hj htimed hop hread
      ((h.hasConditionFor_compare_iff hop ⟨v, hread⟩).mpr ⟨by simp [hordering], fun _ => hlast⟩)
  rw [hcompare .eq rfl rfl, hcompare .ne rfl rfl]
  obtain ⟨heq, hne, -⟩ := Column.meets_iff_asks place hread (s.at c)
  exact ⟨heq, hne⟩

/-- The order to what a text is read as, by the filters with that text: these take what is later on
its day for equal. -/
theorem meets_le_iff_matches (hboolean : c.type.isBoolean = false) :
    (Comparison.le.Meets place (s.at c) (c.bind v) ↔
      q.Matches j s (.compare .lte field (.text a)) ∧ ¬c.LaterThatDay place (s.at c) a) ∧
    (Comparison.gt.Meets place (s.at c) (c.bind v) ↔
      q.Matches j s (.compare .gt field (.text a)) ∨ c.LaterThatDay place (s.at c) a) := by
  have hcompare (op : Operator) (hop : op.isComparison = true) :=
    h.matches_compare_iff hj htimed hop hread
      ((h.hasConditionFor_compare_iff hop ⟨v, hread⟩).mpr ⟨fun _ => hboolean, fun _ => hlast⟩)
  rw [hcompare .lte rfl, hcompare .gt rfl]
  exact (Column.meets_iff_asks place hread (s.at c)).2.2

end

end Query.IsColumn

-- ---------------------------------------------------------------------------
-- Lists and ranges
-- ---------------------------------------------------------------------------

/-- A filter with a list of texts. -/
def Filter.listed (op : Operator) (field : String) (as : List String) : Filter :=
  ⟨field, op, .multiple (as.map .text), false⟩

/-- A filter with two texts as bounds. -/
def Filter.ranged (op : Operator) (field a b : String) : Filter :=
  ⟨field, op, .range (.text a) (.text b), false⟩

/-- Operators that are true of the members of a list. -/
def Operator.includes (op : Operator) : Bool := op == .eq || op == .isIn

/-- Operators that are true of what is not in a list. -/
def Operator.excludes (op : Operator) : Bool := op == .ne || op == .notIn

namespace Query.IsColumn

variable {q : Query} {field : String} {c : Column} (h : q.IsColumn field c) {op : Operator}

include h

section
variable {as : List String} {vs : List Value}
  (hread : List.Forall₂ (fun a v => coerce c.type (.text a) = .ok v) as vs)

include hread

/-- A list of readable texts has a condition. -/
theorem condition_listed (hop : op.includes = true ∨ op.excludes = true) :
    q.HasConditionFor (.listed op field as) ∧
      ∀ {j : Judge} {s : Scene}, q.Matches j s (.listed op field as) ↔
        truth j s (c.oneOf op.excludes vs) = .holds := by
  have hvalues : op.category.comparesValues = true := by
    cases op <;> first | rfl | simp [Operator.includes, Operator.excludes] at hop
  have hoperand : (Operand.multiple (as.map .text)).mapM (coerce c.type) = .ok (.multiple vs) :=
    map_eq_ok.mpr ⟨vs, mapM_eq_ok.mpr (List.forall₂_map_left_iff.mpr hread), rfl⟩
  have hcondition : c.condition op (.multiple vs) = .ok (c.oneOf op.excludes vs) := by
    cases op <;> first | rfl | simp [Operator.includes, Operator.excludes] at hop
  rw [Filter.listed, h.hasConditionFor_iff hvalues hoperand, hcondition]
  refine ⟨⟨_, rfl⟩, fun {j s} => ?_⟩
  rw [h.matches_iff hvalues hoperand, hcondition]
  simp

variable {j : Judge} {place : Placing} {s : Scene} (hj : j.IsStandard (.column c) place)

include hj

/-- What is in a list is equal to one of its members. -/
theorem matches_included_iff (hop : op.includes = true) :
    q.Matches j s (.listed op field as) ↔
      ∃ v ∈ vs, Comparison.eq.Meets place (s.at c) (c.bind v) := by
  have hnot : op.excludes = false := by
    cases op <;> first | rfl | cases hop
  rw [(h.condition_listed hread (.inl hop)).2, hnot, (Column.truth_oneOf_iff hj hread).1]

/-- What is not in a list is not equal to any of its members. -/
theorem matches_excluded_iff (hop : op.excludes = true) :
    q.Matches j s (.listed op field as) ↔
      ∀ v ∈ vs, Comparison.ne.Meets place (s.at c) (c.bind v) := by
  rw [(h.condition_listed hread (.inr hop)).2, hop, (Column.truth_oneOf_iff hj hread).2]

end

section
variable {a b : String} {v w : Value} (ha : coerce c.type (.text a) = .ok v)
  (hb : coerce c.type (.text b) = .ok w)

include ha hb

/-- A range between readable texts has a condition. -/
theorem condition_ranged (hop : op.takesRange = true) :
    q.HasConditionFor (.ranged op field a b) ∧
      ∀ {j : Judge} {s : Scene}, q.Matches j s (.ranged op field a b) ↔
        truth j s (.between (.column c) (op == .notBetween) (c.bind v) (c.bind w)) = .holds := by
  have hvalues : op.category.comparesValues = true := by
    cases op <;> first | rfl | cases hop
  have hoperand : (Operand.range (.text a) (.text b)).mapM (coerce c.type) = .ok (.range v w) :=
    bind_eq_ok.mpr ⟨v, ha, bind_eq_ok.mpr ⟨w, hb, rfl⟩⟩
  have hcondition : c.condition op (.range v w) =
      .ok (.between (.column c) (op == .notBetween) (c.bind v) (c.bind w)) := by
    cases op <;> first | rfl | cases hop
  rw [Filter.ranged, h.hasConditionFor_iff hvalues hoperand, hcondition]
  refine ⟨⟨_, rfl⟩, fun {j s} => ?_⟩
  rw [h.matches_iff hvalues hoperand, hcondition]
  simp

variable {j : Judge} {place : Placing} {s : Scene} (hj : j.IsStandard (.column c) place)

include hj

/-- What is in a range meets both bounds. -/
theorem matches_between_iff :
    q.Matches j s (.ranged .between field a b) ↔
      Comparison.ge.Meets place (s.at c) (c.bind v) ∧
        Comparison.le.Meets place (s.at c) (c.bind w) :=
  (h.condition_ranged ha hb rfl).2.trans hj.truth_between_iff.1

/-- What is not in a range is beyond one of the bounds. -/
theorem matches_notBetween_iff :
    q.Matches j s (.ranged .notBetween field a b) ↔
      Comparison.lt.Meets place (s.at c) (c.bind v) ∨
        Comparison.gt.Meets place (s.at c) (c.bind w) :=
  (h.condition_ranged ha hb rfl).2.trans hj.truth_between_iff.2

end

end Query.IsColumn

end ListQuery
