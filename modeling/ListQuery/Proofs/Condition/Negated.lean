import ListQuery.Proofs.Condition.InOrder
import ListQuery.Proofs.Sql.Negation

/-!
# Operators and their negations

Every operator that has a negation places a condition where the negation does, and the two
conditions are opposed: a day is left on both of its sides, a list by all of its members, a range at
one of its bounds. A list without members is no test of the value; it is true of no value, and its
negation of all of them.

* `Operator.negation?` — the pairs;
* `Judge.Settles` — a judge that can tell what the operators ask of a value;
* `takes_negation_iff` — operands that an operator takes are those that its negation takes;
* `opposed_condition`, `opposed_pattern` — the conditions of a pair.
-/

namespace ListQuery

open Calendar Sql

/-- The operator that asks for the opposite. -/
def Operator.negation? : Operator → Option Operator
  | .eq      => some .ne
  | .isIn    => some .notIn
  | .like    => some .notLike
  | .ilike   => some .notIlike
  | .between => some .notBetween
  | _        => none

/-- Operators that are negations of each other are read alike. -/
theorem Operator.negation_alike {op op' : Operator} (h : op.negation? = some op') :
    op'.category = op.category ∧ op'.isOrdering = op.isOrdering ∧ op'.isLike = op.isLike ∧
      op'.readsDay = op.readsDay := by
  cases op <;> cases h <;> decide

theorem Operator.not_json_of_negation? {op op' : Operator} (h : op.negation? = some op') :
    op.category ≠ .json := by
  cases op <;> first | cases h; done | decide

/-- Tests on a column as SQL has them, by which can be told how a value stands to all that the type
of the column reads from texts, to moments if it is a type of timestamps, and to patterns. -/
structure Sql.Judge.Settles (j : Judge) (c : Column) (place : Placing) (alike : Likening) (v : Value) :
    Prop where
  standard : j.IsStandard (.column c) place
  likens   : j.Likens (.column c) alike
  reads    : ∀ {a w}, coerce c.type (.text a) = .ok w → place.Knows v (c.bind w)
  moments  : (∃ zoned, c.type = .dateTime zoned) → ∀ t, place.Knows v (c.bind (.timestamp t))
  patterns : v.isNull = false → ∀ caseless a, ∃ t, alike caseless v (c.bind (.text a)) = some t

/-- The judge that compares values in their order and texts with patterns settles texts. -/
theorem Sql.Judge.settles_texts {c : Column} (hc : c.type = .string) {v : Value}
    (hv : v = .null ∨ ∃ s, v = .text s) :
    (Judge.withPatterns .ofTexts .alike).Settles c (Expr.column c).placing .ofTexts v where
  standard := isStandard_withPatterns (isStandard_alike _) _
  likens   := likens_withPatterns Likening.ofTexts_of_isNull _ _
  reads {a w} hread hnull := by
    rw [hc] at hread
    obtain rfl := Except.ok.inj hread
    rcases hv with rfl | ⟨s, rfl⟩
    · cases hnull
    · exact ⟨_, rfl⟩
  moments := by
    rintro ⟨zoned, hmoment⟩
    cases hc.symm.trans hmoment
  patterns hnull caseless a := by
    rcases hv with rfl | ⟨s, rfl⟩
    · cases hnull
    · cases caseless <;> exact ⟨_, rfl⟩

/-- The value that a single operand is compared by is one of its values, if it has any. -/
theorem Operand.first_mem_values {o : Operand} (h : o.values ≠ []) : o.first ∈ o.values := by
  cases o with
  | single v =>
    cases v with
    | null => exact absurd rfl h
    | _ => exact List.mem_singleton_self _
  | multiple vs =>
    cases vs with
    | nil => exact absurd rfl h
    | cons v vs => exact List.mem_cons_self
  | range low high => exact List.mem_cons_self

namespace Column

variable {c : Column} {op op' : Operator} {operand : Operand}

theorem takes_negation_iff (h : op.negation? = some op') :
    c.Takes op' operand ↔ c.Takes op operand := by
  obtain ⟨hcategory, hordering, hlike, hday⟩ := Operator.negation_alike h
  constructor
  · rintro ⟨hcomparable, hdays⟩
    rw [hordering, hlike] at hcomparable
    rw [hday, hcategory] at hdays
    exact ⟨hcomparable, hdays⟩
  · rintro ⟨hcomparable, hdays⟩
    rw [← hordering, ← hlike] at hcomparable
    rw [← hday, ← hcategory] at hdays
    exact ⟨hcomparable, hdays⟩

variable {j : Judge} {place : Placing} {alike : Likening} {s : Scene}

section
variable (hj : j.Settles c place alike (s.at c)) {p p' : Predicate}

include hj

-- ---------------------------------------------------------------------------
-- Pairs of operators
-- ---------------------------------------------------------------------------

section
variable {a : String} {v : Value} (hread : coerce c.type (.text a) = .ok v)

include hread

theorem opposed_equals :
    Truth.Opposed ((s.at c).isNull = true) (truth j s (c.equals false v))
      (truth j s (c.equals true v)) := by
  have hvalue := isNull_of_coerce_text hread
  cases v with
  | null => cases hvalue
  | bool b => exact hj.standard.opposed_isTruth (c.bind_bool b ▸ hj.reads hread)
  | _ => exact hj.standard.opposed_compare (hj.reads hread) .eq

/-- What is on a day is not before it and not after it. -/
theorem opposed_equality (hp : c.compareWith .eq v = .ok p) (hp' : c.compareWith .ne v = .ok p') :
    Truth.Opposed ((s.at c).isNull = true) (truth j s p) (truth j s p') := by
  obtain ⟨r, hr, hp⟩ := bind_eq_ok.mp hp
  obtain ⟨r', hr', hp'⟩ := bind_eq_ok.mp hp'
  obtain rfl := Except.ok.inj (hr.symm.trans hr')
  cases r with
  | none =>
    obtain rfl := Except.ok.inj hp
    obtain rfl := Except.ok.inj hp'
    exact opposed_equals hj hread
  | some span =>
    obtain ⟨start, next⟩ := span
    obtain rfl := Except.ok.inj hp
    obtain rfl := Except.ok.inj hp'
    have hmoment := ((dayRange_eq_some_iff hread hr start next).mp rfl).isMoment
    have hstart := hj.standard.opposed_compare (hj.moments hmoment start) .ge
    have hnext := hj.standard.opposed_compare (hj.moments hmoment next) .lt
    have hboth : truth j s (.conj [c.moment .ge start, c.moment .lt next]) =
        .both (truth j s (c.moment .ge start)) (truth j s (c.moment .lt next)) := truth_all_pair
    have heither : truth j s (.disj [c.moment .lt start, c.moment .ge next]) =
        .either (truth j s (c.moment .lt start)) (truth j s (c.moment .ge next)) := truth_any_pair
    rw [hboth, heither]
    exact hstart.both hnext

end

theorem opposed_oneOf {as : List String} {vs : List Value}
    (hread : List.Forall₂ (fun a v => coerce c.type (.text a) = .ok v) as vs) (hne : vs ≠ []) :
    Truth.Opposed ((s.at c).isNull = true) (truth j s (c.oneOf false vs))
      (truth j s (c.oneOf true vs)) := by
  have hbinds := binds_ofList hread
  cases vs with
  | nil => exact absurd rfl hne
  | cons v vs =>
    refine hj.standard.opposed_member (List.cons_ne_nil v vs) fun b hb => ?_
    rw [hbinds] at hb
    obtain ⟨w, hw, rfl⟩ := List.mem_map.mp hb
    obtain ⟨a, -, ha⟩ := exists_of_mem_forall₂ hread hw
    exact hj.reads ha

-- ---------------------------------------------------------------------------
-- Conditions
-- ---------------------------------------------------------------------------

/-- Operators whose operands are read. -/
theorem opposed_condition (hop : op.negation? = some op')
    (hvalues : op.category.comparesValues = true)
    (hbounds : op.takesRange = true → ∃ low high, operand = .range low high) {as : List String}
    (hread : List.Forall₂ (fun a v => coerce c.type (.text a) = .ok v) as operand.values)
    (hne : operand.values ≠ []) (hp : c.condition op operand = .ok p)
    (hp' : c.condition op' operand = .ok p') :
    Truth.Opposed ((s.at c).isNull = true) (truth j s p) (truth j s p') := by
  cases op with
  | eq =>
    obtain rfl := Option.some.inj hop
    cases operand with
    | multiple vs =>
      obtain rfl := Except.ok.inj hp
      obtain rfl := Except.ok.inj hp'
      exact opposed_oneOf hj hread hne
    | single v =>
      obtain ⟨a, -, ha⟩ := exists_of_mem_forall₂ hread (Operand.first_mem_values hne)
      exact opposed_equality hj ha hp hp'
    | range low high =>
      obtain ⟨a, -, ha⟩ := exists_of_mem_forall₂ hread (Operand.first_mem_values hne)
      exact opposed_equality hj ha hp hp'
  | isIn =>
    obtain rfl := Option.some.inj hop
    obtain rfl := Except.ok.inj hp
    obtain rfl := Except.ok.inj hp'
    exact opposed_oneOf hj hread hne
  | between =>
    obtain rfl := Option.some.inj hop
    obtain ⟨low, high, rfl⟩ := hbounds rfl
    obtain rfl := Except.ok.inj hp
    obtain rfl := Except.ok.inj hp'
    have hknows : ∀ v ∈ [low, high], place.Knows (s.at c) (c.bind v) := fun v hv => by
      obtain ⟨a, -, ha⟩ := exists_of_mem_forall₂ hread hv
      exact hj.reads ha
    exact hj.standard.opposed_between (hknows low (by simp)) (hknows high (by simp))
  | like | ilike => cases hvalues
  | _ => cases hop

/-- Operators whose operand is a pattern. -/
theorem opposed_pattern (hop : op.negation? = some op')
    (hvalues : op.category.comparesValues = false) {a : String} (hfirst : operand.first = .text a)
    (hp : c.condition op operand = .ok p) (hp' : c.condition op' operand = .ok p') :
    Truth.Opposed ((s.at c).isNull = true) (truth j s p) (truth j s p') := by
  have hlike {caseless negated : Bool} {p : Predicate}
      (h : c.likePattern caseless negated operand.first = .ok p) :
      p = .like (.column c) caseless negated (c.bind (.text a)) := by
    rw [hfirst] at h
    exact (Except.ok.inj h).symm
  cases op with
  | like | ilike =>
    obtain rfl := Option.some.inj hop
    obtain rfl := hlike hp
    obtain rfl := hlike hp'
    exact hj.likens.opposed_like fun hnull => hj.patterns hnull _ a
  | eq | isIn | between => cases hvalues
  | _ => cases hop

end

/-- A list without members is true of no value, and its negation of all values. -/
theorem truth_condition_empty (hop : op.negation? = some op')
    (hvalues : op.category.comparesValues = true)
    (hbounds : op.takesRange = true → ∃ low high, operand = .range low high)
    (hlist : operand = .multiple []) {p p' : Predicate} (hp : c.condition op operand = .ok p)
    (hp' : c.condition op' operand = .ok p') : truth j s p = .fails ∧ truth j s p' = .holds := by
  subst hlist
  cases op with
  | eq | isIn =>
    obtain rfl := Option.some.inj hop
    obtain rfl := Except.ok.inj hp
    obtain rfl := Except.ok.inj hp'
    show truth j s (.constant false) = .fails ∧ truth j s (.constant true) = .holds
    rw [truth, truth]
    exact ⟨rfl, rfl⟩
  | between =>
    obtain ⟨low, high, h⟩ := hbounds rfl
    cases h
  | like | ilike => cases hvalues
  | _ => cases hop

end Column

end ListQuery
