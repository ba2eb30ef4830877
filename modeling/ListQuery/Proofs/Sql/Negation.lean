import ListQuery.Proofs.Sql.Standard

/-!
# Tests and their negations

A test and its negation are never both true, but they may be both unknown. They are opposed if that
happens just where a value is missing; elsewhere one of them is true then. Opposed tests stay
opposed when they are composed, if conjunction and disjunction change places.

* `Truth.Opposed` — tests that are negations of each other, and when they are unknown;
* `Opposed.both`, `opposed_anyOf` — composed tests;
* `Judge.Likens` — patterns as SQL has them;
* `IsStandard.opposed_compare`, `opposed_isTruth`, `opposed_between`, `opposed_member` — the tests
  that have a negation;
* `Judge.withPatterns`, `Likening.ofTexts` — a judge that knows patterns.
-/

namespace ListQuery.Sql

-- ---------------------------------------------------------------------------
-- Opposed truth values
-- ---------------------------------------------------------------------------

namespace Truth

/-- The one is true where the other is false, and both are unknown just if something is missing. -/
structure Opposed (missing : Prop) (t t' : Truth) : Prop where
  negated     : t' = t.negate
  unknown_iff : t = unknown ↔ missing

variable {missing : Prop} {t t' u u' : Truth} {ts : List Truth}

/-- Where nothing is missing, one of the two is true. -/
theorem Opposed.holds_iff (h : Opposed missing t t') (hpresent : ¬missing) :
    t' = holds ↔ t ≠ holds := by
  have hknown : t ≠ unknown := mt h.unknown_iff.mp hpresent
  rw [h.negated, negate_eq_holds]
  cases t <;> simp_all

/-- Where something is missing, none is. -/
theorem Opposed.ne_holds (h : Opposed missing t t') (hmissing : missing) :
    t ≠ holds ∧ t' ≠ holds := by
  rw [h.negated, h.unknown_iff.mpr hmissing]
  decide

theorem Opposed.negateIf (h : t = unknown ↔ missing) :
    Opposed missing (t.negateIf false) (t.negateIf true) := ⟨rfl, h⟩

theorem negate_both : (both t u).negate = either t.negate u.negate := by
  cases t <;> cases u <;> rfl

/-- Tests that are unknown in the same case are so together, if they are composed by what is unknown
of unknown members and known of known ones. -/
theorem composed_eq_unknown_iff {f : Truth → Truth → Truth} (hunknown : f unknown unknown = unknown)
    (hknown : ∀ {t u}, t ≠ unknown → u ≠ unknown → f t u ≠ unknown) (ht : t = unknown ↔ missing)
    (hu : u = unknown ↔ missing) : f t u = unknown ↔ missing := by
  by_cases h : missing
  · rw [ht.mpr h, hu.mpr h]
    exact iff_of_true hunknown h
  · exact iff_of_false (hknown (mt ht.mp h) (mt hu.mp h)) h

theorem both_eq_unknown_iff (ht : t = unknown ↔ missing) (hu : u = unknown ↔ missing) :
    both t u = unknown ↔ missing := by
  refine composed_eq_unknown_iff rfl (fun {t u} => ?_) ht hu
  cases t <;> cases u <;> decide

theorem either_eq_unknown_iff (ht : t = unknown ↔ missing) (hu : u = unknown ↔ missing) :
    either t u = unknown ↔ missing := by
  refine composed_eq_unknown_iff rfl (fun {t u} => ?_) ht hu
  cases t <;> cases u <;> decide

/-- The negation of a conjunction is the disjunction of the negations. -/
theorem Opposed.both (ht : Opposed missing t t') (hu : Opposed missing u u') :
    Opposed missing (Truth.both t u) (either t' u') where
  negated := by rw [negate_both, ht.negated, hu.negated]
  unknown_iff := both_eq_unknown_iff ht.unknown_iff hu.unknown_iff

/-- A list is unknown where its members are. -/
theorem anyOf_eq_unknown_iff (hne : ts ≠ []) (h : ∀ t ∈ ts, (t = unknown ↔ missing)) :
    anyOf ts = unknown ↔ missing := by
  induction ts with
  | nil => exact absurd rfl hne
  | cons t ts ih =>
    obtain ⟨ht, hts⟩ := List.forall_mem_cons.mp h
    show either t (anyOf ts) = unknown ↔ missing
    cases ts with
    | nil => cases t <;> simpa [anyOf, either] using ht
    | cons u ts => exact either_eq_unknown_iff ht (ih (List.cons_ne_nil u ts) hts)

end Truth

open Truth

-- ---------------------------------------------------------------------------
-- Patterns
-- ---------------------------------------------------------------------------

/-- Whether a value is like a pattern, with and without regard to letter case, if it can be told. -/
abbrev Likening := Bool → Value → Bind → Option Bool

def Truth.ofOption (b : Option Bool) : Truth := b.elim unknown ofBool

/-- Tests of an expression against patterns as SQL has them. A missing value is neither like a
pattern nor unlike it. -/
structure Judge.Likens (j : Judge) (x : Expr) (alike : Likening) : Prop where
  missing : ∀ {v} caseless b, v.isNull = true → alike caseless v b = none
  like    : ∀ caseless negated b v,
    j (.like x caseless negated b) v = (ofOption (alike caseless v b)).negateIf negated

-- ---------------------------------------------------------------------------
-- Tests
-- ---------------------------------------------------------------------------

theorem ofBool_ne_unknown (b : Bool) : ofBool b ≠ unknown := by
  cases b <;> decide

theorem judge_eq_unknown_iff {op : Comparison} {o : Option Ordering} :
    op.judge o = unknown ↔ o = none := by
  cases o with
  | none => exact iff_of_true rfl rfl
  | some o => exact iff_of_false (ofBool_ne_unknown _) nofun

theorem judge_opposite (op : Comparison) (o : Option Ordering) :
    op.opposite.judge o = (op.judge o).negate := by
  cases o with
  | none => rfl
  | some o =>
    rw [Comparison.judge, Comparison.judge, Comparison.agrees_opposite]
    cases op.agrees o <;> rfl

/-- The value can be compared with the bound one, unless it is missing. -/
def Placing.Knows (place : Placing) (v : Value) (b : Bind) : Prop :=
  v.isNull = false → ∃ o, place v b = some o

section
variable {j : Judge} {x : Expr} {place : Placing} {s : Scene}

namespace Judge.IsStandard

variable (h : j.IsStandard x place)

include h

theorem judge_eq_unknown_iff_isNull {v : Value} {b : Bind} (hknows : place.Knows v b)
    (op : Comparison) : op.judge (place v b) = unknown ↔ v.isNull = true := by
  rw [judge_eq_unknown_iff]
  cases hnull : v.isNull with
  | true => exact iff_of_true (h.missing b hnull) rfl
  | false =>
    obtain ⟨o, ho⟩ := hknows hnull
    exact iff_of_false (by simp [ho]) nofun

theorem opposed_compare {b : Bind} (hknows : place.Knows (s.at x.subject) b) (op : Comparison) :
    Opposed ((s.at x.subject).isNull = true) (truth j s (.compare x op b))
      (truth j s (.compare x op.opposite b)) := by
  simp only [truth, Predicate.subject?, Option.elim_some, h.compare]
  exact ⟨judge_opposite op _, h.judge_eq_unknown_iff_isNull hknows op⟩

theorem opposed_isTruth {t : Bool} (hknows : place.Knows (s.at x.subject) ⟨.bool t, .boolean⟩) :
    Opposed ((s.at x.subject).isNull = true) (truth j s (.isTruth x false t))
      (truth j s (.isTruth x true t)) := by
  simp only [truth, Predicate.subject?, Option.elim_some, h.isTruth]
  exact .negateIf (h.judge_eq_unknown_iff_isNull hknows .eq)

theorem opposed_between {low high : Bind} (hlow : place.Knows (s.at x.subject) low)
    (hhigh : place.Knows (s.at x.subject) high) :
    Opposed ((s.at x.subject).isNull = true) (truth j s (.between x false low high))
      (truth j s (.between x true low high)) := by
  simp only [truth, Predicate.subject?, Option.elim_some, h.between]
  exact .negateIf (both_eq_unknown_iff (h.judge_eq_unknown_iff_isNull hlow .ge)
    (h.judge_eq_unknown_iff_isNull hhigh .le))

theorem opposed_member {vs : BindList} (hne : vs.values ≠ [])
    (hknows : ∀ b ∈ vs.binds, place.Knows (s.at x.subject) b) :
    Opposed ((s.at x.subject).isNull = true) (truth j s (.member x false vs))
      (truth j s (.member x true vs)) := by
  simp only [truth, Predicate.subject?, Option.elim_some, h.member]
  refine .negateIf (anyOf_eq_unknown_iff ?_ (List.forall_mem_map.mpr fun b hb => ?_))
  · simpa [BindList.binds] using hne
  · exact h.judge_eq_unknown_iff_isNull (hknows b hb) .eq

end Judge.IsStandard

theorem Judge.Likens.opposed_like {alike : Likening} (h : j.Likens x alike) {caseless : Bool}
    {b : Bind}
    (hknown : (s.at x.subject).isNull = false → ∃ t, alike caseless (s.at x.subject) b = some t) :
    Opposed ((s.at x.subject).isNull = true) (truth j s (.like x caseless false b))
      (truth j s (.like x caseless true b)) := by
  simp only [truth, Predicate.subject?, Option.elim_some, h.like]
  refine .negateIf ?_
  cases hnull : (s.at x.subject).isNull with
  | true =>
    rw [h.missing caseless b hnull]
    exact iff_of_true rfl rfl
  | false =>
    obtain ⟨t, ht⟩ := hknown hnull
    rw [ht]
    exact iff_of_false (ofBool_ne_unknown t) nofun

end

-- ---------------------------------------------------------------------------
-- A judge of patterns
-- ---------------------------------------------------------------------------

/-- The judge that tests patterns in its own way and is as another one otherwise. -/
def Judge.withPatterns (alike : Likening) (j : Judge) : Judge
  | .like _ caseless negated b, v => (ofOption (alike caseless v b)).negateIf negated
  | p,                          v => j p v

theorem isStandard_withPatterns {j : Judge} {x : Expr} {place : Placing}
    (h : j.IsStandard x place) (alike : Likening) : (j.withPatterns alike).IsStandard x place :=
  ⟨h.missing, h.compare, h.isTruth, h.between, h.member⟩

theorem likens_withPatterns {alike : Likening}
    (h : ∀ {v} caseless b, v.isNull = true → alike caseless v b = none) (j : Judge) (x : Expr) :
    (j.withPatterns alike).Likens x alike := ⟨h, fun _ _ _ _ => rfl⟩

/-- In a pattern a percent sign stands for any text, and an underscore for any sign. -/
def likeChars : List Char → List Char → Bool
  | [],        cs      => cs.isEmpty
  | '%' :: ps, cs      => (List.range (cs.length + 1)).any fun n => likeChars ps (cs.drop n)
  | p :: ps,   c :: cs => (p == '_' || p == c) && likeChars ps cs
  | _ :: _,    []      => false

/-- Patterns for texts. -/
def Likening.ofTexts : Likening
  | true,  .text s, ⟨.text p, _⟩ => some (likeChars (Text.lower p).toList (Text.lower s).toList)
  | false, .text s, ⟨.text p, _⟩ => some (likeChars p.toList s.toList)
  | _,     _,       _            => none

theorem Likening.ofTexts_of_isNull {v : Value} (caseless : Bool) (b : Bind)
    (h : v.isNull = true) : Likening.ofTexts caseless v b = none := by
  cases v with
  | null => cases caseless <;> rfl
  | _ => cases h

end ListQuery.Sql
