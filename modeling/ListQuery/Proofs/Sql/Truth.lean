import ListQuery.Proofs.Sql.Engine

/-!
# Conditions in three-valued logic

A test on a value may be unknown, as any comparison with a missing value is, and a condition that is
made of tests is then neither true nor false: a conjunction is false where a member is, a disjunction
true where a member is, and otherwise what is unknown stays unknown. A statement keeps the rows of
which its conditions are true.

* `keeps_iff_forall`, `keeps_flatMap_conjuncts`, `truth_disj` — when a composed condition is true;
* `accepts_judging` — an engine that knows only which tests are true keeps the same rows;
* `truth_congr` — a condition on one table depends on its row only.
-/

namespace ListQuery.Sql

inductive Truth where
  | holds
  | fails
  | unknown
  deriving DecidableEq, Repr

namespace Truth

def ofBool (b : Bool) : Truth := if b then holds else fails

def both : Truth → Truth → Truth
  | fails, _     => fails
  | holds, t     => t
  | _,     fails => fails
  | _,     _     => unknown

def either : Truth → Truth → Truth
  | holds, _     => holds
  | fails, t     => t
  | _,     holds => holds
  | _,     _     => unknown

theorem ofBool_eq_holds {b : Bool} : ofBool b = holds ↔ b = true := by
  cases b <;> decide

theorem both_eq_holds {t u : Truth} : both t u = holds ↔ t = holds ∧ u = holds := by
  cases t <;> cases u <;> decide

theorem either_eq_holds {t u : Truth} : either t u = holds ↔ t = holds ∨ u = holds := by
  cases t <;> cases u <;> decide

end Truth

open Truth

/-- What becomes of a test on a value of its column. -/
abbrev Judge := Predicate → Value → Truth

variable (j : Judge) (s : Scene)

mutual

/-- What a condition is of a row. -/
def truth : Predicate → Truth
  | .constant b                 => .ofBool b
  | .isNull (.column c) negated => .ofBool ((s.at c).isNull != negated)
  | .all ps                     => truthOfAll ps
  | .any ps                     => truthOfAny ps
  | p                           => p.subject?.elim unknown fun c => j p (s.at c)

def truthOfAll : List Predicate → Truth
  | []      => holds
  | p :: ps => both (truth p) (truthOfAll ps)

def truthOfAny : List Predicate → Truth
  | []      => fails
  | p :: ps => either (truth p) (truthOfAny ps)

end

/-- A row is kept by conditions that are true of it. -/
def Keeps (ps : List Predicate) : Prop := truthOfAll j s ps = holds

-- ---------------------------------------------------------------------------
-- Engines
-- ---------------------------------------------------------------------------

/-- The engine whose tests are true where the judge has them true. -/
def Engine.judging (g : Engine) (j : Judge) : Engine :=
  { g with meets := fun p v => j p v == holds }

section
variable {j s} {g : Engine}

mutual

/-- The engine knows which conditions are true. -/
theorem accepts_judging : ∀ p : Predicate, (g.judging j).accepts s p = true ↔ truth j s p = holds
  | .all ps => by
    rw [Engine.accepts, truth]
    exact acceptsAll_judging ps
  | .any ps => by
    rw [Engine.accepts, truth]
    exact acceptsAny_judging ps
  | .constant b => by rw [Engine.accepts, truth, ofBool_eq_holds]
  | .isNull (.column c) negated => by rw [Engine.accepts, truth, ofBool_eq_holds]
  | .compare e op v | .isTruth e negated b | .between e negated low high | .member e negated vs
  | .like e caseless negated v | .affix e kind t | .fullText e v | .document e test v
  | .likeDocument e v => by
    simp only [Engine.accepts, truth, Predicate.subject?, Option.any_some, Option.elim_some]
    exact beq_iff_eq
  | .isNull (.asText c) negated | .isNull (.pathText c path) negated
  | .isNull (.pathNumber c path) negated => by
    simp only [Engine.accepts, truth, Predicate.subject?, Option.any_some, Option.elim_some]
    exact beq_iff_eq

theorem acceptsAll_judging : ∀ ps : List Predicate,
    (g.judging j).acceptsAll s ps = true ↔ truthOfAll j s ps = holds
  | []      => by rw [Engine.acceptsAll, truthOfAll]; decide
  | p :: ps => by
    rw [Engine.acceptsAll, truthOfAll, both_eq_holds, Bool.and_eq_true, accepts_judging p,
      acceptsAll_judging ps]

theorem acceptsAny_judging : ∀ ps : List Predicate,
    (g.judging j).acceptsAny s ps = true ↔ truthOfAny j s ps = holds
  | []      => by rw [Engine.acceptsAny, truthOfAny]; decide
  | p :: ps => by
    rw [Engine.acceptsAny, truthOfAny, either_eq_holds, Bool.or_eq_true, accepts_judging p,
      acceptsAny_judging ps]

end

-- ---------------------------------------------------------------------------
-- Composed conditions
-- ---------------------------------------------------------------------------

theorem keeps_iff_forall {ps : List Predicate} :
    Keeps j s ps ↔ ∀ p ∈ ps, truth j s p = holds := by
  unfold Keeps
  induction ps with
  | nil => exact iff_of_true rfl (List.forall_mem_nil _)
  | cons p ps ih => rw [truthOfAll, both_eq_holds, ih, List.forall_mem_cons]

theorem truthOfAny_eq_holds {ps : List Predicate} :
    truthOfAny j s ps = holds ↔ ∃ p ∈ ps, truth j s p = holds := by
  induction ps with
  | nil =>
    refine iff_of_false (fun h => by cases h) ?_
    rintro ⟨p, hp, -⟩
    exact absurd hp List.not_mem_nil
  | cons p ps ih => simp only [truthOfAny, either_eq_holds, ih, List.mem_cons, exists_eq_or_imp]

theorem keeps_append {ps qs : List Predicate} :
    Keeps j s (ps ++ qs) ↔ Keeps j s ps ∧ Keeps j s qs := by
  rw [keeps_iff_forall, keeps_iff_forall, keeps_iff_forall, List.forall_mem_append]

theorem keeps_conjuncts {p : Predicate} : Keeps j s p.conjuncts ↔ truth j s p = holds := by
  cases p with
  | all ps =>
    rw [truth]
    exact Iff.rfl
  | _ => exact keeps_iff_forall.trans List.forall_mem_singleton

/-- Conditions may be taken apart into those they are conjunctions of. -/
theorem keeps_flatMap_conjuncts {ps : List Predicate} :
    Keeps j s (ps.flatMap Predicate.conjuncts) ↔ ∀ p ∈ ps, truth j s p = holds := by
  induction ps with
  | nil => exact iff_of_true rfl (List.forall_mem_nil _)
  | cons p ps ih => rw [List.flatMap_cons, keeps_append, keeps_conjuncts, ih, List.forall_mem_cons]

theorem exists_disjuncts {p : Predicate} :
    (∃ q ∈ p.disjuncts, truth j s q = holds) ↔ truth j s p = holds := by
  cases p with
  | any ps =>
    rw [truth, truthOfAny_eq_holds]
    exact Iff.rfl
  | _ => simp only [Predicate.disjuncts, List.mem_singleton, exists_eq_left]

/-- A disjunction is true where one of its members is. -/
theorem truth_disj {ps : List Predicate} :
    truth j s (.disj ps) = holds ↔ ∃ p ∈ ps, truth j s p = holds := by
  have hflat : (∃ q ∈ ps.flatMap Predicate.disjuncts, truth j s q = holds) ↔
      ∃ p ∈ ps, truth j s p = holds := by
    induction ps with
    | nil => exact Iff.rfl
    | cons p ps ih =>
      simp only [List.flatMap_cons, List.mem_append, or_and_right, exists_or, exists_disjuncts, ih,
        List.mem_cons, exists_eq_left]
  rw [← hflat, Predicate.disj]
  split
  case h_1 p heq => simp only [heq, List.mem_singleton, exists_eq_left]
  case h_2 => rw [truth, truthOfAny_eq_holds]

/-- A conjunction is true where all of its members are. -/
theorem truth_conj {ps : List Predicate} :
    truth j s (.conj ps) = holds ↔ ∀ p ∈ ps, truth j s p = holds := by
  rw [← keeps_flatMap_conjuncts, Predicate.conj]
  split
  case h_1 p heq => rw [heq, keeps_iff_forall, List.forall_mem_singleton]
  case h_2 =>
    rw [truth]
    exact Iff.rfl

theorem truth_conj_pair {p p' : Predicate} :
    truth j s (.conj [p, p']) = holds ↔ truth j s p = holds ∧ truth j s p' = holds := by
  simp [truth_conj]

theorem truth_disj_pair {p p' : Predicate} :
    truth j s (.disj [p, p']) = holds ↔ truth j s p = holds ∨ truth j s p' = holds := by
  simp [truth_disj]

theorem truth_all_pair {p p' : Predicate} :
    truth j s (.all [p, p']) = both (truth j s p) (truth j s p') := by
  simp only [truth, truthOfAll]
  cases truth j s p <;> cases truth j s p' <;> rfl

theorem truth_any_pair {p p' : Predicate} :
    truth j s (.any [p, p']) = either (truth j s p) (truth j s p') := by
  simp only [truth, truthOfAny]
  cases truth j s p <;> cases truth j s p' <;> rfl

end

-- ---------------------------------------------------------------------------
-- Conditions on one table
-- ---------------------------------------------------------------------------

namespace Predicate

mutual

/-- All tests of the condition are on columns of the table. -/
def IsOn (label : String) : Predicate → Prop
  | .all ps => AreOn label ps
  | .any ps => AreOn label ps
  | p       => ∀ c ∈ p.subject?, c.table = label

def AreOn (label : String) : List Predicate → Prop
  | []      => True
  | p :: ps => IsOn label p ∧ AreOn label ps

end

variable {label : String} {ps : List Predicate}

theorem areOn_iff_forall : AreOn label ps ↔ ∀ p ∈ ps, p.IsOn label := by
  induction ps with
  | nil => exact iff_of_true trivial (List.forall_mem_nil _)
  | cons p ps ih => rw [AreOn, ih, List.forall_mem_cons]

end Predicate

section
variable {j : Judge} {s s' : Scene} {label : String}

theorem at_congr (hs : s label = s' label) {c : Column} (hc : c.table = label) : s.at c = s'.at c :=
  congrFun (hc ▸ hs : s c.table = s' c.table) c.name

mutual

/-- A condition on one table is the same of rows that agree in that table. -/
theorem truth_congr (hs : s label = s' label) :
    ∀ p : Predicate, p.IsOn label → truth j s p = truth j s' p
  | .all ps, h => by
    rw [Predicate.IsOn] at h
    rw [truth, truth]
    exact truthOfAll_congr hs ps h
  | .any ps, h => by
    rw [Predicate.IsOn] at h
    rw [truth, truth]
    exact truthOfAny_congr hs ps h
  | .constant b, _ => by rw [truth, truth]
  | .isNull (.column c) negated, h => by
    simp only [Predicate.IsOn] at h
    rw [truth, truth, at_congr hs (h c rfl)]
  | .compare e op v, h | .isTruth e negated b, h | .between e negated low high, h
  | .member e negated vs, h | .like e caseless negated v, h | .affix e kind t, h
  | .fullText e v, h | .document e test v, h | .likeDocument e v, h => by
    simp only [Predicate.IsOn] at h
    simp only [truth, Predicate.subject?, Option.elim_some, at_congr hs (h e.subject rfl)]
  | .isNull (.asText c) negated, h | .isNull (.pathText c path) negated, h
  | .isNull (.pathNumber c path) negated, h => by
    simp only [Predicate.IsOn] at h
    simp only [truth, Predicate.subject?, Expr.subject, Option.elim_some, at_congr hs (h c rfl)]

theorem truthOfAll_congr (hs : s label = s' label) :
    ∀ ps : List Predicate, Predicate.AreOn label ps → truthOfAll j s ps = truthOfAll j s' ps
  | [],      _ => rfl
  | p :: ps, h => by
    rw [Predicate.AreOn] at h
    rw [truthOfAll, truthOfAll, truth_congr hs p h.1, truthOfAll_congr hs ps h.2]

theorem truthOfAny_congr (hs : s label = s' label) :
    ∀ ps : List Predicate, Predicate.AreOn label ps → truthOfAny j s ps = truthOfAny j s' ps
  | [],      _ => rfl
  | p :: ps, h => by
    rw [Predicate.AreOn] at h
    rw [truthOfAny, truthOfAny, truth_congr hs p h.1, truthOfAny_congr hs ps h.2]

end

/-- An engine judges as it knows tests to be true or not. -/
theorem Engine.judging_meets (g : Engine) : g.judging (fun p v => ofBool (g.meets p v)) = g := by
  have hmeets : (fun p v => ofBool (g.meets p v) == holds) = g.meets := by
    funext p v
    cases g.meets p v <;> rfl
  rw [judging, hmeets]

/-- Rows that agree in a table are kept alike by conditions on it. -/
theorem Engine.acceptsAll_congr {g : Engine} (hs : s label = s' label) {ps : List Predicate}
    (hps : ∀ p ∈ ps, p.IsOn label) : g.acceptsAll s ps = g.acceptsAll s' ps := by
  rw [← g.judging_meets, Bool.eq_iff_iff, acceptsAll_judging, acceptsAll_judging,
    truthOfAll_congr hs ps (Predicate.areOn_iff_forall.mpr hps)]

end

end ListQuery.Sql
