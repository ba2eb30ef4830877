import ListQuery.Proofs.Sql.Truth

/-!
# Columns that conditions test

A condition is made of tests, each of which is on a column; a condition on one table is one that tests
no column of another table.

* `subjects_conj`, `subjects_disj` — a composed condition tests what its members test;
* `isOn_iff_tests` — conditions on one table;
* `Tests` — what the tested columns are, for single tests and composed conditions.
-/

namespace ListQuery.Sql.Predicate

mutual

/-- The columns that a condition tests. -/
def subjects : Predicate → List Column
  | .all ps => listSubjects ps
  | .any ps => listSubjects ps
  | p       => p.subject?.toList

def listSubjects : List Predicate → List Column
  | []      => []
  | p :: ps => subjects p ++ listSubjects ps

end

/-- The columns that the condition tests are as said. -/
def Tests (P : Column → Prop) (p : Predicate) : Prop := ∀ c ∈ p.subjects, P c

variable {P Q : Column → Prop} {p : Predicate} {ps : List Predicate} {c : Column} {label : String}

theorem listSubjects_eq_flatMap (ps : List Predicate) : listSubjects ps = ps.flatMap subjects := by
  induction ps with
  | nil => rw [listSubjects, List.flatMap_nil]
  | cons p ps ih => rw [listSubjects, ih, List.flatMap_cons]

theorem listSubjects_append (ps qs : List Predicate) :
    listSubjects (ps ++ qs) = listSubjects ps ++ listSubjects qs := by
  simp only [listSubjects_eq_flatMap, List.flatMap_append]

theorem forall_mem_listSubjects {P : Column → Prop} {ps : List Predicate} :
    (∀ c ∈ listSubjects ps, P c) ↔ ∀ p ∈ ps, p.Tests P := by
  simp only [listSubjects_eq_flatMap, List.mem_flatMap, Tests]
  constructor
  · intro h p hp c hc
    exact h c ⟨p, hp, hc⟩
  · rintro h c ⟨p, hp, hc⟩
    exact h p hp c hc

theorem subjects_of_subject (h : p.subject? = some c) : p.subjects = [c] := by
  cases p with
  | all ps => cases h
  | any ps => cases h
  | constant b => cases h
  | _ => simp [subjects, h]

theorem subjects_constant (b : Bool) : (constant b).subjects = [] := by
  simp [subjects, subject?]

-- ---------------------------------------------------------------------------
-- Composed conditions
-- ---------------------------------------------------------------------------

theorem listSubjects_conjuncts (p : Predicate) : listSubjects p.conjuncts = p.subjects := by
  cases p with
  | all ps => rw [subjects, conjuncts]
  | _ => simp [conjuncts, listSubjects_eq_flatMap]

theorem listSubjects_disjuncts (p : Predicate) : listSubjects p.disjuncts = p.subjects := by
  cases p with
  | any ps => rw [subjects, disjuncts]
  | _ => simp [disjuncts, listSubjects_eq_flatMap]

theorem listSubjects_flatMap_conjuncts (ps : List Predicate) :
    listSubjects (ps.flatMap conjuncts) = listSubjects ps := by
  induction ps with
  | nil => rfl
  | cons p ps ih =>
    rw [List.flatMap_cons, listSubjects_append, listSubjects_conjuncts, ih, listSubjects]

theorem listSubjects_flatMap_disjuncts (ps : List Predicate) :
    listSubjects (ps.flatMap disjuncts) = listSubjects ps := by
  induction ps with
  | nil => rfl
  | cons p ps ih =>
    rw [List.flatMap_cons, listSubjects_append, listSubjects_disjuncts, ih, listSubjects]

/-- A conjunction tests what its members test. -/
theorem subjects_conj (ps : List Predicate) : (conj ps).subjects = listSubjects ps := by
  rw [← listSubjects_flatMap_conjuncts, conj]
  split
  case h_1 p heq => simp [heq, listSubjects_eq_flatMap]
  case h_2 => rw [subjects]

/-- A disjunction tests what its members test. -/
theorem subjects_disj (ps : List Predicate) : (disj ps).subjects = listSubjects ps := by
  rw [← listSubjects_flatMap_disjuncts, disj]
  split
  case h_1 p heq => simp [heq, listSubjects_eq_flatMap]
  case h_2 => rw [subjects]

-- ---------------------------------------------------------------------------
-- What is tested
-- ---------------------------------------------------------------------------

theorem Tests.imp (h : p.Tests P) (hPQ : ∀ c, P c → Q c) : p.Tests Q := fun c hc => hPQ c (h c hc)

theorem tests_of_subject (h : p.subject? = some c) (hc : P c) : p.Tests P := by
  intro c' hc'
  rw [subjects_of_subject h, List.mem_singleton] at hc'
  exact hc' ▸ hc

theorem tests_constant (b : Bool) : (constant b).Tests P := by
  intro c hc
  rw [subjects_constant] at hc
  exact absurd hc List.not_mem_nil

theorem tests_conj : (conj ps).Tests P ↔ ∀ p ∈ ps, p.Tests P := by
  rw [Tests, subjects_conj, forall_mem_listSubjects]

theorem tests_disj : (disj ps).Tests P ↔ ∀ p ∈ ps, p.Tests P := by
  rw [Tests, subjects_disj, forall_mem_listSubjects]

/-- Conditions may be taken apart into those they are conjunctions of. -/
theorem tests_flatMap_conjuncts :
    (∀ p ∈ ps.flatMap conjuncts, p.Tests P) ↔ ∀ p ∈ ps, p.Tests P := by
  rw [← forall_mem_listSubjects, ← forall_mem_listSubjects, listSubjects_flatMap_conjuncts]

-- ---------------------------------------------------------------------------
-- Conditions on one table
-- ---------------------------------------------------------------------------

mutual

/-- A condition on one table tests no column of another one. -/
theorem isOn_iff_tests : ∀ p : Predicate, p.IsOn label ↔ p.Tests (·.table = label)
  | .all ps => by
    rw [IsOn, Tests, subjects]
    exact areOn_iff_listSubjects ps
  | .any ps => by
    rw [IsOn, Tests, subjects]
    exact areOn_iff_listSubjects ps
  | .constant _ | .compare _ _ _ | .isTruth _ _ _ | .isNull _ _ | .between _ _ _ _ | .member _ _ _
  | .like _ _ _ _ | .affix _ _ _ | .fullText _ _ | .document _ _ _ | .likeDocument _ _ => by
    simp only [IsOn, Tests, subjects, Option.mem_toList, Option.mem_def]

theorem areOn_iff_listSubjects :
    ∀ ps : List Predicate, AreOn label ps ↔ ∀ c ∈ listSubjects ps, c.table = label
  | []      => by simp [AreOn, listSubjects]
  | p :: ps => by
    rw [AreOn, listSubjects, List.forall_mem_append, isOn_iff_tests p, areOn_iff_listSubjects ps]
    exact Iff.rfl

end

end ListQuery.Sql.Predicate
