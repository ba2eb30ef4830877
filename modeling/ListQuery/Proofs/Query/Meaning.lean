import ListQuery.Proofs.Condition.Local
import ListQuery.Proofs.Execution.OneTable
import ListQuery.Proofs.Query.Acceptance
import ListQuery.Proofs.Query.Change
import ListQuery.Proofs.Sql.Writable

/-!
# Which rows a query selects

A row is selected when every required filter is true of it, one of the alternatives is if there are
any, the scope leaves it, and one of the conditions of the search is true if there are any. All
statements of a query ask for just these rows; a page by cursor asks for those of them that come
after its cursor.

* `Selects` — the rows of a query, in three-valued logic;
* `keeps_conditions` — the conditions of a query keep the rows that it selects;
* `statements_select` — the statements of a query, in any order of its filters and any scope.
-/

namespace ListQuery

open Sql

/-- The row of one of the tables alone. -/
def Sql.Scene.only (s : Scene) (label : String) : Scene := .single label (s label)

/-- The condition of the filter is true of the row. -/
def Filter.Holds (e : Entity) (j : Judge) (s : Scene) (f : Filter) : Prop :=
  ∃ p, e.condition? f = .ok (some p) ∧ truth j s p = .holds

namespace Query

variable (q : Query)

/-- The scope leaves the row. -/
def InScope (s : Scene) : Prop :=
  ∀ column ∈ q.entity.softDelete, column ≠ "" →
    match q.scope with
    | .live        => (s.at (q.entity.columnNamed column)).isNull = true
    | .onlyTrashed => (s.at (q.entity.columnNamed column)).isNull = false
    | .withTrashed => True

/-- The search finds the row; one that has no conditions finds any. -/
def Finds (j : Judge) (s : Scene) : Prop :=
  ∀ term ∈ q.search, term ≠ "" →
    ∃ ps, q.entity.searchConditions term = .ok ps ∧ (ps ≠ [] → ∃ p ∈ ps, truth j s p = .holds)

/-- The query asks for the row. -/
structure Selects (j : Judge) (s : Scene) : Prop where
  required     : ∀ f ∈ q.filters, f.alternative = false → f.Holds q.entity j s
  alternatives : (∃ f ∈ q.filters, f.alternative = true) →
    ∃ f ∈ q.filters, f.alternative = true ∧ f.Holds q.entity j s
  scope        : q.InScope s
  search       : q.Finds j s

/-- Each filter of the query leads to a column. -/
def HasColumns : Prop := ∀ f ∈ q.filters, q.entity.condition? f ≠ .ok none

variable {q} {j : Judge} {s s' : Scene}

-- ---------------------------------------------------------------------------
-- Conditions
-- ---------------------------------------------------------------------------

/-- The conditions of a query of which those of its filters and its search are known. -/
def conditionsOf (q : Query) (filtered : List (Bool × Predicate)) (searched : List Predicate) :
    List Predicate :=
  ((filtered.filter (!·.1)).map (·.2) ++ anyOf ((filtered.filter (·.1)).map (·.2)) ++
    q.scopeConditions ++ searched).flatMap Predicate.conjuncts

theorem conditions_eq_ok {ps : List Predicate} :
    q.conditions = .ok ps ↔
      ∃ filtered searched, q.filterConditions q.filters = .ok filtered ∧
        q.searchConditions = .ok searched ∧ ps = q.conditionsOf filtered searched := by
  rw [conditions, bind_eq_ok]
  constructor
  · rintro ⟨filtered, hfiltered, h⟩
    obtain ⟨searched, hsearched, h⟩ := bind_eq_ok.mp h
    exact ⟨filtered, searched, hfiltered, hsearched, (Except.ok.inj h).symm⟩
  · rintro ⟨filtered, searched, hfiltered, hsearched, rfl⟩
    exact ⟨filtered, hfiltered, bind_eq_ok.mpr ⟨searched, hsearched, rfl⟩⟩

/-- The conditions of filters that lead to columns: one for each, with its mark. -/
theorem filterConditions_eq_ok {fs : List Filter} {filtered : List (Bool × Predicate)}
    (hfs : ∀ f ∈ fs, q.entity.condition? f ≠ .ok none) :
    q.filterConditions fs = .ok filtered ↔
      List.Forall₂ (fun f x => q.entity.condition? f = .ok (some x.2) ∧ x.1 = f.alternative) fs
        filtered := by
  constructor
  · intro h
    obtain ⟨found, hfound, rfl⟩ := map_eq_ok.mp h
    have hall := mapM_eq_ok.mp hfound
    clear h hfound
    induction hall with
    | nil => exact .nil
    | @cons f x fs found hx _ ih =>
      obtain ⟨hf, hfs⟩ := List.forall_mem_cons.mp hfs
      obtain ⟨p, hp, rfl⟩ := map_eq_ok.mp hx
      cases p with
      | none => exact absurd hp hf
      | some p => exact .cons ⟨hp, rfl⟩ (ih hfs)
  · intro h
    refine map_eq_ok.mpr ⟨filtered.map some, mapM_eq_ok.mpr ?_,
      List.filterMap_map.trans List.filterMap_some⟩
    refine List.forall₂_map_right_iff.mpr (h.imp fun f x hx => ?_)
    rw [hx.1]
    exact congrArg (fun b => Except.ok (some (b, x.2))) hx.2.symm

theorem holds_iff {f : Filter} {p : Predicate} (h : q.entity.condition? f = .ok (some p)) :
    f.Holds q.entity j s ↔ truth j s p = .holds := by
  constructor
  · rintro ⟨p', hp', htrue⟩
    exact Option.some.inj (Except.ok.inj (h.symm.trans hp')) ▸ htrue
  · exact fun htrue => ⟨p, h, htrue⟩

section
variable {fs : List Filter} {filtered : List (Bool × Predicate)} {m : Bool → Bool}
  (h : List.Forall₂ (fun f x => q.entity.condition? f = .ok (some x.2) ∧ x.1 = f.alternative) fs
    filtered)

include h

/-- The conditions of the filters with a mark. -/
theorem mem_marked {p : Predicate} :
    p ∈ (filtered.filter fun x => m x.1).map (·.2) ↔
      ∃ f ∈ fs, m f.alternative = true ∧ q.entity.condition? f = .ok (some p) := by
  rw [List.mem_map]
  constructor
  · rintro ⟨x, hx, rfl⟩
    obtain ⟨hmem, hmark⟩ := List.mem_filter.mp hx
    obtain ⟨f, hf, hcondition, hsame⟩ := exists_of_mem_forall₂ h hmem
    exact ⟨f, hf, hsame ▸ hmark, hcondition⟩
  · rintro ⟨f, hf, hmark, hcondition⟩
    obtain ⟨x, hx, hcondition', hsame⟩ := exists_of_mem_forall₂ h.flip hf
    exact ⟨x, List.mem_filter.mpr ⟨hx, hsame ▸ hmark⟩,
      Option.some.inj (Except.ok.inj (hcondition'.symm.trans hcondition))⟩

theorem exists_marked {f : Filter} (hf : f ∈ fs) (hmark : m f.alternative = true) :
    ∃ p ∈ (filtered.filter fun x => m x.1).map (·.2),
      q.entity.condition? f = .ok (some p) := by
  obtain ⟨x, -, hcondition, -⟩ := exists_of_mem_forall₂ h.flip hf
  exact ⟨x.2, (mem_marked h).mpr ⟨f, hf, hmark, hcondition⟩, hcondition⟩

theorem marked_ne_nil :
    (filtered.filter fun x => m x.1).map (·.2) ≠ [] ↔ ∃ f ∈ fs, m f.alternative = true := by
  constructor
  · intro hne
    obtain ⟨p, hp⟩ := List.exists_mem_of_ne_nil _ hne
    obtain ⟨f, hf, hmark, -⟩ := (mem_marked h).mp hp
    exact ⟨f, hf, hmark⟩
  · rintro ⟨f, hf, hmark⟩
    obtain ⟨p, hp, -⟩ := exists_marked h hf hmark
    exact List.ne_nil_of_mem hp

theorem forall_marked_holds :
    (∀ p ∈ (filtered.filter fun x => m x.1).map (·.2), truth j s p = .holds) ↔
      ∀ f ∈ fs, m f.alternative = true → f.Holds q.entity j s := by
  constructor
  · intro hall f hf hmark
    obtain ⟨p, hp, hcondition⟩ := exists_marked h hf hmark
    exact (holds_iff hcondition).mpr (hall p hp)
  · intro hall p hp
    obtain ⟨f, hf, hmark, hcondition⟩ := (mem_marked h).mp hp
    exact (holds_iff hcondition).mp (hall f hf hmark)

theorem exists_marked_holds :
    (∃ p ∈ (filtered.filter fun x => m x.1).map (·.2), truth j s p = .holds) ↔
      ∃ f ∈ fs, m f.alternative = true ∧ f.Holds q.entity j s := by
  constructor
  · rintro ⟨p, hp, htrue⟩
    obtain ⟨f, hf, hmark, hcondition⟩ := (mem_marked h).mp hp
    exact ⟨f, hf, hmark, (holds_iff hcondition).mpr htrue⟩
  · rintro ⟨f, hf, hmark, hholds⟩
    obtain ⟨p, hp, hcondition⟩ := exists_marked h hf hmark
    exact ⟨p, hp, (holds_iff hcondition).mp hholds⟩

end

theorem forall_anyOf {ps : List Predicate} :
    (∀ p ∈ anyOf ps, truth j s p = .holds) ↔ (ps ≠ [] → ∃ p ∈ ps, truth j s p = .holds) := by
  unfold anyOf
  cases ps with
  | nil => exact iff_of_true (List.forall_mem_nil _) fun h => absurd rfl h
  | cons p ps =>
    rw [if_neg (by simp), List.forall_mem_singleton, truth_disj]
    exact ⟨fun h _ => h, fun h => h (List.cons_ne_nil p ps)⟩

theorem keeps_scopeConditions :
    (∀ p ∈ q.scopeConditions, truth j s p = .holds) ↔ q.InScope s := by
  have hnull : ∀ (name : String) (negated : Bool),
      truth j s (.isNull (.column (q.entity.columnNamed name)) negated) = .holds ↔
        (s.at (q.entity.columnNamed name)).isNull = !negated := by
    intro name negated
    rw [truth, Truth.ofBool_eq_holds]
    cases (s.at (q.entity.columnNamed name)).isNull <;> cases negated <;> decide
  unfold scopeConditions InScope
  cases hcolumn : q.entity.softDelete with
  | none =>
    exact iff_of_true (List.forall_mem_nil _) fun column h => absurd h (Option.not_mem_none column)
  | some column =>
    simp only [Option.mem_some_iff, forall_eq']
    split
    case isTrue hempty =>
      exact iff_of_true (List.forall_mem_nil _) fun h => absurd hempty h
    case isFalse hempty =>
      refine Iff.trans ?_ (forall_prop_of_true hempty).symm
      cases q.scope with
      | live => exact List.forall_mem_singleton.trans (hnull column false)
      | onlyTrashed => exact List.forall_mem_singleton.trans (hnull column true)
      | withTrashed => exact iff_of_true (List.forall_mem_nil _) trivial

theorem keeps_searchConditions {ps : List Predicate} (h : q.searchConditions = .ok ps) :
    (∀ p ∈ ps, truth j s p = .holds) ↔ q.Finds j s := by
  unfold searchConditions at h
  unfold Finds
  cases hsearch : q.search with
  | none =>
    rw [hsearch] at h
    cases h
    exact iff_of_true (List.forall_mem_nil _) fun term h => absurd h (Option.not_mem_none term)
  | some term =>
    rw [hsearch] at h
    simp only [Option.mem_some_iff, forall_eq']
    dsimp only at h
    split at h
    case isTrue hempty =>
      cases h
      exact iff_of_true (List.forall_mem_nil _) fun h => absurd hempty h
    case isFalse hempty =>
      obtain ⟨found, hfound, rfl⟩ := map_eq_ok.mp h
      rw [forall_anyOf, forall_prop_of_true hempty, hfound]
      constructor
      · exact fun hany => ⟨found, rfl, hany⟩
      · rintro ⟨found', hsame, hany⟩
        exact Except.ok.inj hsame ▸ hany

/-- The conditions of a query keep the rows that it selects. -/
theorem keeps_conditions {ps : List Predicate} (hcolumns : q.HasColumns)
    (hps : q.conditions = .ok ps) : Keeps j s ps ↔ q.Selects j s := by
  obtain ⟨filtered, searched, hfiltered, hsearched, rfl⟩ := conditions_eq_ok.mp hps
  have hmarked := (filterConditions_eq_ok hcolumns).mp hfiltered
  have hrequired : (∀ p ∈ (filtered.filter (!·.1)).map (·.2), truth j s p = .holds) ↔
      ∀ f ∈ q.filters, f.alternative = false → f.Holds q.entity j s := by
    rw [forall_marked_holds hmarked (m := not)]
    simp only [Bool.not_eq_true']
  have halternatives : (∀ p ∈ anyOf ((filtered.filter (·.1)).map (·.2)), truth j s p = .holds) ↔
      ((∃ f ∈ q.filters, f.alternative = true) →
        ∃ f ∈ q.filters, f.alternative = true ∧ f.Holds q.entity j s) :=
    forall_anyOf.trans
      (imp_congr (marked_ne_nil (m := id) hmarked) (exists_marked_holds (m := id) hmarked))
  rw [conditionsOf, keeps_flatMap_conjuncts, List.forall_mem_append, List.forall_mem_append,
    List.forall_mem_append, hrequired, halternatives, keeps_scopeConditions,
    keeps_searchConditions hsearched]
  constructor
  · rintro ⟨⟨⟨hrequired, halternatives⟩, hscope⟩, hsearch⟩
    exact ⟨hrequired, halternatives, hscope, hsearch⟩
  · rintro ⟨hrequired, halternatives, hscope, hsearch⟩
    exact ⟨⟨⟨hrequired, halternatives⟩, hscope⟩, hsearch⟩

theorem Reachable.hasColumns (h : q.Reachable) : q.HasColumns := by
  intro f hf
  obtain ⟨raw, hraw⟩ := h.hasAcceptedFilters f hf
  exact condition?_ne_none hraw

/-- The conditions of a query test columns of its entity. -/
theorem tests_conditions {ps : List Predicate} (hcolumns : q.HasColumns)
    (hps : q.conditions = .ok ps) : ∀ p ∈ ps, p.Tests (· ∈ q.entity.columns) := by
  obtain ⟨filtered, searched, hfiltered, hsearched, rfl⟩ := conditions_eq_ok.mp hps
  have hmarked := (filterConditions_eq_ok hcolumns).mp hfiltered
  have hfilters : ∀ x ∈ filtered, x.2.Tests (· ∈ q.entity.columns) := by
    intro x hx
    obtain ⟨f, -, hcondition, -⟩ := exists_of_mem_forall₂ hmarked hx
    exact Entity.tests_condition hcondition
  have hpart : ∀ mark : Bool × Predicate → Bool,
      ∀ p ∈ (filtered.filter mark).map (·.2), p.Tests (· ∈ q.entity.columns) := by
    intro mark p hp
    obtain ⟨x, hx, rfl⟩ := List.mem_map.mp hp
    exact hfilters x (List.mem_of_mem_filter hx)
  have hany : ∀ ps : List Predicate, (∀ p ∈ ps, p.Tests (· ∈ q.entity.columns)) →
      ∀ p ∈ anyOf ps, p.Tests (· ∈ q.entity.columns) := by
    intro ps h
    unfold anyOf
    split
    · exact List.forall_mem_nil _
    · exact List.forall_mem_singleton.mpr (Predicate.tests_disj.mpr h)
  have hsearch : ∀ p ∈ searched, p.Tests (· ∈ q.entity.columns) := by
    unfold searchConditions at hsearched
    split at hsearched
    · cases hsearched
      exact List.forall_mem_nil _
    split at hsearched
    · cases hsearched
      exact List.forall_mem_nil _
    · obtain ⟨found, hfound, rfl⟩ := map_eq_ok.mp hsearched
      exact hany found (Entity.tests_searchConditions hfound)
  refine Predicate.tests_flatMap_conjuncts.mpr ?_
  simp only [List.forall_mem_append]
  exact ⟨⟨⟨hpart _, hany _ (hpart _)⟩, q.tests_scopeConditions⟩, hsearch⟩

/-- The conditions of a query are on its own table. -/
theorem isOn_conditions {ps : List Predicate} (hcolumns : q.HasColumns)
    (hps : q.conditions = .ok ps) : ∀ p ∈ ps, p.IsOn q.entity.table :=
  fun p hp => Entity.isOn_of_tests (tests_conditions hcolumns hps p hp)

/-- Rows that agree in the query's table are kept alike. -/
theorem keeps_congr {ps : List Predicate} (hcolumns : q.HasColumns) (hps : q.conditions = .ok ps)
    (hs : s q.entity.table = s' q.entity.table) : Keeps j s ps ↔ Keeps j s' ps := by
  have hon := isOn_conditions hcolumns hps
  rw [Keeps, truthOfAll_congr hs ps (Predicate.areOn_iff_forall.mpr hon)]
  exact Iff.rfl

-- ---------------------------------------------------------------------------
-- Statements
-- ---------------------------------------------------------------------------

section
variable {schema : Schema} {c : Compiled}

/-- The conditions of a page by cursor beyond those of the query; they are the same whatever the
filters and the search. -/
theorem exists_conditions {paginate : Bool} (hc : q.compile schema paginate = .ok c) :
    ∃ conditions after, q.conditions = .ok conditions ∧ c.count.conditions = conditions ∧
      c.select.conditions = conditions ++ after ∧
      (paginate = false ∨ q.effectivePage.isCursor = false → after = []) ∧
      ∀ fs search ps, { q with filters := fs, search }.conditions = .ok ps →
        ∃ c', { q with filters := fs, search }.compile schema paginate = .ok c' ∧
          c'.count.conditions = ps ∧ c'.select.conditions = ps ++ after := by
  cases paginate with
  | false =>
    obtain ⟨tables, conditions, htables, hconditions, rfl⟩ := compile_all_eq_ok.mp hc
    refine ⟨conditions, [], hconditions, rfl, (List.append_nil _).symm, fun _ => rfl, ?_⟩
    intro fs search ps hps
    exact ⟨_, compile_all_eq_ok.mpr ⟨tables, ps, htables, hps, rfl⟩, rfl, (List.append_nil _).symm⟩
  | true =>
    cases hp : q.effectivePage with
    | offset number n =>
      obtain ⟨tables, conditions, htables, hconditions, rfl⟩ := (compile_numbered_eq_ok hp).mp hc
      refine ⟨conditions, [], hconditions, rfl, (List.append_nil _).symm, fun _ => rfl, ?_⟩
      intro fs search ps hps
      have hp' : { q with filters := fs, search }.effectivePage = .offset number n := hp
      exact ⟨_, (compile_numbered_eq_ok hp').mpr ⟨tables, ps, htables, hps, rfl⟩, rfl,
        (List.append_nil _).symm⟩
    | cursor token n =>
      obtain ⟨tables, conditions, after, warnings, htables, hconditions, hafter, rfl⟩ :=
        (compile_cursor_eq_ok hp).mp hc
      have hselect : ∀ (q : Query) (ps : List Predicate),
          (q.compiledCursor schema tables ps after warnings n).select.conditions =
            ps ++ after.flatMap Predicate.conjuncts := by
        intro q ps
        show (cursorCut _ after n).conditions = _
        rw [cursorCut, foldl_restrict]
        rfl
      refine ⟨conditions, after.flatMap Predicate.conjuncts, hconditions, rfl,
        hselect q conditions, fun h => ?_, ?_⟩
      · rcases h with h | h <;> cases h
      · intro fs search ps hps
        have hp' : { q with filters := fs, search }.effectivePage = .cursor token n := hp
        exact ⟨_, (compile_cursor_eq_ok hp').mpr ⟨tables, ps, after, warnings, htables, hps, hafter,
          rfl⟩, rfl, hselect _ ps⟩

theorem exists_compile_all {paginate : Bool} (hc : q.compile schema paginate = .ok c)
    {q' : Query} (htables : q'.joinedTables schema = q.joinedTables schema) {ps : List Predicate}
    (hps : q'.conditions = .ok ps) :
    ∃ c', q'.compile schema false = .ok c' ∧ c'.count = q'.countStatement ps := by
  obtain ⟨tables, hjoined, -⟩ := bind_eq_ok.mp hc
  exact ⟨_, compile_all_eq_ok.mpr ⟨tables, ps, htables.trans hjoined, hps, rfl⟩, rfl⟩

end

-- ---------------------------------------------------------------------------
-- The order of the filters
-- ---------------------------------------------------------------------------

section
variable {fs : List Filter} (hfs : fs.Perm q.filters)

include hfs

theorem hasColumns_perm (h : q.HasColumns) : { q with filters := fs }.HasColumns :=
  fun f hf => h f (hfs.mem_iff.mp hf)

theorem selects_perm : { q with filters := fs }.Selects j s ↔ q.Selects j s := by
  have hmem : ∀ f, f ∈ fs ↔ f ∈ q.filters := fun f => hfs.mem_iff
  constructor
  · rintro ⟨hrequired, halternatives, hscope, hsearch⟩
    simp only [hmem] at hrequired halternatives
    exact ⟨hrequired, halternatives, hscope, hsearch⟩
  · rintro ⟨hrequired, halternatives, hscope, hsearch⟩
    simp only [← hmem] at hrequired halternatives
    exact ⟨hrequired, halternatives, hscope, hsearch⟩

theorem exists_conditions_perm {ps : List Predicate} (hps : q.conditions = .ok ps) :
    ∃ ps', { q with filters := fs }.conditions = .ok ps' := by
  obtain ⟨filtered, searched, hfiltered, hsearched, -⟩ := conditions_eq_ok.mp hps
  obtain ⟨found, hfound, -⟩ := map_eq_ok.mp hfiltered
  have heach := exists_mapM_eq_ok.mp ⟨found, hfound⟩
  obtain ⟨found', hfound'⟩ := exists_mapM_eq_ok.mpr fun f hf => heach f (hfs.mem_iff.mp hf)
  exact ⟨_, conditions_eq_ok.mpr ⟨_, searched, map_eq_ok.mpr ⟨found', hfound', rfl⟩, hsearched, rfl⟩⟩

end

-- ---------------------------------------------------------------------------
-- The scopes
-- ---------------------------------------------------------------------------

section
variable {filtered : List (Bool × Predicate)} {searched : List Predicate} {g : Engine}

/-- A condition that is one of the scope asks for no value. -/
theorem conditionMarks_scopeConditions (d : Dialect) : conditionMarks d q.scopeConditions = [] := by
  unfold scopeConditions
  split
  case h_1 => rfl
  case h_2 column hcolumn =>
    dsimp only
    split
    · rfl
    cases q.scope <;> rfl

theorem conditionMarks_conditionsOf (d : Dialect) :
    conditionMarks d (q.conditionsOf filtered searched) =
      conditionMarks d ((filtered.filter (!·.1)).map (·.2) ++
        anyOf ((filtered.filter (·.1)).map (·.2))) ++ conditionMarks d searched := by
  rw [conditionsOf, conditionMarks_flatMap conditionMarks_conjuncts, conditionMarks_append,
    conditionMarks_append, conditionMarks_scopeConditions, List.append_nil]

/-- The conditions of a query apart from the scope, and the scope. -/
theorem acceptsAll_conditionsOf :
    g.acceptsAll s (q.conditionsOf filtered searched) =
      (g.acceptsAll s ((filtered.filter (!·.1)).map (·.2) ++
        anyOf ((filtered.filter (·.1)).map (·.2)) ++ searched) &&
          g.acceptsAll s q.scopeConditions) := by
  rw [conditionsOf, Engine.acceptsAll_flatMap_conjuncts, Engine.acceptsAll_append,
    Engine.acceptsAll_append, Engine.acceptsAll_append _ searched, Bool.and_assoc, Bool.and_assoc,
    Bool.and_comm (g.acceptsAll s q.scopeConditions)]

section
variable {column : String} (hcolumn : q.entity.softDelete = some column) (hnamed : column ≠ "")

include hcolumn hnamed

theorem acceptsAll_live (hscope : q.scope = .live) :
    g.acceptsAll s q.scopeConditions = (s.at (q.entity.columnNamed column)).isNull := by
  simp only [scopeConditions, hcolumn, if_neg hnamed, hscope, Engine.acceptsAll_singleton,
    Engine.accepts]
  exact Bool.bne_false _

theorem acceptsAll_onlyTrashed :
    g.acceptsAll s q.onlyTrashed.scopeConditions =
      !(s.at (q.entity.columnNamed column)).isNull := by
  simp only [scopeConditions, onlyTrashed, hcolumn, if_neg hnamed, Engine.acceptsAll_singleton,
    Engine.accepts]
  exact Bool.bne_true _

theorem acceptsAll_withTrashed : g.acceptsAll s q.withTrashed.scopeConditions = true := by
  simp only [scopeConditions, withTrashed, hcolumn, if_neg hnamed]
  rfl

/-- The scopes divide the rows of a table with soft deletion in two. -/
theorem length_matching_withTrashed (hscope : q.scope = .live) (tables : Tables) :
    (g.matching tables q.entity.table (q.withTrashed.conditionsOf filtered searched)).length =
      (g.matching tables q.entity.table (q.conditionsOf filtered searched)).length +
        (g.matching tables q.entity.table
          (q.onlyTrashed.conditionsOf filtered searched)).length := by
  have hlive : ∀ r : Record, _ := fun r =>
    acceptsAll_live (s := .single q.entity.table r) (g := g) hcolumn hnamed hscope
  have htrashed : ∀ r : Record, _ := fun r =>
    acceptsAll_onlyTrashed (s := .single q.entity.table r) (g := g) hcolumn hnamed
  have hboth : ∀ r : Record, _ := fun r =>
    acceptsAll_withTrashed (s := .single q.entity.table r) (g := g) hcolumn hnamed
  simp only [Engine.matching, acceptsAll_conditionsOf, hlive, htrashed, hboth, Bool.and_true]
  rw [List.length_eq_length_filter_add fun r : Record =>
    (Scene.at (.single q.entity.table r) (q.entity.columnNamed column)).isNull]
  simp only [List.filter_filter, Bool.and_comm]

/-- The counts of the three scopes: they all fail alike, or those of the live rows and the trashed
ones add up. -/
theorem runCount_withTrashed {schema : Schema} {c : Compiled} {paginate : Bool}
    (hscope : q.scope = .live) (hc : q.compile schema paginate = .ok c) (tables : Tables) :
    ∃ (outcome : Except Failure Unit) (live trashed : Int),
      q.runCount g.database schema tables = (outcome.map fun _ => live, tables) ∧
      q.onlyTrashed.runCount g.database schema tables = (outcome.map fun _ => trashed, tables) ∧
      q.withTrashed.runCount g.database schema tables =
        (outcome.map fun _ => live + trashed, tables) := by
  obtain ⟨conditions, -, hconditions, -⟩ := exists_conditions hc
  obtain ⟨filtered, searched, hfiltered, hsearched, rfl⟩ := conditions_eq_ok.mp hconditions
  -- neither the filters nor the search of a query know of its scope
  have hcount : ∀ q' : Query, q'.entity = q.entity → q'.joinedTables schema = q.joinedTables schema →
      q'.conditions = .ok (q'.conditionsOf filtered searched) →
      q'.runCount g.database schema tables =
        (((q.countStatement (q.conditionsOf filtered searched)).check.mapError
          (Database.onTable q.entity.table)).map fun _ =>
            ((g.matching tables q.entity.table (q'.conditionsOf filtered searched)).length : Int),
          tables) := by
    intro q' hentity htables hps
    obtain ⟨c', hc', hcount⟩ := exists_compile_all hc htables hps
    have hcheck : (q'.countStatement (q'.conditionsOf filtered searched)).check =
        (q.countStatement (q.conditionsOf filtered searched)).check :=
      Statement.check_congr rfl
        ((conditionMarks_conditionsOf _).trans (conditionMarks_conditionsOf _).symm)
    rw [runCount_eq hc', hcount, hcheck, hentity]
    cases (q.countStatement (q.conditionsOf filtered searched)).check <;> rfl
  have htrashed := hcount q.onlyTrashed rfl rfl
    (conditions_eq_ok.mpr ⟨filtered, searched, hfiltered, hsearched, rfl⟩)
  have hboth := hcount q.withTrashed rfl rfl
    (conditions_eq_ok.mpr ⟨filtered, searched, hfiltered, hsearched, rfl⟩)
  rw [length_matching_withTrashed hcolumn hnamed hscope, Int.natCast_add] at hboth
  exact ⟨_, _, _, hcount q rfl rfl hconditions, htrashed, hboth⟩

end

end

-- ---------------------------------------------------------------------------
-- All statements
-- ---------------------------------------------------------------------------

/-- The statements of a query that can be reached ask for the rows that it selects, a page by cursor
for some of them, in whatever order its filters stand; and the counts of the scopes add up. -/
theorem statements_select {schema : Schema} {paginate : Bool} {c : Compiled} (hq : q.Reachable)
    (hc : q.compile schema paginate = .ok c) :
    (∀ (j : Judge) (s : Scene),
      (Keeps j (s.only q.entity.table) c.count.conditions ↔
        q.Selects j (s.only q.entity.table)) ∧
      (Keeps j s c.select.conditions → q.Selects j (s.only q.entity.table)) ∧
      (paginate = false ∨ q.effectivePage.isCursor = false →
        (Keeps j s c.select.conditions ↔ q.Selects j (s.only q.entity.table)))) ∧
    (∀ fs : List Filter, fs.Perm q.filters →
      ∃ c', { q with filters := fs }.compile schema paginate = .ok c' ∧
        ∀ j s, (Keeps j s c'.count.conditions ↔ Keeps j s c.count.conditions) ∧
          (Keeps j s c'.select.conditions ↔ Keeps j s c.select.conditions)) ∧
    (∀ column, q.entity.softDelete = some column → column ≠ "" → q.scope = .live →
      ∀ (g : Engine) (tables : Tables),
        ∃ (outcome : Except Failure Unit) (live trashed : Int),
          q.runCount g.database schema tables = (outcome.map fun _ => live, tables) ∧
          q.onlyTrashed.runCount g.database schema tables =
            (outcome.map fun _ => trashed, tables) ∧
          q.withTrashed.runCount g.database schema tables =
            (outcome.map fun _ => live + trashed, tables)) := by
  have hcolumns := hq.hasColumns
  obtain ⟨conditions, after, hconditions, hcount, hselect, hafter, hpermuted⟩ := exists_conditions hc
  have hkeeps : ∀ (j : Judge) (s : Scene),
      Keeps j s conditions ↔ q.Selects j (s.only q.entity.table) := fun j s =>
    (keeps_congr hcolumns hconditions (Scene.put_self _ _ _).symm).trans
      (keeps_conditions hcolumns hconditions)
  rw [hcount, hselect]
  refine ⟨fun j s => ⟨keeps_conditions hcolumns hconditions, ?_, ?_⟩, fun fs hfs => ?_, ?_⟩
  · exact fun h => (hkeeps j s).mp (keeps_append.mp h).1
  · intro h
    rw [hafter h, List.append_nil]
    exact hkeeps j s
  · obtain ⟨ps, hps⟩ := exists_conditions_perm hfs hconditions
    obtain ⟨c', hc', hcount', hselect'⟩ := hpermuted fs q.search ps hps
    have hsame : ∀ j s, Keeps j s ps ↔ Keeps j s conditions := fun j s =>
      (keeps_conditions (hasColumns_perm hfs hcolumns) hps).trans
        ((selects_perm hfs).trans (keeps_conditions hcolumns hconditions).symm)
    refine ⟨c', hc', fun j s => ⟨?_, ?_⟩⟩
    · rw [hcount']
      exact hsame j s
    · rw [hselect', keeps_append, keeps_append, hsame]
  · exact fun column hcolumn hnamed hscope _ tables =>
      runCount_withTrashed hcolumn hnamed hscope hc tables

end Query

-- ---------------------------------------------------------------------------
-- Notes
-- ---------------------------------------------------------------------------

/-- Notes with soft deletion. -/
def Entity.notes : Entity where
  table            := "notes"
  filterFields     := ["status", "views"]
  sortFields       := []
  selectFields     := ["id", "status", "views"]
  includePaths     := []
  defaultSort      := none
  defaultSelection := none
  searchFields     := ["status"]
  primaryKey       := "id"
  softDelete       := some "deleted_at"
  types            := [("id", .integer), ("status", .string), ("views", .integer),
    ("deleted_at", .dateTime true)]
  relations        := []

/-- Open notes that were seen often, or never. -/
def notableFilters : List Filter :=
  [⟨"status", .eq, .single (.text "open"), false⟩, ⟨"views", .gt, .single (.int 10), true⟩,
    ⟨"views", .eq, .single (.int 0), true⟩]

def Query.notable : Query := { entity := .notes, filters := notableFilters }

/-- Comparisons of texts and integers; with nothing, they are unknown. -/
def Sql.Judge.plain : Judge := fun p v =>
  match p, v with
  | .compare _ .eq ⟨.text t, _⟩, .text s => .ofBool (s == t)
  | .compare _ op ⟨.int m, _⟩, .int n    => .ofBool (op.ofIntegers n m)
  | _,                         _         => .unknown

/-- A note with its status, its views and whether it was deleted. -/
def Sql.Record.note (status : String) (views : Option Int) (deleted : Bool) : Record := fun name =>
  if name = "status" then .text status
  else if name = "views" then .optional .int views
  else if name = "deleted_at" ∧ !deleted then .null
  else .int 1

def Sql.Tables.notes : Tables := fun _ =>
  [.note "open" (some 20) false, .note "open" none false, .note "open" (some 0) true,
    .note "closed" (some 20) false, .note "open" (some 0) false]

/-- A note whose views are not known is not among the notable ones, nor is a closed one or a
deleted one, whatever the alternatives say. -/
theorem Query.statements_select_notable :
    Query.notable.Reachable ∧
    ∃ c, Query.notable.compile [] false = .ok c ∧
      Query.notable.Selects .plain (.single "notes" (.note "open" (some 20) false)) ∧
      ¬Query.notable.Selects .plain (.single "notes" (.note "open" none false)) ∧
      ¬Query.notable.Selects .plain (.single "notes" (.note "closed" (some 20) false)) ∧
      ¬Query.notable.Selects .plain (.single "notes" (.note "open" (some 0) true)) ∧
      (∃ c', { Query.notable with filters := notableFilters.reverse }.compile [] false = .ok c' ∧
        Keeps .plain (.single "notes" (.note "open" (some 20) false)) c'.select.conditions) ∧
      Query.notable.withTrashed.runCount (Engine.integers.judging .plain).database [] .notes =
        (.ok (2 + 1), .notes) := by
  have hfilters : ({ entity := .notes } : Query).filterAll notableFilters = .ok .notable := rfl
  have hreachable : Query.notable.Reachable := .filterAll (.fresh _ _) hfilters
  obtain ⟨c, hc, hopen, hunknown, hclosed, hdeleted, hselect⟩ :
      ∃ c, Query.notable.compile [] false = .ok c ∧
        Keeps .plain (.single "notes" (.note "open" (some 20) false)) c.count.conditions ∧
        ¬Keeps .plain (.single "notes" (.note "open" none false)) c.count.conditions ∧
        ¬Keeps .plain (.single "notes" (.note "closed" (some 20) false)) c.count.conditions ∧
        ¬Keeps .plain (.single "notes" (.note "open" (some 0) true)) c.count.conditions ∧
        c.select.conditions = c.count.conditions := by
    refine ⟨_, rfl, ?_, ?_, ?_, ?_, rfl⟩
    all_goals unfold Keeps; decide
  obtain ⟨hmeaning, hperm, hscopes⟩ := Query.statements_select hreachable hc
  have hcount : ∀ r : Record, Keeps .plain (.single "notes" r) c.count.conditions ↔
      Query.notable.Selects .plain (.single "notes" r) := fun r =>
    (hmeaning .plain (.single "notes" r)).1
  refine ⟨hreachable, c, hc, (hcount _).mp hopen, fun h => hunknown ((hcount _).mpr h),
    fun h => hclosed ((hcount _).mpr h), fun h => hdeleted ((hcount _).mpr h), ?_, ?_⟩
  · obtain ⟨c', hc', hsame⟩ := hperm notableFilters.reverse (List.reverse_perm _)
    exact ⟨c', hc', (hsame _ _).2.mpr (hselect ▸ hopen)⟩
  · obtain ⟨outcome, live, trashed, hlive, htrashed, hboth⟩ :=
      hscopes "deleted_at" rfl (by decide) rfl (Engine.integers.judging .plain) .notes
    have hlive' : Query.notable.runCount (Engine.integers.judging .plain).database [] .notes =
        (.ok 2, .notes) := rfl
    have htrashed' : Query.notable.onlyTrashed.runCount
        (Engine.integers.judging .plain).database [] .notes = (.ok 1, .notes) := rfl
    obtain ⟨_, -, rfl⟩ := map_eq_ok.mp (Prod.mk.inj (hlive.symm.trans hlive')).1
    obtain ⟨_, houtcome, rfl⟩ := map_eq_ok.mp (Prod.mk.inj (htrashed.symm.trans htrashed')).1
    rw [hboth, houtcome]
    rfl

end ListQuery
