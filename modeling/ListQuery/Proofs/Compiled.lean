import ListQuery.Compiled
import ListQuery.Proofs.Failure

/-!
# What is compiled

The statements of a query in one piece: the conditions and the joined tables are found first, and
what is read, the order and the cut follow from the query and the page.

* `compile_all_eq`, `compile_numbered_eq`, `compile_cursor_eq` — all rows, a page by number and a
  page by cursor, and with `_eq_ok` what is known when they are compiled;
* `exists_compiles_keysFor`, `exists_compiles` — what all of them have in common;
* `exists_compile_iff` — when a query is compiled;
* `cursorConditions_of_values` — the condition of a cursor that was read;
* `primaryKey_mem_keys` — the keys of a cursor page hold the primary key.
-/

namespace ListQuery.Query

open Sql

variable (q : Query) (schema : Schema)

-- ---------------------------------------------------------------------------
-- The statements
-- ---------------------------------------------------------------------------

/-- The projected columns: the delivered ones, the hidden ones, and those of joined relations. -/
def outputs (keys : List SortKey) : List Output :=
  ((q.projectedFields ++ q.hiddenFor keys).map fun name =>
      ({ column := q.entity.columnNamed name } : Output)) ++
    (q.eagerJoins schema).flatMap fun j => j.2.outputs

/-- The statement of all rows. -/
def rowsStatement (keys : List SortKey) (tables : List Join) (conditions : List Predicate) :
    Statement :=
  { projection := .columns (q.outputs schema keys)
    table := ⟨q.entity.table, none⟩, joins := tables, conditions, order := q.orderBy keys }

def countStatement (conditions : List Predicate) : Statement :=
  { projection := .count, table := ⟨q.entity.table, none⟩, conditions }

/-- The keys of a cursor page. -/
def keys : List SortKey := q.withPrimaryKey q.ordering

/-- The query compiled without a cut. -/
def compiledWith (keys : List SortKey) (tables : List Join) (conditions : List Predicate) :
    Compiled :=
  { select := q.rowsStatement schema keys tables conditions
    count := q.countStatement conditions
    page := q.effectivePage, keyColumns := keys.map (·.field), hidden := q.hiddenFor keys
    joins := q.eagerJoins schema }

/-- The cut of a page by number. -/
def numberedCut (s : Statement) (number n : Int) : Statement :=
  { s with limit := some n, offset := some ((number - 1) * n) }

/-- The query compiled for a page by number. -/
def compiledNumbered (tables : List Join) (conditions : List Predicate) (number n : Int) :
    Compiled :=
  { q.compiledWith schema [] tables conditions with
    select := numberedCut (q.rowsStatement schema [] tables conditions) number n }

/-- The cut of a page by cursor: the rows after the cursor, and one more than the page holds. -/
def cursorCut (s : Statement) (after : List Predicate) (n : Int) : Statement :=
  { after.foldl Statement.restrict s with limit := some (n + 1) }

/-- Further conditions leave the rest of a statement as it is. -/
theorem foldl_restrict (after : List Predicate) (st : Statement) :
    after.foldl Statement.restrict st =
      { st with conditions := st.conditions ++ after.flatMap Predicate.conjuncts } := by
  induction after generalizing st with
  | nil =>
    rw [List.foldl_nil, List.flatMap_nil, List.append_nil]
  | cons p after ih =>
    rw [List.foldl_cons, ih, List.flatMap_cons, Statement.restrict, List.append_assoc]

/-- The query compiled for a page by cursor. -/
def compiledCursor (tables : List Join) (conditions after : List Predicate)
    (warnings : List String) (n : Int) : Compiled :=
  { q.compiledWith schema q.keys tables conditions with
    select := cursorCut (q.rowsStatement schema q.keys tables conditions) after n
    warnings }

/-- The tables of the joined relations. -/
def joinedTables : Except Failure (List Join) :=
  (q.eagerJoins schema).mapM fun j => j.2.join q.entity

variable {q schema} {c : Compiled}

/-- Work on the joined tables and the conditions of a query. -/
theorem bind_conditions_eq_ok {f : List Join → List Predicate → Except Failure Compiled} :
    (do let tables ← q.joinedTables schema
        let conditions ← q.conditions
        f tables conditions) = .ok c ↔
      ∃ tables conditions, q.joinedTables schema = .ok tables ∧ q.conditions = .ok conditions ∧
        f tables conditions = .ok c := by
  simp only [bind_eq_ok, exists_and_left]

theorem compile_all_eq :
    q.compile schema false = (do
      let tables ← q.joinedTables schema
      let conditions ← q.conditions
      .ok (q.compiledWith schema [] tables conditions)) := rfl

theorem compile_all_eq_ok :
    q.compile schema false = .ok c ↔
      ∃ tables conditions, q.joinedTables schema = .ok tables ∧ q.conditions = .ok conditions ∧
        c = q.compiledWith schema [] tables conditions := by
  rw [compile_all_eq, bind_conditions_eq_ok]
  simp only [Except.ok.injEq, @eq_comm Compiled c]

theorem keysFor_numbered {number n : Int} (hp : q.effectivePage = .offset number n) :
    q.keysFor true = [] := by
  rw [keysFor, hp]
  rfl

theorem keysFor_cursor {token : Value} {n : Int} (hp : q.effectivePage = .cursor token n) :
    q.keysFor true = q.keys := by
  rw [keysFor, hp]
  rfl

theorem compile_numbered_eq {number n : Int} (hp : q.effectivePage = .offset number n) :
    q.compile schema true = (do
      let tables ← q.joinedTables schema
      let conditions ← q.conditions
      .ok (q.compiledNumbered schema tables conditions number n)) := by
  rw [compile]
  simp only [keysFor_numbered hp, hp, if_true, Page.skipped?, compiledNumbered, compiledWith]
  rfl

theorem compile_numbered_eq_ok {number n : Int} (hp : q.effectivePage = .offset number n) :
    q.compile schema true = .ok c ↔
      ∃ tables conditions, q.joinedTables schema = .ok tables ∧ q.conditions = .ok conditions ∧
        c = q.compiledNumbered schema tables conditions number n := by
  rw [compile_numbered_eq hp, bind_conditions_eq_ok]
  simp only [Except.ok.injEq, @eq_comm Compiled c]

theorem compile_cursor_eq {token : Value} {n : Int} (hp : q.effectivePage = .cursor token n) :
    q.compile schema true = (do
      let tables ← q.joinedTables schema
      let conditions ← q.conditions
      let found ← q.cursorConditions q.keys token
      .ok (q.compiledCursor schema tables conditions found.1 found.2 n)) := by
  rw [compile]
  simp only [keysFor_cursor hp, hp, if_true, compiledCursor, compiledWith]
  rfl

theorem compile_cursor_eq_ok {token : Value} {n : Int} (hp : q.effectivePage = .cursor token n) :
    q.compile schema true = .ok c ↔
      ∃ tables conditions after warnings, q.joinedTables schema = .ok tables ∧
        q.conditions = .ok conditions ∧
        q.cursorConditions q.keys token = .ok (after, warnings) ∧
        c = q.compiledCursor schema tables conditions after warnings n := by
  rw [compile_cursor_eq hp, bind_conditions_eq_ok]
  simp only [bind_eq_ok, Prod.exists, Except.ok.injEq, @eq_comm Compiled c, exists_and_left]

/-- What every compiled query is: a statement for the rows and one for their number, which differ in
what is read and joined, in the order and the cut, and in the conditions of a cursor. -/
structure Compiles (q : Query) (schema : Schema) (paginate : Bool) (c : Compiled)
    (keys : List SortKey) (tables : List Join) (conditions after : List Predicate) : Prop where
  joined   : q.joinedTables schema = .ok tables
  required : q.conditions = .ok conditions
  select   : c.select =
    { q.rowsStatement schema keys tables (conditions ++ after) with
      limit := c.select.limit, offset := c.select.offset }
  count    : c.count = q.countStatement conditions
  joins    : c.joins = q.eagerJoins schema
  hidden   : c.hidden = q.hiddenFor keys
  whole    : paginate = false ∨ q.effectivePage.isCursor = false → after = []
  uncut    : paginate = false → c.select.limit = none

/-- A compiled query is read by the keys of its page, and has the conditions of a cursor besides; where
no cursor is asked for, there are none. -/
theorem exists_compiles_keysFor {paginate : Bool} (h : q.compile schema paginate = .ok c) :
    ∃ tables conditions after,
      q.Compiles schema paginate c (q.keysFor paginate) tables conditions after ∧
      c.keyColumns = (q.keysFor paginate).map (·.field) ∧
      ∃ token found, q.cursorConditions (q.keysFor paginate) token = .ok found ∧
        after = found.1.flatMap Predicate.conjuncts := by
  have hnone : ∀ keys, ∃ token found, q.cursorConditions keys token = .ok found ∧
      [] = found.1.flatMap Predicate.conjuncts := fun keys => ⟨.null, ([], []), rfl, rfl⟩
  cases paginate with
  | false =>
    obtain ⟨tables, conditions, htables, hconditions, rfl⟩ := compile_all_eq_ok.mp h
    refine ⟨tables, conditions, [], ?_, rfl, hnone _⟩
    exact ⟨htables, hconditions, by rw [List.append_nil]; rfl, rfl, rfl, rfl, fun _ => rfl,
      fun _ => rfl⟩
  | true =>
    cases hp : q.effectivePage with
    | offset number n =>
      obtain ⟨tables, conditions, htables, hconditions, rfl⟩ := (compile_numbered_eq_ok hp).mp h
      rw [keysFor_numbered hp]
      refine ⟨tables, conditions, [], ?_, rfl, hnone _⟩
      exact ⟨htables, hconditions, by rw [List.append_nil]; rfl, rfl, rfl, rfl, fun _ => rfl,
        fun hall => absurd hall Bool.true_eq_false.mp⟩
    | cursor token n =>
      obtain ⟨tables, conditions, after, warnings, htables, hconditions, hafter, rfl⟩ :=
        (compile_cursor_eq_ok hp).mp h
      rw [keysFor_cursor hp]
      have hselect : (q.compiledCursor schema tables conditions after warnings n).select =
          { q.rowsStatement schema q.keys tables
              (conditions ++ after.flatMap Predicate.conjuncts) with limit := some (n + 1) } := by
        show cursorCut _ after n = _
        rw [cursorCut, foldl_restrict]
        rfl
      refine ⟨tables, conditions, after.flatMap Predicate.conjuncts, ?_, rfl,
        token, (after, warnings), hafter, rfl⟩
      refine ⟨htables, hconditions, by rw [hselect], rfl, rfl, rfl, ?_,
        fun hall => absurd hall Bool.true_eq_false.mp⟩
      rintro (hall | hpage)
      · cases hall
      · rw [hp] at hpage
        cases hpage

theorem exists_compiles {paginate : Bool} (h : q.compile schema paginate = .ok c) :
    ∃ keys tables conditions after, q.Compiles schema paginate c keys tables conditions after := by
  obtain ⟨tables, conditions, after, hc, -⟩ := exists_compiles_keysFor h
  exact ⟨_, tables, conditions, after, hc⟩

/-- A query whose joins can be made is compiled if its conditions are. -/
theorem exists_compile_iff {paginate : Bool} {joins : List Join}
    (h : q.joinedTables schema = .ok joins) :
    (∃ c, q.compile schema paginate = .ok c) ↔
      (∃ conditions, q.conditions = .ok conditions) ∧
        ∀ token n, paginate = true → q.effectivePage = .cursor token n →
          ∃ found, q.cursorConditions q.keys token = .ok found := by
  cases paginate with
  | false =>
    constructor
    · rintro ⟨c, hc⟩
      obtain ⟨-, conditions, -, hconditions, -⟩ := compile_all_eq_ok.mp hc
      exact ⟨⟨conditions, hconditions⟩, fun _ _ hall => absurd hall Bool.false_ne_true⟩
    · rintro ⟨⟨conditions, hconditions⟩, -⟩
      exact ⟨_, compile_all_eq_ok.mpr ⟨joins, conditions, h, hconditions, rfl⟩⟩
  | true =>
    cases hp : q.effectivePage with
    | offset number n =>
      constructor
      · rintro ⟨c, hc⟩
        obtain ⟨-, conditions, -, hconditions, -⟩ := (compile_numbered_eq_ok hp).mp hc
        exact ⟨⟨conditions, hconditions⟩, fun _ _ _ hpage => by cases hpage⟩
      · rintro ⟨⟨conditions, hconditions⟩, -⟩
        exact ⟨_, (compile_numbered_eq_ok hp).mpr ⟨joins, conditions, h, hconditions, rfl⟩⟩
    | cursor token n =>
      constructor
      · rintro ⟨c, hc⟩
        obtain ⟨-, conditions, after, warnings, -, hconditions, hafter, -⟩ :=
          (compile_cursor_eq_ok hp).mp hc
        refine ⟨⟨conditions, hconditions⟩, fun token' n' _ hpage => ?_⟩
        obtain ⟨rfl, -⟩ := Page.cursor.inj hpage
        exact ⟨_, hafter⟩
      · rintro ⟨⟨conditions, hconditions⟩, hcursor⟩
        obtain ⟨found, hfound⟩ := hcursor token n rfl rfl
        exact ⟨_, (compile_cursor_eq_ok hp).mpr
          ⟨joins, conditions, found.1, found.2, h, hconditions, hfound, rfl⟩⟩

/-- The query without its includes. -/
def withoutIncludes (q : Query) : Query := { q with includes := [] }

/-- Joins that can be made never keep a query from being compiled. -/
theorem exists_compile_withoutIncludes {paginate : Bool} {joins : List Join}
    (h : q.joinedTables schema = .ok joins) :
    (∃ c, q.compile schema paginate = .ok c) ↔
      ∃ c, q.withoutIncludes.compile schema paginate = .ok c := by
  have hnone : q.withoutIncludes.joinedTables schema = .ok [] := rfl
  rw [exists_compile_iff h, exists_compile_iff hnone]
  rfl

/-- The page of a query that is compiled for one. -/
theorem page_compile (h : q.compile schema true = .ok c) : c.page = q.effectivePage := by
  cases hp : q.effectivePage with
  | offset number n =>
    obtain ⟨tables, conditions, -, -, rfl⟩ := compile_numbered_eq_ok hp |>.mp h
    exact hp
  | cursor token n =>
    obtain ⟨tables, conditions, after, warnings, -, -, -, rfl⟩ := compile_cursor_eq_ok hp |>.mp h
    exact hp

-- ---------------------------------------------------------------------------
-- The cursor
-- ---------------------------------------------------------------------------

theorem isVoid_of_values {keys : List SortKey} {token : Value} {values : Entries Value}
    (hvalues : Keyset.ofCursor? q.entity keys token = .ok (some values)) : token.isVoid = false := by
  by_contra hvoid
  rw [Bool.not_eq_false] at hvoid
  unfold Keyset.ofCursor? Cursor.ofValue? at hvalues
  rw [if_pos hvoid] at hvalues
  cases Except.ok.inj hvalues

/-- The condition of a cursor that was read. -/
theorem cursorConditions_of_values {keys : List SortKey} {token : Value} {values : Entries Value}
    {after : Predicate} (hvalues : Keyset.ofCursor? q.entity keys token = .ok (some values))
    (hafter : Keyset.predicate q.entity keys values = .ok after) :
    q.cursorConditions keys token = .ok ([after], []) := by
  rw [cursorConditions, isVoid_of_values hvalues, if_neg Bool.false_ne_true, hvalues]
  simp only [bind, Except.bind, hafter]

-- ---------------------------------------------------------------------------
-- Keys and columns
-- ---------------------------------------------------------------------------

/-- The keys of a cursor page hold the primary key. -/
theorem primaryKey_mem_keys : q.entity.primaryKey ∈ q.keys.map (·.field) := by
  rw [keys, withPrimaryKey]
  split
  case isTrue h => exact List.contains_iff_mem.mp h
  case isFalse =>
    rw [List.map_append]
    exact List.mem_append_right _ List.mem_cons_self

theorem keys_ne_nil : q.keys ≠ [] := by
  intro h
  have hpk := q.primaryKey_mem_keys
  rw [h] at hpk
  exact absurd hpk List.not_mem_nil

end ListQuery.Query
