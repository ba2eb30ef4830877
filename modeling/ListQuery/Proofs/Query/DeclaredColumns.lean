import ListQuery.Proofs.Condition.Failures
import ListQuery.Proofs.Execution.JoinedPartner
import ListQuery.Proofs.Query.TableNames

/-!
# Columns that are declared

A statement mentions columns by names that come from the declarations of an entity: the whitelists, the
defaults, the keys. The names that a request can choose are all columns, and so are those of every
statement that is compiled. Three declarations need not be: a default field and the default sort that
no whitelist mentions are passed over, and a related row that is found by a key of the row that is not
mentioned anywhere cannot be joined.

* `isDeclared_compile` — the columns that compiled statements mention;
* `compile_eq_missing_iff` — when a query is not compiled for want of a column;
* `columns_declared` — all of it, for every query.
-/

namespace ListQuery

open Sql Text

-- ---------------------------------------------------------------------------
-- Joins without their column
-- ---------------------------------------------------------------------------

theorem EagerJoin.join_eq_error {j : EagerJoin} {e : Entity} {fail : Failure} :
    j.join e = .error fail ↔ fail = .missing ∧ j.leftColumn ∉ e.columnNames := by
  rw [← Entity.isSome_column?_iff_mem_columnNames, join]
  cases e.column? j.leftColumn with
  | some left => simp
  | none => simp [eq_comm]

namespace Query

variable {q : Query} {schema : Schema} {paginate : Bool} {c : Compiled}

theorem joinedTables_eq_error {fail : Failure} :
    q.joinedTables schema = .error fail ↔
      fail = .missing ∧ ∃ join ∈ q.eagerJoins schema, join.2.leftColumn ∉ q.entity.columnNames := by
  constructor
  · intro h
    obtain ⟨join, hjoin, hfail⟩ := exists_of_mapM_eq_error h
    obtain ⟨rfl, hleft⟩ := EagerJoin.join_eq_error.mp hfail
    exact ⟨rfl, join, hjoin, hleft⟩
  · rintro ⟨rfl, join, hjoin, hleft⟩
    cases h : q.joinedTables schema with
    | ok tables =>
      obtain ⟨t, ht⟩ := exists_mapM_eq_ok.mp ⟨tables, h⟩ join hjoin
      rw [EagerJoin.join_eq_error.mpr ⟨rfl, hleft⟩] at ht
      cases ht
    | error fail =>
      obtain ⟨join', -, hfail⟩ := exists_of_mapM_eq_error h
      rw [(EagerJoin.join_eq_error.mp hfail).1]

/-- A query is compiled by joining its relations first; what follows fails over operands alone. -/
theorem exists_compile_eq_bind (q : Query) (schema : Schema) (paginate : Bool) :
    ∃ rest : List Join → Except Failure Compiled,
      q.compile schema paginate = q.joinedTables schema >>= rest ∧
        ∀ tables, FailsOnOperand (rest tables) := by
  cases paginate with
  | false =>
    exact ⟨_, compile_all_eq, fun _ => q.onlyFails_conditions.bind fun _ => onlyFails_ok _⟩
  | true =>
    cases hp : q.effectivePage with
    | offset number n =>
      exact ⟨_, compile_numbered_eq hp, fun _ =>
        q.onlyFails_conditions.bind fun _ => onlyFails_ok _⟩
    | cursor token n =>
      exact ⟨_, compile_cursor_eq hp, fun _ => q.onlyFails_conditions.bind fun _ =>
        (q.onlyFails_cursorConditions _ _).bind fun _ => onlyFails_ok _⟩

/-- A query is not compiled for want of a column just if it joins a relation on one that the entity
does not have. -/
theorem compile_eq_missing_iff :
    q.compile schema paginate = .error .missing ↔
      ∃ join ∈ q.eagerJoins schema, join.2.leftColumn ∉ q.entity.columnNames := by
  obtain ⟨rest, hcompile, hrest⟩ := q.exists_compile_eq_bind schema paginate
  have hjoined : q.joinedTables schema = .error .missing ↔
      ∃ join ∈ q.eagerJoins schema, join.2.leftColumn ∉ q.entity.columnNames :=
    joinedTables_eq_error.trans (and_iff_right rfl)
  rw [hcompile, ← hjoined]
  cases h : q.joinedTables schema with
  | ok tables =>
    refine iff_of_false (fun hmissing => ?_) (fun hmissing => by cases hmissing)
    have hoperand : Failure.missing.isOfOperand = true := hrest tables _ hmissing
    cases hoperand
  | error fail => simp [bind, Except.bind]

/-- Where the table has no dot in its name, only the key of a row that has one related row can be
wanting. -/
theorem exists_leftColumn_iff (htable : '.' ∉ q.entity.table.toList) :
    (∃ join ∈ q.eagerJoins schema, join.2.leftColumn ∉ q.entity.columnNames) ↔
      ∃ x ∈ q.joinedRelations, x.2.kind = .hasOne ∧ x.2.ownerKey ∉ q.entity.columnNames := by
  have hleft : ∀ x : String × Relation,
      (EagerJoin.made schema q.entity x.1 x.2).leftColumn = EagerJoin.rowKey q.entity x.1 x.2 :=
    fun x => EagerJoin.columnOf_qualified.mpr htable
  simp only [eagerJoins_eq_map, List.mem_map, exists_exists_and_eq_and, hleft]
  refine exists_congr fun x => and_congr_right fun hx => ?_
  obtain ⟨-, hr, hkind⟩ := of_mem_joinedRelations hx
  rw [EagerJoin.rowKey]
  rcases hkind with hkind | hkind
  · simp [hkind, q.entity.declares.belongsTo x.1 x.2 hr hkind]
  · simp [hkind]

-- ---------------------------------------------------------------------------
-- What was chosen
-- ---------------------------------------------------------------------------

/-- Whatever a request chose leads to columns. -/
structure FindsColumns (q : Query) : Prop where
  fields  : ∀ names, q.fields = some names → names ≠ q.entity.defaultFields →
    q.projectedFields = names
  sorts   : q.sorts ≠ [] → q.ordering = q.sorts
  filters : ∀ f ∈ q.filters, q.entity.condition? f ≠ .ok none
  search  : q.entity.searchFields.filterMap q.entity.column? =
    q.entity.searchFields.map q.entity.columnNamed

theorem Reachable.findsColumns (hq : q.Reachable) : q.FindsColumns where
  fields := by
    intro names hfields hother
    rcases hq.isWellFormed.fields with hnone | hdefault | ⟨names', hnames', hselection⟩
    · cases hnone.symm.trans hfields
    · exact absurd (Option.some.inj (hfields.symm.trans hdefault)) hother
    · obtain rfl := Option.some.inj (hfields.symm.trans hnames')
      exact projectedFields_of_selection hfields hselection
  sorts := by
    intro hsorts
    rw [ordering, List.isEmpty_eq_false_iff.mpr hsorts, if_neg Bool.false_ne_true]
    refine List.filter_eq_self.mpr fun s hs => ?_
    have hallowed := List.contains_iff_mem.mp (hq.isWellFormed.sorts s hs)
    exact Entity.isSome_column?_iff_mem_columnNames.mpr (q.entity.declares.sorted _ hallowed)
  filters := hq.hasColumns
  search := by
    rw [← List.filterMap_eq_map]
    refine List.filterMap_congr fun name hname => ?_
    rw [Entity.column?, if_pos (List.contains_iff_mem.mpr (q.entity.declares.searched name hname))]
    rfl

-- ---------------------------------------------------------------------------
-- What is chosen otherwise
-- ---------------------------------------------------------------------------

theorem mem_defaultFields_iff (e : Entity) :
    (∀ name ∈ e.defaultFields, name ∈ e.columnNames) ↔
      ∀ names ∈ e.defaultSelection, ∀ name ∈ names, name ∈ e.columnNames := by
  rw [Entity.defaultFields]
  cases e.defaultSelection with
  | none =>
    refine iff_of_true (fun name hname => ?_) (by simp)
    exact e.declares.selected name (Entity.mem_orderedFields.mp hname)
  | some names => simp

/-- The default fields are read just if all of them are columns. -/
theorem projectedFields_eq_defaultFields_iff
    (hfields : q.fields = none ∨ q.fields = some q.entity.defaultFields) :
    q.projectedFields = q.entity.defaultFields ↔
      ∀ names ∈ q.entity.defaultSelection, ∀ name ∈ names, name ∈ q.entity.columnNames := by
  rw [projectedFields_of_default hfields, ← mem_defaultFields_iff, List.filter_eq_self]
  simp only [decide_eq_true_eq]

/-- The default sort orders just if it is by a column. -/
theorem ordering_eq_defaultSort_iff (hsorts : q.sorts = []) :
    q.ordering = q.entity.defaultSort.toList ↔
      ∀ s ∈ q.entity.defaultSort, s.field ∈ q.entity.columnNames := by
  rw [ordering, hsorts, List.isEmpty_nil, if_pos rfl, List.filter_eq_self]
  simp only [Option.mem_toList, Option.mem_def, Entity.isSome_column?_iff_mem_columnNames]

-- ---------------------------------------------------------------------------
-- Columns of statements
-- ---------------------------------------------------------------------------

/-- A column that is declared: one of the entity, or one that a joined relation brings or is joined
on. -/
def Declared (q : Query) (schema : Schema) (column : Column) : Prop :=
  column ∈ q.entity.columns ∨ ∃ join ∈ q.eagerJoins schema,
    ∃ name ∈ join.2.columns ++ [join.2.rightColumn], column = join.2.column name

theorem declared_outputs :
    ∀ o ∈ q.outputs schema (q.keysFor paginate), q.Declared schema o.column := by
  intro o ho
  rcases List.mem_append.mp ho with hown | hjoined
  · obtain ⟨name, hname, rfl⟩ := List.mem_map.mp hown
    exact .inl (Entity.columnNamed_mem_columns (mem_columnNames_of_plain hname))
  · obtain ⟨join, hjoin, ho⟩ := List.mem_flatMap.mp hjoined
    obtain ⟨name, hname, rfl⟩ := List.mem_map.mp ho
    exact .inr ⟨join, hjoin, name, List.mem_append_left _ hname, rfl⟩

theorem declared_joins (h : q.compile schema paginate = .ok c) :
    ∀ t ∈ c.select.joins, ∀ column ∈ [t.left, t.right], q.Declared schema column := by
  rw [joins_select h, (columns_compile h).1]
  intro t ht
  obtain ⟨join, hjoin, rfl⟩ := List.mem_map.mp ht
  have hleft : join.2.leftColumn ∈ q.entity.columnNames := by
    by_contra hleft
    rw [compile_eq_missing_iff.mpr ⟨join, hjoin, hleft⟩] at h
    cases h
  refine List.forall_mem_cons.mpr ⟨.inl (Entity.columnNamed_mem_columns hleft), ?_⟩
  exact List.forall_mem_singleton.mpr
    (.inr ⟨join, hjoin, _, List.mem_append_right _ List.mem_cons_self, rfl⟩)

theorem columns_orderBy :
    ∀ k ∈ q.orderBy (q.keysFor paginate), k.column ∈ q.entity.columns := by
  intro k hk
  obtain ⟨key, hkey, rfl⟩ := List.mem_map.mp hk
  refine Entity.columnNamed_mem_columns ?_
  split at hkey
  · exact Entity.isSome_column?_iff_mem_columnNames.mp (List.mem_filter.mp hkey).2
  · exact mem_columnNames_of_key hkey

/-- What a compiled query reads and how it orders, and that it mentions only columns that are
declared. -/
structure IsDeclared (q : Query) (schema : Schema) (paginate : Bool) (c : Compiled) : Prop where
  projection : c.select.projection = .columns (q.outputs schema (q.keysFor paginate))
  order      : c.select.order = q.orderBy (q.keysFor paginate)
  select     : ∀ column ∈ c.select.references, q.Declared schema column
  count      : ∀ column ∈ c.count.references, column ∈ q.entity.columns

theorem isDeclared_compile (hq : q.Reachable) (h : q.compile schema paginate = .ok c) :
    q.IsDeclared schema paginate c := by
  obtain ⟨tables, conditions, after, hc, -, token, found, hfound, rfl⟩ := exists_compiles_keysFor h
  have hprojection := (columns_compile h).2.2.2
  have horder : c.select.order = q.orderBy (q.keysFor paginate) := by
    rw [hc.select]
    rfl
  have hconditions : c.select.conditions =
      conditions ++ found.1.flatMap Predicate.conjuncts := by
    rw [hc.select]
    rfl
  have hshared : ∀ column ∈ Predicate.listSubjects conditions, column ∈ q.entity.columns :=
    Predicate.forall_mem_listSubjects.mpr (tests_conditions hq.hasColumns hc.required)
  have hcursor : ∀ column ∈ Predicate.listSubjects (found.1.flatMap Predicate.conjuncts),
      column ∈ q.entity.columns := by
    intro column hcolumn
    have htests := Predicate.tests_flatMap_conjuncts.mpr (tests_cursorConditions hfound)
    obtain ⟨key, hkey, rfl⟩ := Predicate.forall_mem_listSubjects.mpr htests column hcolumn
    exact Entity.columnNamed_mem_columns (mem_columnNames_of_key hkey)
  refine ⟨hprojection, horder, ?_, ?_⟩
  · simp only [Statement.references, hprojection, horder, hconditions,
      Predicate.listSubjects_append, Projection.columnsRead, List.forall_mem_append,
      List.forall_mem_map, List.forall_mem_flatMap]
    exact ⟨⟨⟨declared_outputs, declared_joins h⟩, fun column hcolumn => .inl (hshared column hcolumn),
      fun column hcolumn => .inl (hcursor column hcolumn)⟩, fun k hk => .inl (columns_orderBy k hk)⟩
  · rw [hc.count]
    simpa [Statement.references, countStatement, Projection.columnsRead] using hshared

-- ---------------------------------------------------------------------------
-- All columns
-- ---------------------------------------------------------------------------

/-- The names that the whitelists of an entity mention, its primary key, its mark of deleted rows and
the keys of the rows to which its rows belong are columns, so that whatever a request chooses leads to
columns, and a compiled query mentions only columns that are declared. The default fields are read, if
none are selected, just if those of a declared selection are columns, and the default sort orders, if
there is no other, just if it is by a column. A query is not compiled for want of a column just if it
joins a relation on a column that the entity does not have; where the table has no dot in its name that
is the key of a row that has one related row. -/
theorem columns_declared (hq : q.Reachable) (schema : Schema) (paginate : Bool) :
    q.entity.Declares ∧ q.FindsColumns ∧
      (q.fields = none ∨ q.fields = some q.entity.defaultFields →
        (q.projectedFields = q.entity.defaultFields ↔
          ∀ names ∈ q.entity.defaultSelection, ∀ name ∈ names, name ∈ q.entity.columnNames)) ∧
      (q.sorts = [] →
        (q.ordering = q.entity.defaultSort.toList ↔
          ∀ s ∈ q.entity.defaultSort, s.field ∈ q.entity.columnNames)) ∧
      (q.compile schema paginate = .error .missing ↔
        ∃ join ∈ q.eagerJoins schema, join.2.leftColumn ∉ q.entity.columnNames) ∧
      ('.' ∉ q.entity.table.toList →
        ((∃ join ∈ q.eagerJoins schema, join.2.leftColumn ∉ q.entity.columnNames) ↔
          ∃ x ∈ q.joinedRelations, x.2.kind = .hasOne ∧ x.2.ownerKey ∉ q.entity.columnNames)) ∧
      ∀ c, q.compile schema paginate = .ok c → q.IsDeclared schema paginate c :=
  ⟨q.entity.declares, hq.findsColumns, projectedFields_eq_defaultFields_iff,
    ordering_eq_defaultSort_iff, compile_eq_missing_iff, exists_leftColumn_iff,
    fun _ h => isDeclared_compile hq h⟩

end Query

-- ---------------------------------------------------------------------------
-- Books and their chapters
-- ---------------------------------------------------------------------------

/-- Books with a chapter that is found by their code. Nothing else mentions the code, nor the numbers
that are read and the date that orders by default. -/
def Query.chaptered : Query :=
  includePath
    { entity :=
        { Entity.keyed "books"
            [("chapter", { Relation.single "chapters" .hasOne "book_code" true with
                ownerKey := "code" })] with
          includePaths     := ["chapter"]
          defaultSelection := some ["id", "isbn"]
          defaultSort      := some ⟨"published_at", .descending⟩ } }
    "chapter"

/-- They cannot be compiled, and are neither read nor ordered as they are by default. -/
theorem Query.columns_declared_chaptered :
    chaptered.compile [] false = .error .missing ∧
      chaptered.projectedFields ≠ chaptered.entity.defaultFields ∧
      chaptered.ordering ≠ chaptered.entity.defaultSort.toList := by
  have hreachable : chaptered.Reachable := .includePath "chapter" (.fresh _ _)
  obtain ⟨-, -, hfields, hsorts, hmissing, hjoins, -⟩ := columns_declared hreachable [] false
  have hunmentioned : ∀ name ∈ ["isbn", "published_at", "code"],
      name ∉ chaptered.entity.columnNames := by
    simp only [Entity.mem_columnNames]
    decide
  refine ⟨hmissing.mpr ((hjoins (by decide)).mpr ?_), fun h => ?_, fun h => ?_⟩
  · exact ⟨_, List.mem_cons_self, rfl, hunmentioned "code" (by decide)⟩
  · exact hunmentioned "isbn" (by decide)
      ((hfields (.inl rfl)).mp h _ rfl "isbn" (by decide))
  · exact hunmentioned "published_at" (by decide) ((hsorts rfl).mp h _ rfl)

end ListQuery
