import ListQuery.Proofs.Execution.PageCap
import ListQuery.Proofs.Loading.LoadedPaths
import ListQuery.Proofs.Execution.FoldedColumns

/-!
# The shape of delivered rows

A database that names the columns of its rows as a statement asks delivers rows of one shape: the
fields that were asked for, the joined relations, and where all rows are read what was loaded for
them. Columns that were read for the cursor or the includes are there as long as they are needed,
and then no longer.

* `Database.NamesColumns` — what the database has to do;
* `Query.Requests` — the fields that were asked for;
* `Query.ReadsWhole`, `Query.HasShape` — what is read, and what is delivered;
* `delivers_requested` — every run.
-/

namespace ListQuery

open Sql Database

-- ---------------------------------------------------------------------------
-- Rows as a database answers them
-- ---------------------------------------------------------------------------

/-- A row of an answer has the projected columns in their order, if no two have one name. -/
def Database.NamesColumns {σ : Type} (db : Database σ) : Prop :=
  ∀ (s : Statement) (outputs : List Output), s.projection = .columns outputs →
    (outputs.map (·.name)).Nodup → ∀ st rows st', db.rows s st = (.ok rows, st') →
      ∀ row ∈ rows, row.keys = outputs.map (·.name)

theorem Sql.Engine.namesColumns (g : Engine) : g.database.NamesColumns := by
  intro s outputs hprojection hnodup tables rows tables' hrows row hrow
  obtain ⟨hrows, -⟩ := Prod.mk.inj hrows
  split at hrows
  case isFalse => cases hrows
  case isTrue =>
    rw [← Except.ok.inj hrows, Engine.rows, hprojection] at hrow
    obtain ⟨scene, -, rfl⟩ := List.mem_map.mp hrow
    have hkeys : Entries.keys
        (outputs.map fun o => (o.label.getD o.column.name, scene.at o.column)) =
          outputs.map (·.name) := by
      rw [Entries.keys, List.map_map]
      rfl
    rw [Engine.project, Entries.ofList_of_nodup (hkeys ▸ hnodup), hkeys]

namespace Query

variable {σ : Type} {db : Database σ} {schema : Schema} {q : Query} {st st' : σ} {c : Compiled}
  {paginate : Bool} {limit : Option Int} {answer read all : List Row} {page : PageOf Row}
  {s : Statement}

-- ---------------------------------------------------------------------------
-- What is read
-- ---------------------------------------------------------------------------

/-- The rows of an answer as they are read: all are folded, and neither the cursor nor the includes
miss a column. -/
structure ReadsWhole (q : Query) (c : Compiled) (answer read : List Row) : Prop where
  folds  : answer.mapM (Row.fold c.joins) = .ok read
  cursor : ∀ row ∈ read, ∀ key ∈ c.keyColumns, ∃ v, row.value key = .ok v
  ids    : q.includes ≠ [] → ∃ ids, read.mapM (·.value q.entity.primaryKey) = .ok ids
  attach : q.includes ≠ [] → ∀ row ∈ read, ∀ included : Included,
    row.attach q.entity.primaryKey included ≠ .error .missing

theorem keys_of_answer (hq : q.WellFormed) (hapart : q.ColumnsApart schema) (hdb : db.NamesColumns)
    (hc : q.compile schema paginate = .ok c) (hs : s.projection = c.select.projection)
    (hanswer : db.rows s st = (.ok answer, st')) {row : Row} (hrow : row ∈ answer) :
    ∃ out, Row.fold c.joins row = .ok out ∧
      out.keys = q.projectedFields ++ q.hiddenFor (q.keysFor paginate) ++
        q.keptRelations schema := by
  obtain ⟨hjoins, -, -, hprojection⟩ := columns_compile hc
  have hnames := map_name_outputs q schema (q.keysFor paginate)
  have hkeys := hdb s _ (hs.trans hprojection)
    (hnames ▸ nodup_readNames hq hapart paginate) st answer st' hanswer row hrow
  rw [hjoins]
  exact exists_fold_read hq hapart (hkeys.trans hnames)

/-- The rows that are read have the fields, the hidden columns and the joined relations. -/
theorem keys_of_read (hq : q.WellFormed) (hapart : q.ColumnsApart schema) (hdb : db.NamesColumns)
    (hc : q.compile schema paginate = .ok c) (hs : s.projection = c.select.projection)
    (hanswer : db.rows s st = (.ok answer, st')) (hread : answer.mapM (Row.fold c.joins) = .ok read)
    {row : Row} (hrow : row ∈ read) :
    row.keys = q.projectedFields ++ q.hiddenFor (q.keysFor paginate) ++ q.keptRelations schema := by
  obtain ⟨answered, hanswered, hfold⟩ := exists_of_mem_forall₂ (mapM_eq_ok.mp hread) hrow
  obtain ⟨out, hout, hkeys⟩ := keys_of_answer hq hapart hdb hc hs hanswer hanswered
  rwa [Except.ok.inj (hfold.symm.trans hout)]

theorem exists_readsWhole (hq : q.WellFormed) (hapart : q.ColumnsApart schema)
    (hdb : db.NamesColumns) (hc : q.compile schema paginate = .ok c)
    (hs : s.projection = c.select.projection) (hanswer : db.rows s st = (.ok answer, st')) :
    ∃ read, q.ReadsWhole c answer read := by
  obtain ⟨-, -, hkeyColumns, -⟩ := columns_compile hc
  obtain ⟨read, hread⟩ := exists_mapM_eq_ok.mpr fun row hrow =>
    (keys_of_answer hq hapart hdb hc hs hanswer hrow).imp fun out hout => hout.1
  have hthere : ∀ row ∈ read, ∀ name ∈ q.projectedFields ++ q.hiddenFor (q.keysFor paginate),
      name ∈ row.keys := by
    intro row hrow name hname
    rw [keys_of_read hq hapart hdb hc hs hanswer hread hrow]
    exact List.mem_append_left _ hname
  refine ⟨read, hread, fun row hrow key hkey => ?_, fun hincludes => ?_,
    fun hincludes row hrow _ => ?_⟩
  · rw [hkeyColumns] at hkey
    obtain ⟨sort, hsort, rfl⟩ := List.mem_map.mp hkey
    exact Row.exists_value_iff.mpr (hthere row hrow _ (q.mem_read_of_mem_keys hsort))
  · exact exists_mapM_eq_ok.mpr fun row hrow =>
      Row.exists_value_iff.mpr (hthere row hrow _ (primaryKey_mem_read hincludes _))
  · exact Row.attach_ne_missing (hthere row hrow _ (primaryKey_mem_read hincludes _))

-- ---------------------------------------------------------------------------
-- What is delivered
-- ---------------------------------------------------------------------------

/-- The fields that were asked for: the selected ones, or without a selection the default ones that
are columns. -/
inductive Requests (q : Query) : List String → Prop
  | selected {names : List String} (hfields : q.fields = some names)
      (hselection : IsSelection q.entity names) : Requests q names
  | default (hfields : q.fields = none ∨ q.fields = some q.entity.defaultFields) :
    Requests q (q.entity.defaultFields.filter (· ∈ q.entity.columnNames))

theorem requests_projectedFields (hq : q.WellFormed) : q.Requests q.projectedFields := by
  rcases hq.fields with hnone | hall | ⟨names, hfields, hselection⟩
  · rw [projectedFields_of_default (.inl hnone)]
    exact .default (.inl hnone)
  · rw [projectedFields_of_default (.inr hall)]
    exact .default (.inr hall)
  · rw [projectedFields_of_selection hfields hselection]
    exact .selected hfields hselection

/-- A delivered row: the fields that were asked for, the joined relations and what was loaded, in
this order, and no column that was read only for the cursor or the includes. -/
structure HasShape (q : Query) (schema : Schema) (paginate : Bool) (loaded : List String)
    (row : Row) : Prop where
  columns : row.keys = q.projectedFields ++ q.keptRelations schema ++ loaded
  hides   : ∀ name ∈ q.hiddenFor (q.keysFor paginate), name ∉ row.keys

/-- The paths that are put on a row: those that it has no column of yet. -/
def newPaths (q : Query) (schema : Schema) (included : Included) : List String :=
  included.keys.filter
    (· ∉ q.projectedFields ++ q.hiddenFor (q.keysFor false) ++ q.keptRelations schema)

theorem hasShape_stripHidden (hq : q.WellFormed) (hapart : q.ColumnsApart schema)
    {loaded : List String} {row : Row}
    (hrow : row.keys = q.projectedFields ++ q.hiddenFor (q.keysFor paginate) ++
      q.keptRelations schema ++ loaded)
    (hloaded : ∀ name ∈ loaded, name ∉ q.hiddenFor (q.keysFor paginate)) :
    q.HasShape schema paginate loaded (row.stripHidden (q.hiddenFor (q.keysFor paginate))) := by
  have hprojected : ∀ name ∈ q.projectedFields, name ∉ q.hiddenFor (q.keysFor paginate) :=
    fun name hname hhidden => (q.mem_hiddenFor.mp hhidden).2 hname
  have hkept : ∀ name ∈ q.keptRelations schema, name ∉ q.hiddenFor (q.keysFor paginate) :=
    fun name hname hhidden => notMem_columnNames_of_include hq hapart (mem_includes_of_kept hname)
      (mem_columnNames_of_hidden hhidden)
  have hstays : ∀ names : List String, (∀ name ∈ names, name ∉ q.hiddenFor (q.keysFor paginate)) →
      names.filter (· ∉ q.hiddenFor (q.keysFor paginate)) = names := fun names hnames =>
    List.filter_eq_self.mpr fun name hname => decide_eq_true (hnames name hname)
  have hnone : (q.hiddenFor (q.keysFor paginate)).filter
      (· ∉ q.hiddenFor (q.keysFor paginate)) = [] :=
    List.filter_eq_nil_iff.mpr fun name hname hnot => of_decide_eq_true hnot hname
  constructor
  · rw [Row.keys_stripHidden, hrow, List.filter_append, List.filter_append, List.filter_append,
      hstays _ hprojected, hnone, hstays _ hkept, hstays _ hloaded, List.append_nil]
  · intro name hhidden hhere
    rw [Row.keys_stripHidden] at hhere
    exact of_decide_eq_true (List.mem_filter.mp hhere).2 hhidden

theorem hasShape_of_runPage (hq : q.WellFormed) (hapart : q.ColumnsApart schema)
    (hdb : db.NamesColumns) (h : q.runPage db schema st = (.ok page, st')) {row : Row}
    (hrow : row ∈ page.data) : q.HasShape schema true [] row := by
  obtain ⟨c, read, st₁, st₂, st₃, hc, -, hread, -, hdata, -⟩ := runPage_parts h
  obtain ⟨-, hhidden, -, -⟩ := columns_compile hc
  obtain ⟨answer, hanswer, hfold⟩ := exists_answer_of_fetch hread
  rw [hdata, hhidden] at hrow
  obtain ⟨out, hout, rfl⟩ := List.mem_map.mp hrow
  have hmem : out ∈ read := by
    cases hpage : c.page with
    | offset number n =>
      rw [hpage] at hout
      exact hout
    | cursor token n =>
      rw [hpage] at hout
      exact List.mem_of_mem_take hout
  refine hasShape_stripHidden hq hapart ?_ (List.forall_mem_nil _)
  rw [List.append_nil]
  exact keys_of_read hq hapart hdb hc rfl hanswer hfold hmem

/-- The rows of a run over rows, with what was loaded for those that were read. -/
def DeliversRows (db : Database σ) (schema : Schema) (q : Query) (limit : Option Int) (st : σ)
    (rows : List Row) : Prop :=
  ∃ c read st₁ included st₂, q.compile schema false = .ok c ∧
    (fetch db c.joins (c.upTo limit)).run (db.connect st) = (.ok read, st₁) ∧
    (q.loadIncluded db schema read).run st₁ = (.ok included, st₂) ∧
    WithinPaths (Loading.wanted q.entity q.includes) included ∧
    ∀ row ∈ rows, q.HasShape schema false (q.newPaths schema included) row

theorem deliversRows_of_rowsWork (hq : q.WellFormed) (hapart : q.ColumnsApart schema)
    (hdb : db.NamesColumns)
    (h : (q.rowsWork db schema limit).run (db.connect st) = (.ok all, st')) :
    DeliversRows db schema q limit st all := by
  obtain ⟨c, read, st₁, included, rows, hc, hread, hincluded, hattach, rfl⟩ := rowsWork_parts h
  obtain ⟨-, hhidden, -, -⟩ := columns_compile hc
  obtain ⟨answer, hanswer, hfold⟩ := exists_answer_of_fetch hread
  have hwithin := withinPaths_loadIncluded hincluded
  refine ⟨c, read, st₁, included, st', hc, hread, hincluded, hwithin, fun row hrow => ?_⟩
  rw [hhidden] at hrow
  obtain ⟨out, hout, rfl⟩ := List.mem_map.mp hrow
  obtain ⟨folded, hfolded, hattached⟩ := exists_of_mem_forall₂ (mapM_eq_ok.mp hattach) hout
  have hkeys := keys_of_read hq hapart hdb hc (c.projection_upTo limit) hanswer hfold hfolded
  refine hasShape_stripHidden hq hapart ?_ fun name hname hhere => ?_
  · rw [Row.keys_attach hwithin.nodup hattached, hkeys, newPaths]
  · have hnew := of_decide_eq_true (List.mem_filter.mp hname).2
    exact hnew (List.mem_append_left _ (List.mem_append_right _ hhere))

-- ---------------------------------------------------------------------------
-- Every run
-- ---------------------------------------------------------------------------

/-- Delivered rows have the requested shape, whether as a page, as all rows or as the first one: the
fields that were asked for, the joined relations in the order of the includes, and what was loaded
for them. Only the joined relations can fall short: one with the name of a label of a later one is
taken off with that label. Nothing that is needed of a row is missing when it is read, and nothing
stays that was read for that alone. -/
theorem delivers_requested (hq : q.Reachable) (hapart : q.ColumnsApart schema)
    (hdb : db.NamesColumns) :
    q.Requests q.projectedFields ∧
    (q.keptRelations schema = q.includes.filter (q.entity.joinsEagerly ·) ↔
      (q.eagerJoins schema).Pairwise fun first later => first.1 ∉ later.2.labels) ∧
    (∀ paginate c s st answer st', q.compile schema paginate = .ok c →
      s.projection = c.select.projection → db.rows s st = (.ok answer, st') →
        ∃ read, q.ReadsWhole c answer read) ∧
    (∀ st page st', q.runPage db schema st = (.ok page, st') →
      ∀ row ∈ page.data, q.HasShape schema true [] row) ∧
    (∀ st all st', q.runAll db schema st = (.ok all, st') →
      DeliversRows db schema q none st all) ∧
    ∀ st first st', q.runFirst db schema st = (.ok first, st') →
      DeliversRows db schema q (some 1) st first.toList := by
  have hwell := hq.isWellFormed
  refine ⟨requests_projectedFields hwell, keptRelations_eq_iff,
    fun paginate c s st answer st' hc hs hanswer =>
      exists_readsWhole hwell hapart hdb hc hs hanswer,
    fun st page st' h row hrow => hasShape_of_runPage hwell hapart hdb h hrow,
    fun st all st' h => ?_, fun st first st' h => ?_⟩
  · obtain ⟨st₁, hwork, -⟩ := withConnection_eq_ok db |>.mp h
    exact deliversRows_of_rowsWork hwell hapart hdb hwork
  · obtain ⟨st₁, hwork, -⟩ := withConnection_eq_ok db |>.mp h
    obtain ⟨all, hall, rfl⟩ := run_map_eq_ok.mp hwork
    obtain ⟨c, read, st₂, included, st₃, hc, hread, hincluded, hwithin, hrows⟩ :=
      deliversRows_of_rowsWork hwell hapart hdb hall
    refine ⟨c, read, st₂, included, st₃, hc, hread, hincluded, hwithin, fun row hrow =>
      hrows row ?_⟩
    exact List.mem_of_mem_head? (Option.mem_toList.mp hrow)

end Query

-- ---------------------------------------------------------------------------
-- Books, their authors and the names of these
-- ---------------------------------------------------------------------------

/-- Books with two joined relations, of which one has the name of a label of the other. -/
def Entity.signed : Entity :=
  { Entity.keyed "books"
      [("author", { Relation.single "authors" .belongsTo "author_id" true with
          columns := some ["id", "name"] }),
        ("author__name", .single "names" .belongsTo "name_id" true)] with
    selectFields := ["id", "title"]
    defaultSelection := some ["title"]
    includePaths := ["author", "author__name"]
    types := [("id", .integer), ("title", .integer), ("author_id", .integer),
      ("name_id", .integer)] }

def Query.signed : Query := includePath (includePath { entity := .signed } "author__name") "author"

/-- One book, its author and the author's name. -/
def Sql.Tables.signed : Tables
  | "books"   => [.ofInts [("id", 1), ("title", 2), ("author_id", 5), ("name_id", 9)]]
  | "authors" => [.ofInts [("id", 5), ("name", 7)]]
  | "names"   => [.ofInts [("id", 9)]]
  | _         => []

namespace Query

theorem columnsApart_signed : signed.ColumnsApart [] where
  types     := by decide
  selection := by decide
  includes  := by decide +kernel
  labels    := by decide
  columns   := by decide +kernel

/-- Here the run can be evaluated, and gives one row. -/
theorem exists_runAll_signed :
    ∃ row tables', signed.runAll Engine.integers.database [] .signed = (.ok [row], tables') := by
  have hone : (signed.runAll Engine.integers.database [] .signed).1.toOption.any
      (·.length == 1) = true := by
    rw [Engine.database_eq]
    decide +kernel
  generalize signed.runAll Engine.integers.database [] .signed = result at hone
  obtain ⟨_ | all, tables'⟩ := result
  · cases hone
  · obtain ⟨row, rfl⟩ := List.length_eq_one_iff.mp (eq_of_beq hone)
    exact ⟨row, tables', rfl⟩

/-- The key is hidden, and of the two relations the first one is missing. -/
theorem delivers_requested_signed :
    ∃ row tables', signed.runAll Engine.integers.database [] .signed = (.ok [row], tables') ∧
      signed.includes.filter (signed.entity.joinsEagerly ·) = ["author__name", "author"] ∧
      signed.hiddenFor [] = ["id"] ∧ row.keys = ["title", "author"] := by
  obtain ⟨row, tables', hrun⟩ := exists_runAll_signed
  have hreachable : signed.Reachable :=
    .includePath "author" (.includePath "author__name" (.fresh .signed .standard))
  obtain ⟨-, -, -, -, hall, -⟩ :=
    delivers_requested hreachable columnsApart_signed Engine.integers.namesColumns
  obtain ⟨c, read, tables₁, included, tables₂, -, -, -, hwithin, hshape⟩ := hall _ _ _ hrun
  have hnone : included.keys = [] := by
    refine List.eq_nil_iff_forall_not_mem.mpr fun p hp => ?_
    obtain ⟨path, hpath, -⟩ := hwithin.begins p hp
    have hwanted : Loading.wanted signed.entity signed.includes = [] := by decide
    rw [hwanted] at hpath
    exact List.not_mem_nil hpath
  refine ⟨row, tables', hrun, by decide, by decide, ?_⟩
  rw [(hshape row List.mem_cons_self).columns, newPaths, hnone]
  decide

end Query

end ListQuery
