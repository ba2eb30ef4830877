import ListQuery.Proofs.Execution.KeptIncludes
import ListQuery.Proofs.Loading.OneByOne
import ListQuery.Proofs.Query.TableNames
import ListQuery.Proofs.Sql.OuterJoin

/-!
# Joined relations as they are loaded

A relation that leads to one row at most can be joined into the query of the rows or loaded for them.
Either way a row gets the same related row, or none: a key without a partner, be it nothing or one
that stands nowhere, leaves the joined columns empty, and there is no group for it. The rows
themselves are those that the query finds without its joins, in their order.

* `ReadsAlike` — what is asked of a relation and of the tables;
* `related_eq`, `nested_eq` — what is loaded for a row, and what is joined to it;
* `loadsAsJoined` — that this is the same;
* `exists_run_fetch` — the rows of a query with joins;
* `joined_as_loaded` — joining and loading for all rows of a query.
-/

namespace ListQuery

open Sql Database Loading Text

-- ---------------------------------------------------------------------------
-- One relation
-- ---------------------------------------------------------------------------

/-- The rows to which a relation to a single row leads from a row. -/
def Loading.partners (tables : Tables) (e : Entity) (name : String) (r : Relation) (o : Record) :
    List Record :=
  (tables r.table).filter fun x =>
    (o (EagerJoin.rowKey e name r)).links (x (EagerJoin.relatedKey e name r))

/-- A relation that can be joined and loaded alike: its rows are in another table, the columns that
are read of them show whether there is a row, and each row leads to one at most. -/
structure Loading.ReadsAlike (tables : Tables) (schema : Schema) (e : Entity) (name : String)
    (r : Relation) : Prop where
  keyed   : r.kind = .hasOne → r.ownerKey = e.primaryKey
  apart   : r.table ≠ e.table
  columns : (Entity.relatedColumns schema r).Nodup
  shown   : EagerJoin.relatedKey e name r ∈ Entity.relatedColumns schema r
  unnamed : parentKey ∉ Entity.relatedColumns schema r
  single  : ∀ o ∈ tables e.table, (Loading.partners tables e name r o).length ≤ 1

variable {tables : Tables} {schema : Schema} {e : Entity} {name : String} {r : Relation} {g : Engine}
  {o : Record}

namespace Loading

/-- What is loaded for a row are the rows to which it leads. -/
theorem related_eq (hr : e.relation? name = some r) (hkind : r.kind = .belongsTo ∨ r.kind = .hasOne)
    (halike : ReadsAlike tables schema e name r) (hkeyed : tables.KeyedBy e.table e.primaryKey)
    (ho : o ∈ tables e.table) (hself : (o e.primaryKey).links (o e.primaryKey) = true) :
    related tables schema e name (o e.primaryKey) =
      (partners tables e name r o).map (relatedRow schema r) := by
  rcases hkind with hkind | hkind
  · -- the row with this key is the row itself
    have hfind : (tables e.table).find? (fun o' => (o' e.primaryKey).links (o e.primaryKey)) =
        some o := by
      have hmem : o ∈ (tables e.table).filter fun o' =>
          (o' e.primaryKey).links (o e.primaryKey) := List.mem_filter.mpr ⟨ho, hself⟩
      rw [hkeyed.filter_eq_toList_find?] at hmem
      exact Option.mem_toList.mp hmem
    rw [related_belongsTo hr hkind hkeyed, hfind, partners, EagerJoin.rowKey, EagerJoin.relatedKey,
      if_pos hkind, if_pos hkind]
  · have hother : r.kind ≠ .belongsTo := by
      rw [hkind]
      decide
    rw [related_held hr (.inl hkind), partners, EagerJoin.rowKey, EagerJoin.relatedKey,
      if_neg hother, if_neg hother, halike.keyed hkind]
    refine congrArg _ (List.filter_congr fun x _ => ?_)
    exact Value.links_comm _ _

/-- A column that is read of a related row is among those that are loaded of it. -/
theorem get?_relatedRow {column : String} (hcolumn : column ∈ Entity.relatedColumns schema r)
    (hname : column ≠ parentKey) (x : Record) :
    (relatedRow schema r x).get? column = some (x column) := by
  have hread : column ∈ readColumns schema r := by
    rw [readColumns]
    split
    · exact mem_distinct.mpr (List.mem_cons_of_mem _ hcolumn)
    · exact hcolumn
  rw [relatedRow, Entries.get?_ofList_map,
    if_pos (List.mem_filter.mpr ⟨hread, decide_eq_true hname⟩)]

/-- The row to which a join on the keys of a relation leads. -/
theorem partner_eq (hg : g.ComparesKeys) :
    g.partner tables (EagerJoin.onKeys e name r) o =
      ((partners tables e name r o).head?).getD fun _ => .null := by
  rw [Engine.partner, partners, List.head?_filter]
  refine congrArg (Option.getD · _) (congrArg (List.find? · _) (funext fun x => ?_))
  exact hg.joins _ _ _ _

/-- What is joined to a row are the columns of the row to which it leads, or nothing. -/
theorem nested_eq (hg : g.ComparesKeys) (halike : ReadsAlike tables schema e name r) :
    Row.relatedOf ((Entity.relatedColumns schema r).map fun column =>
        (column, g.partner tables (EagerJoin.onKeys e name r) o column)) =
      match partners tables e name r o with
      | []     => .null
      | x :: _ => .record ((Entity.relatedColumns schema r).map fun column => (column, x column)) := by
  rw [partner_eq hg, Row.relatedOf]
  cases hpartners : partners tables e name r o with
  | nil =>
    refine if_pos (List.all_eq_true.mpr fun entry hentry => ?_)
    obtain ⟨column, -, rfl⟩ := List.mem_map.mp hentry
    rfl
  | cons x xs =>
    have hx : x ∈ partners tables e name r o := hpartners ▸ List.mem_cons_self
    have hlinks := (List.mem_filter.mp hx).2
    have hsome : (x (EagerJoin.relatedKey e name r)).isNull = false := by
      rw [Value.links_comm] at hlinks
      exact Value.isNull_of_links hlinks
    refine if_neg fun hall => ?_
    have hnull := List.all_eq_true.mp hall _
      (List.mem_map.mpr ⟨EagerJoin.relatedKey e name r, halike.shown, rfl⟩)
    exact Bool.false_ne_true (hsome.symm.trans hnull)

end Loading

-- ---------------------------------------------------------------------------
-- What is read of a row
-- ---------------------------------------------------------------------------

namespace Query

variable {q : Query} {c : Compiled} {paginate : Bool} {fields : List String} {s : Scene}
  {joins : List (String × EagerJoin)} {join : String × EagerJoin} {label : String}

theorem project_eq (q : Query) (fields : List String) (joins : List (String × EagerJoin))
    (s : Scene) :
    Engine.project (fields.map q.output ++ joins.flatMap fun j => j.2.outputs) s =
      (joins.flatMap fun j =>
          j.2.columns.map fun name => (j.2.label name, s.at (j.2.column name))).foldl
        (fun m entry => Entries.put entry.1 entry.2 m)
        (Entries.ofList (fields.map fun name => (name, s.at (q.entity.columnNamed name)))) := by
  rw [Engine.project, List.map_append, Entries.ofList, List.foldl_append, List.map_map,
    List.map_flatMap]
  refine congrArg (List.foldl _ _) (List.flatMap_congr fun j _ => ?_)
  rw [EagerJoin.outputs, List.map_map]
  rfl

theorem keys_joined (joins : List (String × EagerJoin)) (s : Scene) :
    Entries.keys (joins.flatMap fun j =>
      j.2.columns.map fun name => (j.2.label name, s.at (j.2.column name))) =
        joins.flatMap (·.2.labels) := by
  rw [Entries.keys, List.map_flatMap]
  refine List.flatMap_congr fun j _ => ?_
  rw [List.map_map]
  rfl

/-- What is read under a label is the joined column. -/
theorem get?_project_label (hn : (joins.flatMap (·.2.labels)).Nodup) (hjoin : join ∈ joins)
    {name : String} (hname : name ∈ join.2.columns) :
    Entries.get? (join.2.label name)
        (Engine.project (fields.map q.output ++ joins.flatMap fun j => j.2.outputs) s) =
      some (s.at (join.2.column name)) := by
  rw [project_eq, Entries.get?_foldl_put (by rwa [keys_joined])]
  rw [Entries.get?_eq_some_of_mem (by rwa [keys_joined])
    (List.mem_flatMap.mpr ⟨join, hjoin, List.mem_map.mpr ⟨name, hname, rfl⟩⟩)]
  rfl

/-- What is read under another name is the column of the row. -/
theorem get?_project_own {name : String} (hname : name ∈ fields)
    (hlabel : name ∉ joins.flatMap (·.2.labels)) :
    Entries.get? name
        (Engine.project (fields.map q.output ++ joins.flatMap fun j => j.2.outputs) s) =
      some (s.at (q.entity.columnNamed name)) := by
  rw [project_eq, Entries.get?_foldl_put_of_notMem (by rwa [keys_joined]),
    Entries.get?_ofList_map, if_pos hname]

-- ---------------------------------------------------------------------------
-- The rows of a query
-- ---------------------------------------------------------------------------

/-- The joins of a query on the columns on which its relations are loaded. -/
def joinsOnKeys (q : Query) : List Join :=
  q.joinedRelations.map fun x => EagerJoin.onKeys q.entity x.1 x.2

theorem map_label_joinsOnKeys (q : Query) :
    q.joinsOnKeys.map (·.table.label) =
      (q.includes.filter (q.entity.joinsEagerly ·)).map snakeCase := by
  rw [← map_fst_joinedRelations, joinsOnKeys, List.map_map, List.map_map]
  rfl

/-- A row with the rows to which its joined relations lead. -/
def sceneOf (q : Query) (g : Engine) (tables : Tables) (o : Record) : Scene :=
  g.joined tables q.joinsOnKeys o (Scene.single q.entity.table o)

/-- The rows that the conditions of a query leave, in its order and cut. -/
def parents (q : Query) (g : Engine) (tables : Tables) (st : Statement) : List Record :=
  Engine.cut st.limit st.offset
    ((g.matching tables q.entity.table st.conditions).mergeSort fun a b =>
      g.sceneLe st.order (Scene.single q.entity.table a) (Scene.single q.entity.table b))

theorem at_sceneOf_own (hnames : q.NamesApart) (o : Record) (name : String) :
    (q.sceneOf g tables o).at (q.entity.columnNamed name) = o name := by
  have hbase : q.entity.table ∉ q.joinsOnKeys.map (·.table.label) := by
    rw [map_label_joinsOnKeys]
    exact (List.nodup_cons.mp hnames).1
  show q.sceneOf g tables o q.entity.table name = o name
  rw [sceneOf, Engine.joined_of_notMem hbase, Scene.single, Scene.put_self]

theorem at_sceneOf_joined (hnames : q.NamesApart) (o : Record) {x : String × Relation}
    (hx : x ∈ q.joinedRelations) (column : String) :
    (q.sceneOf g tables o).at ((EagerJoin.made schema q.entity x.1 x.2).column column) =
      g.partner tables (EagerJoin.onKeys q.entity x.1 x.2) o column := by
  have hn : (q.joinsOnKeys.map (·.table.label)).Nodup := by
    rw [map_label_joinsOnKeys]
    exact (List.nodup_cons.mp hnames).2
  have hj : EagerJoin.onKeys q.entity x.1 x.2 ∈ q.joinsOnKeys := List.mem_map.mpr ⟨x, hx, rfl⟩
  have hpartner : q.sceneOf g tables o (EagerJoin.onKeys q.entity x.1 x.2).table.label =
      g.partner tables (EagerJoin.onKeys q.entity x.1 x.2) o := Engine.joined_of_mem hn hj
  rw [← hpartner]
  rfl

end Query

/-- A relation to a single row can be read. -/
theorem Loading.isSome_reader? (hr : e.relation? name = some r)
    (hkind : r.kind = .belongsTo ∨ r.kind = .hasOne) : (reader? schema e name).isSome = true := by
  rw [reader?_eq, hr, Option.bind_some, Option.isSome_map, source?]
  rcases hkind with hkind | hkind <;> rw [hkind] <;> rfl

/-- A relation of a row, loaded together with those of others, is what is joined to the row: there is
no group of it where nothing is joined, and otherwise its only row has the joined columns. -/
def Loading.LoadsAsJoined (g : Engine) (tables : Tables) (schema : Schema) (e : Entity)
    (name : String) (r : Relation) (key : Value) (nested : Option Value) : Prop :=
  ∀ ids : List Value, (∀ i ∈ ids, i.isKey = true) → key ∈ ids →
    ∃ grouped, (relation g.database schema e name (.list ids)).run tables = (.ok grouped, tables) ∧
      (grouped.group? key = none ∧ nested = some .null ∨
        ∃ loaded related, grouped.group? key = some [loaded] ∧ nested = some (.record related) ∧
          related.keys = Entity.relatedColumns schema r ∧
          ∀ column ∈ Entity.relatedColumns schema r, related.get? column = loaded.get? column)

theorem Loading.loadsAsJoined (hg : g.ComparesKeys) (hr : e.relation? name = some r)
    (hkind : r.kind = .belongsTo ∨ r.kind = .hasOne) (halike : ReadsAlike tables schema e name r)
    (hkeyed : tables.KeyedBy e.table e.primaryKey) (ho : o ∈ tables e.table)
    (hself : (o e.primaryKey).links (o e.primaryKey) = true) :
    LoadsAsJoined g tables schema e name r (o e.primaryKey)
      (some (Row.relatedOf ((Entity.relatedColumns schema r).map fun column =>
        (column, g.partner tables (EagerJoin.onKeys e name r) o column)))) := by
  intro ids hids hmem
  have hapart : TablesApart e r := ⟨fun _ => halike.apart, fun hmany => by
    rcases hkind with hkind | hkind <;> cases hkind.symm.trans hmany⟩
  obtain ⟨grouped, tables', hrun, rfl, hgroups⟩ := exists_relation hg (g.answers_database tables) hr
    (isSome_reader? hr hkind) halike.columns hapart hids rfl
  refine ⟨grouped, hrun, ?_⟩
  have hnone := hgroups.group?_eq_none_iff hmem
  have hperm := hgroups.rowsOf _ hmem
  rw [related_eq hr hkind halike hkeyed ho hself] at hnone hperm
  have hsingle := halike.single o ho
  rw [nested_eq hg halike]
  cases hpartners : partners tables' e name r o with
  | nil =>
    rw [hpartners] at hnone
    exact .inl ⟨hnone.mpr rfl, rfl⟩
  | cons x xs =>
    obtain rfl : xs = [] := by
      rw [hpartners, List.length_cons] at hsingle
      exact List.length_eq_zero_iff.mp (by omega)
    rw [hpartners] at hnone hperm
    refine .inr ⟨relatedRow schema r x, _, ?_, rfl, ?_, fun column hcolumn => ?_⟩
    · cases hgroup : grouped.group? (o e.primaryKey) with
      | none => cases hnone.mp hgroup
      | some rows =>
        have hrows : grouped.rowsOf (o e.primaryKey) = rows := by
          rw [Grouped.rowsOf, ← Grouped.group?, hgroup]
          rfl
        rw [← List.perm_singleton.mp (hrows ▸ hperm)]
    · exact Entries.keys_map_name _ _
    · have hnamed : column ≠ parentKey := fun heq => halike.unnamed (heq ▸ hcolumn)
      rw [get?_relatedRow hcolumn hnamed, Entries.get?_map_name x hcolumn]

namespace Query

variable {q : Query} {c : Compiled} {paginate : Bool}

/-- A statement of the rows whose joins are on the columns on which the relations are loaded. -/
structure SelectsOnKeys (q : Query) (schema : Schema) (c : Compiled) : Prop where
  made   : c.joins = q.joinedRelations.map fun x => (x.1, EagerJoin.made schema q.entity x.1 x.2)
  table  : c.select.table = ⟨q.entity.table, none⟩
  joins  : c.select.joins = q.joinsOnKeys
  labels : c.select.labels.Nodup
  plain  : c.select.IsPlain ((q.projectedFields ++ c.hidden).map q.output ++
    c.joins.flatMap fun j => j.2.outputs)

theorem selectsOnKeys_compile (hq : q.Reachable) (hnames : q.NamesApart)
    (hjoins : q.joinedTables schema = .ok q.joinsOnKeys)
    (hc : q.compile schema paginate = .ok c) : q.SelectsOnKeys schema c := by
  obtain ⟨keys, joins, conditions, after, hcompiles⟩ := exists_compiles hc
  obtain rfl := Except.ok.inj (hcompiles.joined.symm.trans hjoins)
  obtain ⟨htable, os, hplain⟩ := isPlain_compile hq.hasColumns hc
  have hprojection : c.select.projection = .columns ((q.projectedFields ++ c.hidden).map q.output ++
      c.joins.flatMap fun j => j.2.outputs) := by
    rw [hcompiles.select, hcompiles.hidden, hcompiles.joins]
    rfl
  obtain rfl := Projection.columns.inj (hplain.projection.symm.trans hprojection)
  exact
    { made   := hcompiles.joins.trans eagerJoins_eq_map
      table  := htable
      joins  := by
        rw [hcompiles.select]
        rfl
      labels := by
        rw [labels_select hc]
        exact hnames
      plain  := hplain }

/-- The joins lead to one row at most from each row. -/
theorem SelectsOnKeys.leadsToOne (hselects : q.SelectsOnKeys schema c) (hg : g.ComparesKeys)
    (halike : ∀ x ∈ q.joinedRelations, ReadsAlike tables schema q.entity x.1 x.2) :
    ∀ j ∈ c.select.joins, g.LeadsToOne tables q.entity.table j := by
  rw [hselects.joins]
  intro j hj
  obtain ⟨x, hx, rfl⟩ := List.mem_map.mp hj
  refine ⟨rfl, rfl, rfl, fun o ho => ?_⟩
  have hfilter : ((tables (EagerJoin.onKeys q.entity x.1 x.2).table.name).filter fun y =>
      g.joins (EagerJoin.onKeys q.entity x.1 x.2).left (EagerJoin.onKeys q.entity x.1 x.2).right
        (o (EagerJoin.onKeys q.entity x.1 x.2).left.name)
        (y (EagerJoin.onKeys q.entity x.1 x.2).right.name)) =
      Loading.partners tables q.entity x.1 x.2 o :=
    List.filter_congr fun y _ => hg.joins _ _ _ _
  rw [hfilter]
  exact (halike x hx).single o ho

/-- What a row shows: its own columns, and under the name of each joined relation what would be loaded
for it. -/
structure ShowsAsLoaded (q : Query) (g : Engine) (tables : Tables) (schema : Schema) (c : Compiled)
    (o : Record) (row : Row) : Prop where
  own    : ∀ name ∈ q.projectedFields ++ c.hidden, name ∉ c.joins.map (·.1) →
    name ∉ c.joins.flatMap (·.2.labels) → row.get? name = some (o name)
  joined : ∀ x ∈ q.joinedRelations,
    LoadsAsJoined g tables schema q.entity x.1 x.2 (o q.entity.primaryKey) (row.get? x.1)

section
variable (hg : g.ComparesKeys) (hnames : q.NamesApart)
  (halike : ∀ x ∈ q.joinedRelations, ReadsAlike tables schema q.entity x.1 x.2)
  (hkeyed : tables.KeyedBy q.entity.table q.entity.primaryKey)
  (hselects : q.SelectsOnKeys schema c) (hlabels : c.joins.Pairwise Row.FoldApart)

include hg hnames halike hkeyed hselects hlabels

/-- A row that was read can be folded, and shows what would be loaded for it. -/
theorem exists_fold_shows (ho : o ∈ tables q.entity.table)
    (hself : (o q.entity.primaryKey).links (o q.entity.primaryKey) = true) :
    ∃ row, Row.fold c.joins (Engine.project ((q.projectedFields ++ c.hidden).map q.output ++
        c.joins.flatMap fun j => j.2.outputs) (q.sceneOf g tables o)) = .ok row ∧
      q.ShowsAsLoaded g tables schema c o row := by
  have hnames' : (c.joins.map (·.1)).Nodup := by
    rw [hselects.made, List.map_map]
    show (q.joinedRelations.map (·.1)).Nodup
    rw [map_fst_joinedRelations]
    exact (List.nodup_cons.mp hnames).2.of_map _
  have hcolumns : ∀ join ∈ c.joins, join.2.columns.Nodup := by
    intro join hjoin
    rw [hselects.made] at hjoin
    obtain ⟨x, hx, rfl⟩ := List.mem_map.mp hjoin
    exact (halike x hx).columns
  obtain ⟨row, hrow, hjoined, hown⟩ := Row.exists_fold hcolumns hnames' hlabels
    fun join hjoin name hname => get?_project_label (q := q) (s := q.sceneOf g tables o)
      (Row.nodup_labels hcolumns hlabels) hjoin hname
  refine ⟨row, hrow, fun name hname hother hlabel => ?_, fun x hx => ?_⟩
  · rw [hown name hother hlabel, get?_project_own hname hlabel, at_sceneOf_own hnames]
  · have hjoin : (x.1, EagerJoin.made schema q.entity x.1 x.2) ∈ c.joins := by
      rw [hselects.made]
      exact List.mem_map.mpr ⟨x, hx, rfl⟩
    have hnested : row.get? x.1 = some (Row.relatedOf
        ((Entity.relatedColumns schema x.2).map fun column =>
          (column, g.partner tables (EagerJoin.onKeys q.entity x.1 x.2) o column))) := by
      rw [hjoined _ hjoin]
      refine congrArg (fun entries => some (Row.relatedOf entries)) ?_
      exact List.map_congr_left fun column _ =>
        congrArg (Prod.mk column) (at_sceneOf_joined hnames o hx column)
    obtain ⟨-, hr, hkind⟩ := of_mem_joinedRelations hx
    rw [hnested]
    exact loadsAsJoined hg hr hkind (halike x hx) hkeyed ho hself

/-- The rows of the entity that are found are delivered, each with what would be loaded for it. -/
theorem exists_run_fetch
    (hself : ∀ o ∈ tables q.entity.table,
      (o q.entity.primaryKey).links (o q.entity.primaryKey) = true) :
    ∃ rows, (fetch g.database c.joins c.select).run tables =
        (c.select.check.map fun _ => rows, tables) ∧
      List.Forall₂ (q.ShowsAsLoaded g tables schema c) (q.parents g tables c.select) rows := by
  have hread : g.rows tables c.select = (q.parents g tables c.select).map fun o =>
      Engine.project ((q.projectedFields ++ c.hidden).map q.output ++
        c.joins.flatMap fun j => j.2.outputs) (q.sceneOf g tables o) := by
    rw [Engine.rows_joined (hselects.leadsToOne hg halike) hselects.table hselects.labels
      hselects.plain, hselects.joins]
    rfl
  have hmem : ∀ o ∈ q.parents g tables c.select, o ∈ tables q.entity.table := fun o ho =>
    List.mem_of_mem_filter ((List.mergeSort_perm _ _).mem_iff.mp (Engine.mem_of_mem_cut ho))
  have hfold : ∀ o ∈ q.parents g tables c.select, ∃ row,
      Row.fold c.joins (Engine.project ((q.projectedFields ++ c.hidden).map q.output ++
        c.joins.flatMap fun j => j.2.outputs) (q.sceneOf g tables o)) = .ok row ∧
      q.ShowsAsLoaded g tables schema c o row := fun o ho =>
    exists_fold_shows hg hnames halike hkeyed hselects hlabels (hmem o ho) (hself o (hmem o ho))
  obtain ⟨rows, hrows⟩ := exists_forall₂ hfold
  have hfolded : (g.rows tables c.select).mapM (Row.fold c.joins) = .ok rows := by
    rw [hread, mapM_eq_ok, List.forall₂_map_left_iff]
    exact hrows.imp fun o row h => h.1
  refine ⟨rows, ?_, hrows.imp fun o row h => h.2⟩
  rw [fetch, run_bind, run_readRows]
  cases c.select.check with
  | error failure => rfl
  | ok u =>
    have hanswer : g.database.rows c.select tables = (.ok (g.rows tables c.select), tables) := by
      show ((if c.select.labels.Nodup then _ else _), tables) = _
      rw [if_pos hselects.labels]
    dsimp only
    rw [hanswer]
    dsimp only
    rw [run_pureStep, hfolded]
    rfl

end

/-- Where neither the entity's table nor a joined relation has a dot in its name, and only there, the
joins of a query are on the columns on which its relations are loaded. Then each row of the entity
that is found is delivered once, and shows under the name of a joined relation what would be loaded
for it; the statement of the number, which joins nothing, counts these rows. -/
theorem joined_as_loaded (hg : g.ComparesKeys) (hq : q.Reachable) (hnames : q.NamesApart)
    (hlabels : (q.eagerJoins schema).Pairwise Row.FoldApart)
    (halike : ∀ x ∈ q.joinedRelations, ReadsAlike tables schema q.entity x.1 x.2)
    (hkeyed : tables.KeyedBy q.entity.table q.entity.primaryKey)
    (hself : ∀ o ∈ tables q.entity.table,
      (o q.entity.primaryKey).links (o q.entity.primaryKey) = true) :
    (q.joinedTables schema = .ok q.joinsOnKeys ↔
      ∀ x ∈ q.joinedRelations, '.' ∉ q.entity.table.toList ∧ '.' ∉ (snakeCase x.1).toList) ∧
    (q.joinedTables schema = .ok q.joinsOnKeys → ∀ paginate,
      ((∃ c, q.compile schema paginate = .ok c) ↔
        ∃ c, q.withoutIncludes.compile schema paginate = .ok c) ∧
      ∀ c, q.compile schema paginate = .ok c →
        ∃ rows, (fetch g.database c.joins c.select).run tables =
            (c.select.check.map fun _ => rows, tables) ∧
          List.Forall₂ (q.ShowsAsLoaded g tables schema c) (q.parents g tables c.select) rows ∧
          ∃ n : Nat, (g.database.readNumber c.count).run tables =
              (c.count.check.map fun _ => (n : Int), tables) ∧
            (paginate = false ∨ q.effectivePage.isCursor = false →
              n = (g.found tables c.select).length) ∧
            (paginate = false → n = rows.length)) := by
  refine ⟨joinedTables_eq_onKeys_iff fun x hx => (halike x hx).keyed, fun hjoins paginate =>
    ⟨exists_compile_withoutIncludes hjoins, fun c hc => ?_⟩⟩
  have hselects := selectsOnKeys_compile hq hnames hjoins hc
  rw [← joins_compile hc] at hlabels
  obtain ⟨rows, hfetch, hshows⟩ :=
    exists_run_fetch hg hnames halike hkeyed hselects hlabels hself
  obtain ⟨keys, joins, conditions, after, hcompiles⟩ := exists_compiles hc
  have hfound : (g.found tables c.select).length =
      (g.matching tables q.entity.table (conditions ++ after)).length := by
    rw [Engine.found_joined (hselects.leadsToOne hg halike) hselects.table hselects.labels
      hselects.plain, List.length_map, hcompiles.select]
    rfl
  have hwhole : paginate = false ∨ q.effectivePage.isCursor = false →
      (g.matching tables q.entity.table conditions).length = (g.found tables c.select).length := by
    intro hall
    rw [hfound, hcompiles.whole hall, List.append_nil]
  refine ⟨rows, hfetch, hshows, (g.matching tables q.entity.table conditions).length, ?_, hwhole,
    fun hall => ?_⟩
  · rw [hcompiles.count, run_readNumber_count]
  · rw [← hshows.length_eq, parents, hcompiles.uncut hall, hwhole (.inl hall), hfound,
      hcompiles.select]
    exact (List.length_mergeSort _).symm

end Query

-- ---------------------------------------------------------------------------
-- Posts with and without authors
-- ---------------------------------------------------------------------------

/-- A post with its author, one without, and one whose author is gone. -/
def Sql.Tables.drafts : Tables
  | "posts" =>
    [.ofInts [("id", 1), ("author_id", 7)], .ofInts [("id", 2)],
      .ofInts [("id", 3), ("author_id", 9)]]
  | "users" => [.ofInts [("id", 7)]]
  | _       => []

/-- Each post is delivered once, with the author that would be loaded for it. -/
theorem Query.joined_as_loaded_drafts :
    ∃ c rows, posts.compile .posts false = .ok c ∧
      (fetch Engine.integers.database c.joins c.select).run .drafts = (.ok rows, .drafts) ∧
      rows.length = 3 ∧
      List.Forall₂ (posts.ShowsAsLoaded Engine.integers .drafts .posts c)
        (posts.parents Engine.integers .drafts c.select) rows := by
  have hq : posts.Reachable := .includePath "author" (.fresh _ _)
  have hnames : posts.NamesApart := by
    rw [NamesApart]
    decide
  have hrelations : posts.joinedRelations = [("author", .author)] := rfl
  have halike : ∀ x ∈ posts.joinedRelations,
      ReadsAlike .drafts .posts posts.entity x.1 x.2 := by
    rw [hrelations]
    exact List.forall_mem_singleton.mpr
      ⟨by decide, by decide, by decide, by decide, by decide, by decide⟩
  have hkeyed : Tables.drafts.KeyedBy posts.entity.table posts.entity.primaryKey := by
    rw [Tables.KeyedBy]
    decide
  obtain ⟨hdots, hrows⟩ := joined_as_loaded Engine.comparesKeys_integers hq hnames
    (List.pairwise_singleton _ _) halike hkeyed (by decide)
  have hjoins := hdots.mpr (by rw [hrelations]; decide)
  obtain ⟨hcompiles, hcompiled⟩ := hrows hjoins false
  obtain ⟨c, hc⟩ := hcompiles.mpr ⟨_, rfl⟩
  obtain ⟨rows, hfetch, hshows, n, -, hfound, hlength⟩ := hcompiled c hc
  obtain ⟨joins, conditions, hmade, hconditions, rfl⟩ := compile_all_eq_ok.mp hc
  obtain rfl := Except.ok.inj (hjoins.symm.trans hmade)
  obtain rfl : [] = conditions := Except.ok.inj hconditions
  have hthree : n = 3 := hfound (.inl rfl)
  exact ⟨_, rows, hc, hfetch, (hlength rfl).symm.trans hthree, hshows⟩

end ListQuery
