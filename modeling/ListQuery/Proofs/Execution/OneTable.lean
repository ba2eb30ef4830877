import ListQuery.Proofs.Condition.After
import ListQuery.Proofs.Execution.CursorPage
import ListQuery.Proofs.Include

/-!
# Queries on one table

What a query without a joined relation reads on an engine: the rows of its table that meet the
conditions, in order and cut, with the delivered columns and the hidden ones. Without the hidden
columns a row has just the delivered ones.

* `rows_single` — the rows that a statement on one table reads;
* `fetch_eq_ok` — a fetch that succeeded;
* `Query.stripHidden_rowOf` — what is delivered of a row;
* `Query.run_readNumber_count`, `Query.runCount_eq` — what a count gives.
-/

namespace ListQuery

open Sql Database

-- ---------------------------------------------------------------------------
-- Hidden columns
-- ---------------------------------------------------------------------------

theorem Row.stripHidden_eq_filter (hidden : List String) (row : Row) :
    Row.stripHidden hidden row = row.filter fun e => !hidden.contains e.1 := by
  induction hidden generalizing row with
  | nil => exact (List.filter_eq_self.mpr fun _ _ => rfl).symm
  | cons name hidden ih =>
    show Row.stripHidden hidden (row.drop name) = _
    rw [ih, Entries.drop, List.filter_filter]
    refine List.filter_congr fun e _ => ?_
    rw [List.contains_cons, Bool.not_or, Bool.and_comm]
    congr 1
    rw [Bool.eq_iff_iff]
    simp

namespace Query

variable (q : Query)

/-- A column as it is read. -/
def output (name : String) : Output := { column := q.entity.columnNamed name }

/-- What is delivered of a row of the table. -/
def delivered (r : Record) : Row := Entries.ofList (q.projectedFields.map fun name => (name, r name))

theorem mem_hiddenFor {keys : List SortKey} {name : String} :
    name ∈ q.hiddenFor keys ↔
      (name ∈ (if q.includes.isEmpty then [] else [q.entity.primaryKey]) ∨
        name ∈ keys.map (·.field)) ∧ name ∉ q.projectedFields := by
  rw [hiddenFor, mem_distinct, List.mem_filter, List.mem_append]
  refine and_congr_right fun _ => ?_
  rw [Bool.not_eq_true', ← Bool.not_eq_true, List.contains_iff_mem]

/-- Each key is read, delivered or not. -/
theorem mem_read_of_mem_keys {keys : List SortKey} {key : SortKey} (h : key ∈ keys) :
    key.field ∈ q.projectedFields ++ q.hiddenFor keys := by
  by_cases hp : key.field ∈ q.projectedFields
  · exact List.mem_append_left _ hp
  · exact List.mem_append_right _
      (q.mem_hiddenFor.mpr ⟨.inr (List.mem_map.mpr ⟨key, h, rfl⟩), hp⟩)

theorem project_output (names : List String) (r : Record) :
    Engine.project (names.map q.output) (Scene.single q.entity.table r) =
      Entries.ofList (names.map fun name => (name, r name)) := by
  rw [Engine.project, List.map_map]
  refine congrArg Entries.ofList (List.map_congr_left fun name _ => ?_)
  show (name, (Scene.single q.entity.table r).at (q.entity.columnNamed name)) = (name, r name)
  rw [Keyset.at_columnNamed]

/-- A row as it is read: the delivered columns and the hidden ones. -/
def rowOf (keys : List SortKey) (r : Record) : Row :=
  Engine.project ((q.projectedFields ++ q.hiddenFor keys).map q.output)
    (Scene.single q.entity.table r)

/-- The cursor of rows that were read is the token of the key values of the last one. -/
theorem nextCursor_map_rowOf (keys : List SortKey) (rs : List Record) :
    nextCursor (keys.map (·.field)) (rs.map (q.rowOf keys)) =
      match rs.getLast? with
      | none   => .ok none
      | some r => (Cursor.encode (.record (Keyset.valuesOf keys r))).map some := by
  rw [nextCursor, List.getLast?_map]
  cases rs.getLast? with
  | none => rfl
  | some r =>
    have hvalue : ∀ key ∈ keys, (q.rowOf keys r).value key.field = .ok (r key.field) := by
      intro key hkey
      rw [Row.value, rowOf, project_output, Entries.get?_ofList_map,
        if_pos (q.mem_read_of_mem_keys hkey)]
    have hvalues : (keys.map (·.field)).mapM
        (fun name => ((q.rowOf keys r).value name).map fun v => (name, v)) =
          .ok (keys.map fun key => (key.field, r key.field)) := by
      rw [mapM_eq_ok, List.forall₂_map_left_iff, List.forall₂_map_right_iff, List.forall₂_same]
      intro key hkey
      rw [hvalue key hkey]
      rfl
    show ((keys.map (·.field)).mapM _ >>= _) = _
    rw [hvalues]
    rfl

/-- Without its hidden columns a row has the delivered ones. -/
theorem stripHidden_rowOf (keys : List SortKey) (r : Record) :
    Row.stripHidden (q.hiddenFor keys) (q.rowOf keys r) = q.delivered r := by
  rw [rowOf, Row.stripHidden_eq_filter, project_output]
  rw [Entries.filter_ofList fun name => !(q.hiddenFor keys).contains name]
  rw [delivered, List.map_append, List.filter_append]
  have hplain : (q.projectedFields.map fun name => (name, r name)).filter
      (fun e => !(q.hiddenFor keys).contains e.1) =
        q.projectedFields.map fun name => (name, r name) := by
    refine List.filter_eq_self.mpr fun e he => ?_
    obtain ⟨name, hname, rfl⟩ := List.mem_map.mp he
    rw [Bool.not_eq_true', ← Bool.not_eq_true, List.contains_iff_mem]
    exact fun h => (q.mem_hiddenFor.mp h).2 hname
  have hhidden : ((q.hiddenFor keys).map fun name => (name, r name)).filter
      (fun e => !(q.hiddenFor keys).contains e.1) = [] := by
    refine List.filter_eq_nil_iff.mpr fun e he => ?_
    obtain ⟨name, hname, rfl⟩ := List.mem_map.mp he
    rw [Bool.not_eq_true', ← Bool.not_eq_true, List.contains_iff_mem]
    exact fun h => h hname
  rw [hplain, hhidden, List.append_nil]

-- ---------------------------------------------------------------------------
-- Rows that are read
-- ---------------------------------------------------------------------------

variable {q} {schema : Schema}

theorem eagerJoins_eq_nil (h : ∀ p ∈ q.includes, q.entity.joinsEagerly p = false) :
    q.eagerJoins schema = [] := by
  refine List.filterMap_eq_nil_iff.mpr fun p hp => ?_
  rw [h p hp]
  rfl

theorem joinedTables_eq_nil (h : ∀ p ∈ q.includes, q.entity.joinsEagerly p = false) :
    q.joinedTables schema = .ok [] := by
  rw [joinedTables, eagerJoins_eq_nil h]
  rfl

/-- What is read of a row when no relation is joined. -/
theorem outputs_eq_map (h : ∀ p ∈ q.includes, q.entity.joinsEagerly p = false)
    (keys : List SortKey) :
    q.outputs schema keys = (q.projectedFields ++ q.hiddenFor keys).map q.output := by
  rw [outputs, eagerJoins_eq_nil h]
  exact List.append_nil _

end Query

namespace Sql.Engine

variable {g : Engine} {tables tables' : Tables} {st : Statement} {label : String}

/-- The rows of one table that meet some conditions. -/
def matching (g : Engine) (tables : Tables) (table : String) (conditions : List Predicate) :
    List Record :=
  (tables table).filter fun r => g.acceptsAll (Scene.single table r) conditions

theorem found_eq_map_matching (hj : st.joins = []) (ht : st.table = ⟨label, none⟩) :
    g.found tables st = (g.matching tables label st.conditions).map (Scene.single label) := by
  rw [found_single hj, ht, List.filter_map]
  rfl

/-- A statement on one table reads the rows that meet its conditions, in its order and cut. -/
theorem rows_single {os : List Output} (hj : st.joins = []) (ht : st.table = ⟨label, none⟩)
    (hos : st.projection = .columns os) :
    g.rows tables st =
      (cut st.limit st.offset ((g.matching tables label st.conditions).mergeSort fun a b =>
        g.sceneLe st.order (Scene.single label a) (Scene.single label b))).map
          fun r => project os (Scene.single label r) := by
  have hsort := List.map_mergeSort (f := Scene.single label)
    (l := g.matching tables label st.conditions) (s := g.sceneLe st.order)
    (r := fun a b => g.sceneLe st.order (Scene.single label a) (Scene.single label b))
    fun _ _ _ _ => rfl
  rw [rows, hos]
  dsimp only
  rw [found_eq_map_matching hj ht, ← hsort, cut_map, List.map_map]
  rfl

/-- A statement on one table that can be written is answered. -/
theorem run_readRows_single (hj : st.joins = []) :
    (g.database.readRows st).run tables =
      match st.check with
      | .ok ()   => (.ok (g.rows tables st), tables)
      | .error e => (.error e, tables) := by
  rw [run_readRows]
  cases st.check with
  | error e => rfl
  | ok u =>
    show ((if st.labels.Nodup then _ else _), tables) = _
    rw [if_pos (labels_single hj)]

theorem run_readNumber_single (hj : st.joins = []) :
    (g.database.readNumber st).run tables =
      match st.check with
      | .ok ()   => (.ok (g.found tables st).length, tables)
      | .error e => (.error e, tables) := by
  rw [run_readNumber]
  cases st.check with
  | error e => rfl
  | ok u =>
    show ((if st.labels.Nodup then _ else _), tables) = _
    rw [if_pos (labels_single hj)]

end Sql.Engine

namespace Query

variable {σ : Type} {db : Database σ} {g : Engine} {tables tables' : Tables} {st : Statement}

/-- Without joined relations the rows are delivered as they were read. -/
theorem run_fetch_nil (s : σ) : (fetch db [] st).run s = (db.readRows st).run s := by
  rw [fetch, run_bind]
  generalize (db.readRows st).run s = r
  obtain ⟨r, s'⟩ := r
  cases r with
  | error e => rfl
  | ok rows =>
    have hfold : rows.mapM (Row.fold []) = .ok rows := by
      have h := mapM_ok (fun row : Row => row) rows
      rwa [List.map_id'] at h
    show (pureStep (rows.mapM (Row.fold []))).run s' = _
    rw [run_pureStep, hfold]

/-- A fetch from one table gave what the engine reads, and the statement could be written. -/
theorem fetch_eq_ok (hj : st.joins = []) {read : List Row} :
    (fetch g.database [] st).run tables = (.ok read, tables') ↔
      st.check = .ok () ∧ read = g.rows tables st ∧ tables' = tables := by
  rw [run_fetch_nil, Engine.run_readRows_single hj]
  cases st.check with
  | error e =>
    constructor
    · intro h
      cases (Prod.mk.inj h).1
    · rintro ⟨h, -, -⟩
      cases h
  | ok u =>
    constructor
    · intro h
      obtain ⟨hread, htables⟩ := Prod.mk.inj h
      exact ⟨rfl, (Except.ok.inj hread).symm, htables.symm⟩
    · rintro ⟨-, rfl, rfl⟩
      rfl

/-- The number of the rows that meet the conditions. -/
theorem run_readNumber_count (q : Query) (conditions : List Predicate) :
    (g.database.readNumber (q.countStatement conditions)).run tables =
      ((q.countStatement conditions).check.map fun _ =>
        ((g.matching tables q.entity.table conditions).length : Int), tables) := by
  have hfound : (g.found tables (q.countStatement conditions)).length =
      (g.matching tables q.entity.table conditions).length := by
    rw [Engine.found_eq_map_matching rfl rfl, List.length_map]
    rfl
  rw [Engine.run_readNumber_single rfl, ← hfound]
  cases (q.countStatement conditions).check <;> rfl

/-- What counting the rows gives, or why it fails. -/
theorem runCount_eq {q : Query} {schema : Schema} {c : Compiled}
    (hc : q.compile schema false = .ok c) :
    q.runCount g.database schema tables =
      ((c.count.check.map fun _ =>
        ((g.matching tables q.entity.table c.count.conditions).length : Int)).mapError
          (onTable q.entity.table), tables) := by
  obtain ⟨joined, conditions, -, -, rfl⟩ := compile_all_eq_ok.mp hc
  have hwork : (q.countWork g.database schema).run tables =
      (g.database.readNumber (q.countStatement conditions)).run tables := by
    rw [countWork, run_bind, run_pureStep, hc]
    rfl
  rw [runCount, withConnection]
  show (((q.countWork g.database schema).run tables).1.mapError _,
    ((q.countWork g.database schema).run tables).2) = _
  rw [hwork, run_readNumber_count]
  rfl

end Query

end ListQuery
