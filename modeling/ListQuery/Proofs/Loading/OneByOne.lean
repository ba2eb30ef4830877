import Mathlib.Data.Multiset.Bind
import ListQuery.Proofs.Execution.Attached
import ListQuery.Proofs.Include
import ListQuery.Proofs.Loading.Related
import ListQuery.Proofs.Sql.Writable

/-!
# Reading for each key alone

The related rows of many rows are read in one statement. Whatever the order in which a database gives
them, grouped by the keys they belong to they are the related rows of each key, as if it had been
read for alone: no group is empty or under a key that was not asked for, and none misses a row or has
one too many.

* `Engine.Answers` — databases that answer as an engine does, in whatever order;
* `check_sourceStatement` — the statement of a relation can be written;
* `exists_relation` — reading succeeds, and groups the related rows;
* `relation_oneByOne` — all keys at once and each of them alone.
-/

namespace ListQuery

open Sql Database Text

-- ---------------------------------------------------------------------------
-- Databases
-- ---------------------------------------------------------------------------

/-- A database that, while it holds some tables, answers a statement without an order and a cut with
the rows that an engine finds in them, in whatever order. -/
structure Sql.Engine.Answers {σ : Type} (g : Engine) (tables : Tables) (db : Database σ)
    (holding : σ → Prop) : Prop where
  rows : ∀ {st : Statement} {s : σ}, holding s → st.labels.Nodup → st.order = [] →
    st.limit = none →
      ∃ rows s', db.rows st s = (.ok rows, s') ∧ holding s' ∧ rows.Perm (g.rows tables st)

/-- An engine answers as itself. -/
theorem Sql.Engine.answers_database (g : Engine) (tables : Tables) :
    g.Answers tables g.database (· = tables) where
  rows := by
    intro st s hs hlabels _ _
    refine ⟨g.rows tables st, s, ?_, hs, .refl _⟩
    rw [hs]
    show ((if st.labels.Nodup then _ else _), tables) = _
    rw [if_pos hlabels]

/-- No two rows of a table have one key. -/
def Sql.Tables.KeyedBy (tables : Tables) (table key : String) : Prop :=
  (tables table).Pairwise fun o o' => (o key).same (o' key) = false

/-- Where no two elements of a list are as asked there is at most one. -/
theorem filter_eq_toList_find? {α : Type} {l : List α} {p : α → Bool}
    (h : l.Pairwise fun a b => p a = true → p b = false) : l.filter p = (l.find? p).toList := by
  induction l with
  | nil => rfl
  | cons a l ih =>
    obtain ⟨hhead, htail⟩ := List.pairwise_cons.mp h
    rw [List.filter_cons, List.find?_cons]
    cases hp : p a with
    | false => exact ih htail
    | true =>
      have hnone : l.filter p = [] := List.filter_eq_nil_iff.mpr fun b hb hpb =>
        Bool.false_ne_true ((hhead b hb hp).symm.trans hpb)
      rw [if_pos rfl, hnone]
      rfl

/-- At most one row of a table has a key. -/
theorem Sql.Tables.KeyedBy.filter_eq_toList_find? {tables : Tables} {table key : String}
    (h : tables.KeyedBy table key) (k : Value) :
    (tables table).filter (fun o => (o key).links k) =
      ((tables table).find? fun o => (o key).links k).toList := by
  refine ListQuery.filter_eq_toList_find? (h.imp fun {o o'} hapart hlinks => ?_)
  rw [Value.links_comm, ← Value.links_congr (Value.same_of_links hlinks), Value.links, hapart,
    Bool.and_false]

namespace Loading

variable {tables : Tables} {schema : Schema} {e : Entity} {name : String} {r : Relation}

-- ---------------------------------------------------------------------------
-- Related rows
-- ---------------------------------------------------------------------------

/-- The columns that are read of a relation: with the key of the related entity first. -/
theorem readColumns_of_nodup (hcolumns : (Entity.relatedColumns schema r).Nodup) :
    readColumns schema r =
      match r.target.bind schema.get? with
      | some t => t.primaryKey :: (Entity.relatedColumns schema r).filter (· ≠ t.primaryKey)
      | none   => Entity.relatedColumns schema r := by
  rw [readColumns]
  cases r.target.bind schema.get? with
  | none => rfl
  | some t => exact distinct_cons hcolumns

theorem nodup_readColumns (hcolumns : (Entity.relatedColumns schema r).Nodup) :
    (readColumns schema r).Nodup := by
  rw [readColumns]
  split
  · exact nodup_distinct _
  · exact hcolumns

theorem keys_relatedRow (hcolumns : (Entity.relatedColumns schema r).Nodup)
    (hkey : parentKey ∉ readColumns schema r) (x : Record) :
    (relatedRow schema r x).keys = readColumns schema r := by
  have hall : (readColumns schema r).filter (· ≠ parentKey) = readColumns schema r := by
    refine List.filter_eq_self.mpr fun column hcolumn => decide_eq_true ?_
    rintro rfl
    exact hkey hcolumn
  have hkeys : Entries.keys ((readColumns schema r).map fun c => (c, x c)) = readColumns schema r :=
    Entries.keys_map_name _ _
  have hnodup : (Entries.keys ((readColumns schema r).map fun c => (c, x c))).Nodup := by
    rw [hkeys]
    exact nodup_readColumns hcolumns
  rw [relatedRow, hall, Entries.ofList_of_nodup hnodup, hkeys]

/-- The rows to which the row with a key belongs: its foreign key leads there. -/
theorem related_belongsTo (hr : e.relation? name = some r) (hkind : r.kind = .belongsTo)
    (hkeyed : tables.KeyedBy e.table e.primaryKey) (k : Value) :
    related tables schema e name k =
      match (tables e.table).find? fun o => (o e.primaryKey).links k with
      | some o =>
        ((tables r.table).filter fun x => (o (e.foreignKey name)).links (x r.ownerKey)).map
          (relatedRow schema r)
      | none   => [] := by
  rw [related, hr]
  dsimp only
  rw [relatedRecords, hkind]
  dsimp only
  rw [hkeyed.filter_eq_toList_find?]
  cases (tables e.table).find? fun o => (o e.primaryKey).links k with
  | none => rfl
  | some o => exact congrArg (List.map _) (List.flatMap_singleton _ _)

/-- The pairs of a row with a row that it goes with, whichever of the two comes first. -/
theorem flatMap_filter_perm {α β γ : Type} (l : List α) (m : List β) (p : β → Bool)
    (goes : α → β → Bool) (f : α → γ) :
    (l.flatMap fun a => (m.filter fun b => goes a b && p b).map fun _ => f a).Perm
      ((m.filter p).flatMap fun b => (l.filter fun a => goes a b).map f) := by
  have hmap : ∀ {δ : Type} (xs : List δ) (keep : δ → Bool) (h : δ → γ),
      (xs.filter keep).map h = xs.flatMap fun x => if keep x then [h x] else [] := by
    intro δ xs keep h
    induction xs with
    | nil => rfl
    | cons x xs ih =>
      rw [List.flatMap_cons, ← ih, List.filter_cons]
      cases keep x <;> rfl
  have hleft : (l.flatMap fun a => (m.filter fun b => goes a b && p b).map fun _ => f a) =
      l.flatMap fun a => m.flatMap fun b => if goes a b && p b then [f a] else [] :=
    List.flatMap_congr fun a _ => hmap m _ _
  have hright : ((m.filter p).flatMap fun b => (l.filter fun a => goes a b).map f) =
      m.flatMap fun b => l.flatMap fun a => if goes a b && p b then [f a] else [] := by
    rw [flatMap_filter_left]
    refine List.flatMap_congr fun b _ => ?_
    rw [hmap]
    cases p b with
    | true =>
      rw [List.filter_eq_self.mpr fun _ _ => rfl]
      exact List.flatMap_congr fun a _ => by rw [Bool.and_true]
    | false =>
      rw [List.filter_eq_nil_iff.mpr fun _ _ => Bool.false_ne_true]
      symm
      exact List.flatMap_eq_nil_iff.mpr fun a _ => by rw [Bool.and_false]; rfl
  rw [hleft, hright, ← Multiset.coe_eq_coe]
  simp only [← Multiset.coe_bind]
  exact Multiset.bind_bind _ _

/-- The rows that a table of pairs puts next to the row with a key: one for each pair. -/
theorem related_belongsToMany (hr : e.relation? name = some r) (hkind : r.kind = .belongsToMany)
    {pivot : String} (hpivot : r.pivot = some pivot) (k : Value) :
    (related tables schema e name k).Perm
      (((tables pivot).filter fun y => (y (pivotParent e r)).links k).flatMap fun y =>
        ((tables r.table).filter fun x => (y (pivotRelated e name r)).links (x r.ownerKey)).map
          (relatedRow schema r)) := by
  rw [related, hr]
  dsimp only
  rw [relatedRecords, hkind]
  dsimp only
  rw [hpivot, List.map_flatMap]
  simp only [List.map_map]
  exact flatMap_filter_perm (tables r.table) (tables pivot) _ _ _

/-- The rows that hold the key of the row. -/
theorem related_held (hr : e.relation? name = some r) (hkind : r.kind = .hasOne ∨ r.kind = .hasMany)
    (k : Value) :
    related tables schema e name k =
      ((tables r.table).filter fun x => (x (e.foreignKey name)).links k).map
        (relatedRow schema r) := by
  rw [related, hr]
  dsimp only
  rw [relatedRecords]
  rcases hkind with hkind | hkind <;> rw [hkind]

-- ---------------------------------------------------------------------------
-- The statement
-- ---------------------------------------------------------------------------

/-- Columns that are read once each repeat no nameless one. -/
theorem hasNamelessRepetition_sourceOutputs (hcolumns : (Entity.relatedColumns schema r).Nodup)
    (parent : Column) : hasNamelessRepetition (sourceOutputs schema r parent) = false := by
  have hplain : ((sourceOutputs schema r parent).filter (·.label.isNone)).map (·.column) =
      (readColumns schema r).map (plainColumn r.table) := by
    rw [sourceOutputs, List.filter_append, List.filter_eq_self.mpr, List.map_append, List.map_map]
    · exact List.append_nil _
    · intro o ho
      obtain ⟨column, -, rfl⟩ := List.mem_map.mp ho
      rfl
  have hnodup : ((readColumns schema r).map (plainColumn r.table)).Nodup :=
    (nodup_readColumns hcolumns).map fun _ _ heq => congrArg Column.name heq
  rw [hasNamelessRepetition, hplain, List.any_eq_false]
  intro c _ hc
  have htwo := of_decide_eq_true (Bool.and_eq_true_iff.mp hc).2
  have hone := List.nodup_iff_count_le_one.mp hnodup c
  omega

/-- A list of keys can be written. -/
theorem exists_write_ofList {ids : List Value} (hids : ∀ i ∈ ids, i.isKey = true) (d : Dialect)
    (t : ColumnType) (label : String) (negated : Bool) :
    ∃ w, (BindList.ofList t ids).write d label negated = .ok w := by
  have hrows : (BindList.ofList t ids).areRows = false := by
    unfold BindList.areRows
    split
    case h_1 vs rest _ hvalues =>
      have hids' : ids = .list vs :: rest := hvalues
      have hlist := hids (.list vs) (hids' ▸ List.mem_cons_self)
      cases hlist
    case h_2 => rfl
  rw [BindList.write, hrows]
  split
  · exact ⟨_, rfl⟩
  split
  · exact ⟨_, rfl⟩
  · exact ⟨_, rfl⟩

/-- A statement that asks for keys can be written, if its columns can. -/
theorem check_isAnyOf {st : Statement} {key : Column} {ids : List Value}
    (hst : st.conditions = [isAnyOf key ids]) (hnames : st.checkNames = .ok ())
    (hids : ∀ i ∈ ids, i.isKey = true) : st.check = .ok () := by
  have hmarks : conditionMarks .sqlite st.conditions =
      [.boundList (bindStem key.name) false (.ofList key.type ids)] := by
    rw [hst, conditionMarks_singleton, isAnyOf, Predicate.pieces, memberPieces, marks_wrapped]
    rfl
  have hwriting : ∀ stem, writing .sqlite {} [.boundList stem false (.ofList key.type ids)] =
      .ok () := by
    intro stem
    obtain ⟨w, hw⟩ := exists_write_ofList hids .sqlite key.type
      (placeholderName (({} : DerivedNames).next .sqlite stem).1) false
    rw [writing_mark rfl, Piece.write, hw]
    rfl
  rw [Statement.check_eq, hnames, hmarks]
  exact bind_eq_ok.mpr ⟨(), rfl, hwriting _⟩

/-- The statement of a relation can be written for keys. -/
theorem check_sourceStatement (hcolumns : (Entity.relatedColumns schema r).Nodup) {ids : List Value}
    (hids : ∀ i ∈ ids, i.isKey = true) (source : Source) :
    (sourceStatement schema r source ids).check = .ok () := by
  refine check_isAnyOf rfl ?_ hids
  show (if hasNamelessRepetition (sourceOutputs schema r source.parent) = true then _ else _) = _
  rw [hasNamelessRepetition_sourceOutputs hcolumns]
  rfl

-- ---------------------------------------------------------------------------
-- What is read
-- ---------------------------------------------------------------------------

/-- Groups of the related rows of some keys: each of them is under one of the keys, no two are under
the same one, and none is empty. -/
structure GroupsRelated (tables : Tables) (schema : Schema) (e : Entity) (name : String)
    (ids : List Value) (grouped : Grouped) : Prop where
  keys    : ∀ entry ∈ grouped, ∃ i ∈ ids, entry.1.same i = true
  apart   : grouped.IsApart
  rowsOf  : ∀ i ∈ ids, (grouped.rowsOf i).Perm (related tables schema e name i)
  allRows : ∀ row, row ∈ grouped.allRows ↔ ∃ i ∈ ids, row ∈ related tables schema e name i

/-- There is no group under a key without related rows. -/
theorem GroupsRelated.group?_eq_none_iff {ids : List Value} {grouped : Grouped}
    (h : GroupsRelated tables schema e name ids grouped) {i : Value} (hi : i ∈ ids) :
    grouped.group? i = none ↔ related tables schema e name i = [] :=
  Grouped.Gathers.group?_eq_none_iff ⟨h.keys, h.apart, h.rowsOf, h.allRows⟩ hi

section
variable {σ : Type} {db : Database σ} {holding : σ → Prop} {g : Engine} {ids : List Value} {s : σ}

/-- What the statement of a relation finds, grouped in whatever order it comes. -/
theorem groupsRelated_ofRows (hg : g.ComparesKeys) (hr : e.relation? name = some r)
    {source : Source} (hsource : source? e name r = some source)
    (hlabels : (sourceStatement schema r source ids).labels.Nodup) {rows : List Row}
    (hperm : rows.Perm (g.rows tables (sourceStatement schema r source ids))) {grouped : Grouped}
    (h : Grouped.ofRows parentKey none rows = .ok grouped) :
    GroupsRelated tables schema e name ids grouped := by
  have hgathers : grouped.Gathers ids (related tables schema e name) := by
    rw [← funext (map_drop_linked hg hr hsource hlabels)]
    exact gathers_ofRows hg rfl rfl rfl rfl (get?_parentKey source.parent) hperm h
  exact ⟨hgathers.keys, hgathers.apart, hgathers.rowsOf, hgathers.allRows⟩

/-- Reading a relation for some keys succeeds, and groups their related rows. -/
theorem exists_relation (hg : g.ComparesKeys) (hdb : g.Answers tables db holding)
    (hr : e.relation? name = some r) (hread : (reader? schema e name).isSome = true)
    (hcolumns : (Entity.relatedColumns schema r).Nodup) (hapart : TablesApart e r)
    (hids : ∀ i ∈ ids, i.isKey = true) (hs : holding s) :
    ∃ grouped s', (relation db schema e name (.list ids)).run s = (.ok grouped, s') ∧
      holding s' ∧ GroupsRelated tables schema e name ids grouped := by
  rw [relation]
  split
  case isTrue hvoid =>
    obtain rfl : ids = [] := List.isEmpty_iff.mp hvoid
    refine ⟨[], s, rfl, hs, List.forall_mem_nil _, Grouped.isApart_nil, List.forall_mem_nil _, ?_⟩
    intro row
    refine iff_of_false List.not_mem_nil ?_
    rintro ⟨_, hi, -⟩
    exact List.not_mem_nil hi
  case isFalse hvoid =>
    rw [reader?_eq, hr] at hread
    obtain ⟨read, hmade⟩ := Option.isSome_iff_exists.mp hread
    obtain ⟨source, hsource, rfl⟩ := Option.map_eq_some_iff.mp hmade
    have hstatement : statement? schema e name (.list ids) =
        .ok (some (sourceStatement schema r source ids)) := by
      have hreader : reader? schema e name = some (sourceStatement schema r source) := by
        rw [reader?_eq, hr]
        exact hmade
      rw [statement?, hreader]
      rfl
    have hlabels := (nodup_labels_sourceStatement schema hsource ids).mpr hapart
    obtain ⟨rows, s', hrows, hs', hperm⟩ := hdb.rows hs hlabels rfl rfl
    obtain ⟨grouped, hgrouped⟩ :=
      exists_ofRows_found hg rfl rfl rfl rfl (get?_parentKey source.parent) hperm none
    refine ⟨grouped, s', ?_, hs', groupsRelated_ofRows hg hr hsource hlabels hperm hgrouped⟩
    rw [run_pureStep_bind_eq_ok]
    refine ⟨_, hstatement, run_bind_eq_ok.mpr ⟨rows, s', ?_, ?_⟩⟩
    · rw [run_readRows, check_sourceStatement hcolumns hids]
      exact hrows
    · rw [run_pureStep, hgrouped]

/-- What was read of a relation for many keys is what is read of it for each of them alone: the rows
that hold the key, those whose key the row holds, or one for each pair of the table between. -/
structure ReadsOneByOne (db : Database σ) (holding : σ → Prop) (tables : Tables) (schema : Schema)
    (e : Entity) (name : String) (r : Relation) (ids : List Value) (grouped : Grouped) : Prop
    extends GroupsRelated tables schema e name ids grouped where
  alone   : ∀ i ∈ ids, ∀ s, holding s →
    ∃ single s', (relation db schema e name (.list [i])).run s = (.ok single, s') ∧ holding s' ∧
      (grouped.rowsOf i).Perm (single.rowsOf i)
  absent  : ∀ i ∈ ids, grouped.group? i = none ↔ related tables schema e name i = []
  columns : ∀ row ∈ grouped.allRows, row.keys =
    match r.target.bind schema.get? with
    | some t => t.primaryKey :: (Entity.relatedColumns schema r).filter (· ≠ t.primaryKey)
    | none   => Entity.relatedColumns schema r
  held    : r.kind = .hasOne ∨ r.kind = .hasMany → ∀ i, related tables schema e name i =
    ((tables r.table).filter fun x => (x (e.foreignKey name)).links i).map (relatedRow schema r)
  owner   : r.kind = .belongsTo → ∀ i, related tables schema e name i =
    match (tables e.table).find? fun o => (o e.primaryKey).links i with
    | some o =>
      ((tables r.table).filter fun x => (o (e.foreignKey name)).links (x r.ownerKey)).map
        (relatedRow schema r)
    | none   => []
  pairs   : r.kind = .belongsToMany → ∀ pivot, r.pivot = some pivot → ∀ i,
    (related tables schema e name i).Perm
      (((tables pivot).filter fun y => (y (pivotParent e r)).links i).flatMap fun y =>
        ((tables r.table).filter fun x => (y (pivotRelated e name r)).links (x r.ownerKey)).map
          (relatedRow schema r))

/-- Reading a relation for many keys at once succeeds, and gives what reading it for each of them
alone gives. -/
theorem relation_oneByOne (hg : g.ComparesKeys) (hdb : g.Answers tables db holding)
    (hr : e.relation? name = some r) (hread : (reader? schema e name).isSome = true)
    (hcolumns : (Entity.relatedColumns schema r).Nodup) (hkey : parentKey ∉ readColumns schema r)
    (hapart : TablesApart e r) (hkeyed : tables.KeyedBy e.table e.primaryKey)
    (hids : ∀ i ∈ ids, i.isKey = true) (hs : holding s) :
    ∃ grouped s', (relation db schema e name (.list ids)).run s = (.ok grouped, s') ∧
      holding s' ∧ ReadsOneByOne db holding tables schema e name r ids grouped := by
  obtain ⟨grouped, s', hrun, hs', hgroups⟩ :=
    exists_relation hg hdb hr hread hcolumns hapart hids hs
  refine ⟨grouped, s', hrun, hs', hgroups, ?alone, fun i hi => hgroups.group?_eq_none_iff hi,
    ?columns, fun hkind => related_held hr hkind,
    fun hkind => related_belongsTo hr hkind hkeyed,
    fun hkind pivot hpivot => related_belongsToMany hr hkind hpivot⟩
  case alone =>
    intro i hi s₁ hs₁
    obtain ⟨single, s₂, hrun₁, hs₂, hone⟩ := exists_relation hg hdb hr hread hcolumns hapart
      (List.forall_mem_singleton.mpr (hids i hi)) hs₁
    exact ⟨single, s₂, hrun₁, hs₂,
      (hgroups.rowsOf i hi).trans (hone.rowsOf i List.mem_cons_self).symm⟩
  case columns =>
    intro row hrow
    obtain ⟨i, -, hrelated⟩ := (hgroups.allRows row).mp hrow
    rw [related, hr] at hrelated
    obtain ⟨x, -, rfl⟩ := List.mem_map.mp hrelated
    rw [keys_relatedRow hcolumns hkey, readColumns_of_nodup hcolumns]

end

end Loading

-- ---------------------------------------------------------------------------
-- Students and their courses
-- ---------------------------------------------------------------------------

/-- Students take courses, as a table of enrollments tells. -/
def Relation.courses : Relation where
  table           := "courses"
  kind            := .belongsToMany
  foreignKey      := none
  ownerKey        := "id"
  columns         := some ["id", "hours"]
  eager           := false
  target          := none
  pivot           := some "enrollments"
  pivotForeignKey := none
  pivotRelatedKey := none

def Entity.students : Entity := .keyed "students" [("courses", .courses)]

/-- One student is enrolled in a course twice, and one in none. -/
def Sql.Tables.enrolled : Tables
  | "students"    => [.ofInts [("id", 1)], .ofInts [("id", 2)], .ofInts [("id", 3)]]
  | "courses"     => [.ofInts [("id", 5), ("hours", 2)], .ofInts [("id", 6), ("hours", 3)]]
  | "enrollments" =>
    [.ofInts [("student_id", 1), ("course_id", 5)], .ofInts [("student_id", 1), ("course_id", 6)],
      .ofInts [("student_id", 1), ("course_id", 5)], .ofInts [("student_id", 2), ("course_id", 6)]]
  | _             => []

/-- A course comes once for each enrollment, and there is no group without one. -/
theorem Loading.relation_oneByOne_enrolled :
    ∃ grouped, ((relation Engine.integers.database [] .students "courses"
        (.list [.int 1, .int 2, .int 3])).run Tables.enrolled).1 = .ok grouped ∧
      (grouped.rowsOf (.int 1)).length = 3 ∧ grouped.group? (.int 3) = none ∧
      ∀ row ∈ grouped.allRows, row.keys = ["id", "hours"] := by
  have hkeyed : Tables.enrolled.KeyedBy Entity.students.table Entity.students.primaryKey := by
    rw [Tables.KeyedBy]
    decide
  have hcourses : Entity.students.relation? "courses" = some .courses := rfl
  have hread : (reader? [] Entity.students "courses").isSome = true := rfl
  have hids : ∀ i ∈ [Value.int 1, .int 2, .int 3], i.isKey = true := by decide
  obtain ⟨grouped, s', hrun, -, hreads⟩ := relation_oneByOne Engine.comparesKeys_integers
    (Engine.integers.answers_database .enrolled) hcourses hread (by decide) (by decide)
    (by decide) hkeyed hids rfl
  refine ⟨grouped, congrArg Prod.fst hrun, ?_, (hreads.absent _ ?_).mpr rfl, hreads.columns⟩
  · exact (hreads.rowsOf (.int 1) List.mem_cons_self).length_eq
  · exact List.mem_cons_of_mem _ (List.mem_cons_of_mem _ List.mem_cons_self)

end ListQuery
