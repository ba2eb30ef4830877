import ListQuery.Proofs.EagerJoin
import ListQuery.Proofs.Execution.Attached
import ListQuery.Proofs.Loading.Related
import ListQuery.Proofs.Query.MoreIncludes
import ListQuery.Proofs.Query.WellFormed
import ListQuery.Proofs.Sql.Reference

/-!
# Names of tables

A compiled query reads the entity's table under its own name and each joined relation under the
relation's name in the spelling of columns; the statement of a relation reads the tables of the
relation under their own names. A name can therefore come twice: two relations may have names that
are spelled alike, or one like the entity's table, and a relation may lead to the table it comes
from, or through the table it leads to. Just then some column of the statement is ambiguous.

* `labels_select`, `isUnambiguous_select` — the statement of the rows;
* `isUnambiguous_count` — the statement of their number;
* `isUnambiguous_read` — the statement of a relation;
* `namesApart_of_declared` — what is enough of the declarations;
* `isUnambiguous_iff_namesApart` — all statements of the program.
-/

namespace ListQuery

open Sql Text

-- ---------------------------------------------------------------------------
-- The statements of a query
-- ---------------------------------------------------------------------------

namespace Query

variable {q : Query} {schema : Schema} {c : Compiled} {paginate : Bool}

/-- The joined relations are named as they are spelled in columns. -/
theorem map_aliasName_eagerJoins (q : Query) (schema : Schema) :
    (q.eagerJoins schema).map (·.2.aliasName) =
      (q.includes.filter (q.entity.joinsEagerly ·)).map snakeCase := by
  rw [eagerJoins]
  induction q.includes with
  | nil => rfl
  | cons path paths ih =>
    rw [List.filterMap_cons, List.filter_cons]
    by_cases heager : q.entity.joinsEagerly path
    · obtain ⟨j, hj⟩ := EagerJoin.exists_ofRelation? schema q.entity.table heager
      obtain ⟨r, -, -, rfl⟩ := EagerJoin.ofRelation?_eq_some.mp hj
      rw [if_pos heager, if_pos heager, hj, List.map_cons, ← ih]
      rfl
    · rw [if_neg heager, if_neg heager]
      exact ih

theorem map_label_joinedTables {tables : List Join} (h : q.joinedTables schema = .ok tables) :
    tables.map (·.table.label) = (q.eagerJoins schema).map (·.2.aliasName) := by
  rw [joinedTables, mapM_eq_ok] at h
  generalize q.eagerJoins schema = joins at h
  induction h with
  | nil => rfl
  | cons ht _ ih =>
    obtain ⟨-, rfl⟩ := EagerJoin.join_eq_ok.mp ht
    rw [List.map_cons, List.map_cons, ih]
    rfl

/-- The names of the tables of a query. -/
theorem labels_select (h : q.compile schema paginate = .ok c) :
    c.select.labels =
      q.entity.table :: (q.includes.filter (q.entity.joinsEagerly ·)).map snakeCase := by
  obtain ⟨keys, tables, conditions, after, hc⟩ := exists_compiles h
  rw [hc.select, ← map_aliasName_eagerJoins q schema, ← map_label_joinedTables hc.joined]
  rfl

theorem isClosed_select (hq : q.Reachable) (h : q.compile schema paginate = .ok c) :
    c.select.IsClosed := by
  obtain ⟨htable, os, hplain⟩ := isPlain_compile hq.hasColumns h
  obtain ⟨keys, tables, conditions, after, hc⟩ := exists_compiles h
  have hjoins : c.select.joins = tables := by rw [hc.select]; rfl
  have hmade : ∀ t ∈ tables, ∃ j : EagerJoin, (t.left.table = q.entity.table) ∧
      t.table.label = j.aliasName ∧ t.right = j.column j.rightColumn := by
    intro t ht
    obtain ⟨j, -, hj⟩ := exists_of_mem_forall₂ (mapM_eq_ok.mp hc.joined) ht
    obtain ⟨-, rfl⟩ := EagerJoin.join_eq_ok.mp hj
    exact ⟨j.2, rfl, rfl, rfl⟩
  refine hplain.isClosed (fun t ht => ?_) fun t ht => ?_
  · obtain ⟨j, hleft, -⟩ := hmade t (hjoins ▸ ht)
    rw [hleft, htable]
    rfl
  · obtain ⟨j, -, hlabel, hright⟩ := hmade t (hjoins ▸ ht)
    rw [hlabel, hright]
    rfl

/-- Neither is a joined relation spelled like the entity's table, nor are two of them spelled
alike. -/
def NamesApart (q : Query) : Prop :=
  (q.entity.table :: (q.includes.filter (q.entity.joinsEagerly ·)).map snakeCase).Nodup

theorem isUnambiguous_select (hq : q.Reachable) (h : q.compile schema paginate = .ok c) :
    c.select.IsUnambiguous ↔ q.NamesApart := by
  rw [Statement.isUnambiguous_iff (isClosed_select hq h), labels_select h]
  rfl

/-- The number of the rows is read from one table. -/
theorem isUnambiguous_count (hq : q.Reachable) (h : q.compile schema paginate = .ok c) :
    c.count.labels.Nodup ∧ c.count.IsUnambiguous := by
  obtain ⟨keys, tables, conditions, after, hc⟩ := exists_compiles h
  have hclosed : c.count.IsClosed := by
    refine ⟨fun column hcolumn => ?_, ?_⟩
    · rw [hc.count] at hcolumn ⊢
      rw [Statement.references] at hcolumn
      have hcondition : column ∈ Predicate.listSubjects conditions := by
        simpa [countStatement, Projection.columnsRead] using hcolumn
      rw [(Predicate.areOn_iff_listSubjects _).mp
        (Predicate.areOn_iff_forall.mpr (isOn_conditions hq.hasColumns hc.required)) _ hcondition]
      exact List.mem_cons_self
    · rw [hc.count]
      exact List.forall_mem_nil _
  have hlabels : c.count.labels.Nodup := by
    rw [hc.count]
    exact List.nodup_singleton _
  exact ⟨hlabels, (Statement.isUnambiguous_iff hclosed).mpr hlabels⟩

end Query

-- ---------------------------------------------------------------------------
-- The statement of a relation
-- ---------------------------------------------------------------------------

namespace Loading

variable {schema : Schema} {e : Entity} {name : String} {r : Relation} {read : List Value → Statement}

/-- What is mentioned by a statement that reads rows of a relation by a key. -/
theorem isClosed_sourceStatement {source : Source} {ids : List Value}
    (htable : r.table ∈ (sourceStatement schema r source ids).labels)
    (hparent : source.parent.table ∈ (sourceStatement schema r source ids).labels)
    (hleft : ∀ j ∈ source.joins, j.left.table ∈ (sourceStatement schema r source ids).labels)
    (hright : ∀ j ∈ source.joins, j.right.table ∈ (sourceStatement schema r source ids).labels)
    (hjoined : ∀ j ∈ source.joins,
      j.left.table = j.table.label ∨ j.right.table = j.table.label) :
    (sourceStatement schema r source ids).IsClosed where
  references := by
    intro c hc
    simp only [Statement.references, List.mem_append] at hc
    rcases hc with ((hread | hjoin) | hcondition) | horder
    · obtain ⟨o, ho, rfl⟩ := List.mem_map.mp hread
      rcases List.mem_append.mp ho with ho | ho
      · obtain ⟨column, -, rfl⟩ := List.mem_map.mp ho
        exact htable
      · obtain rfl := List.mem_singleton.mp ho
        exact hparent
    · obtain ⟨j, hj, hc⟩ := List.mem_flatMap.mp hjoin
      rcases List.mem_cons.mp hc with rfl | hc
      · exact hleft j hj
      · obtain rfl := List.mem_singleton.mp hc
        exact hright j hj
    · have hkey : c ∈ [source.parent] := hcondition
      obtain rfl := List.mem_singleton.mp hkey
      exact hparent
    · exact absurd horder List.not_mem_nil
  joins := hjoined

theorem isClosed_of_source? {source : Source} (hsource : source? e name r = some source)
    (ids : List Value) : (sourceStatement schema r source ids).IsClosed := by
  have hone : ∀ {base joined : String}, joined ∈ [base, joined] :=
    List.mem_cons_of_mem _ List.mem_cons_self
  rw [source?] at hsource
  split at hsource
  case h_1 | h_2 =>
    obtain rfl := Option.some.inj hsource
    exact isClosed_sourceStatement List.mem_cons_self List.mem_cons_self (List.forall_mem_nil _)
      (List.forall_mem_nil _) (List.forall_mem_nil _)
  case h_3 =>
    obtain rfl := Option.some.inj hsource
    refine isClosed_sourceStatement hone List.mem_cons_self ?_ ?_ ?_
    · exact List.forall_mem_singleton.mpr List.mem_cons_self
    · exact List.forall_mem_singleton.mpr hone
    · exact List.forall_mem_singleton.mpr (.inr rfl)
  case h_4 =>
    obtain ⟨pivot, -, rfl⟩ := Option.map_eq_some_iff.mp hsource
    refine isClosed_sourceStatement List.mem_cons_self hone ?_ ?_ ?_
    · exact List.forall_mem_singleton.mpr hone
    · exact List.forall_mem_singleton.mpr List.mem_cons_self
    · exact List.forall_mem_singleton.mpr (.inl rfl)

theorem nodup_labels_read (hr : e.relation? name = some r)
    (hread : reader? schema e name = some read) (ids : List Value) :
    (read ids).labels.Nodup ↔ TablesApart e r := by
  rw [reader?_eq, hr] at hread
  obtain ⟨source, hsource, rfl⟩ := Option.map_eq_some_iff.mp hread
  exact nodup_labels_sourceStatement schema hsource ids

theorem isUnambiguous_read (hr : e.relation? name = some r)
    (hread : reader? schema e name = some read) (ids : List Value) :
    (read ids).IsUnambiguous ↔ TablesApart e r := by
  rw [reader?_eq, hr] at hread
  obtain ⟨source, hsource, rfl⟩ := Option.map_eq_some_iff.mp hread
  exact (Statement.isUnambiguous_iff (isClosed_of_source? hsource ids)).trans
    (nodup_labels_sourceStatement schema hsource ids)

end Loading

-- ---------------------------------------------------------------------------
-- All statements
-- ---------------------------------------------------------------------------

namespace Query

variable {q : Query} {schema : Schema} {c : Compiled} {paginate : Bool}

/-- What is enough of the declarations of an entity. -/
theorem namesApart_of_declared (hq : q.Reachable)
    (hown : ∀ name, q.entity.joinsEagerly name = true → snakeCase name ≠ q.entity.table)
    (hothers : ∀ name other, q.entity.joinsEagerly name = true →
      q.entity.joinsEagerly other = true → snakeCase name = snakeCase other → name = other) :
    q.NamesApart := by
  have heager : ∀ name ∈ q.includes.filter (q.entity.joinsEagerly ·),
      q.entity.joinsEagerly name = true := fun _ hname => (List.mem_filter.mp hname).2
  refine List.nodup_cons.mpr ⟨fun htable => ?_, ?_⟩
  · obtain ⟨name, hname, heq⟩ := List.mem_map.mp htable
    exact hown name (heager name hname) heq
  · exact (hq.isWellFormed.distinct.filter _).map_on fun name hname other hother =>
      hothers name other (heager name hname) (heager other hother)

/-- The tables of the statements of a query and of a relation have different names, and every column
that is mentioned is of one table, unless two joined relations are spelled alike or one like the
entity's table, or a relation is read from one table twice. -/
theorem isUnambiguous_iff_namesApart {e : Entity} {name : String} {r : Relation}
    {read : List Value → Statement} (hq : q.Reachable) (hc : q.compile schema paginate = .ok c)
    (hr : e.relation? name = some r) (hread : Loading.reader? schema e name = some read)
    (ids : List Value) :
    (c.select.labels.Nodup ↔ q.NamesApart) ∧ (c.select.IsUnambiguous ↔ q.NamesApart) ∧
      c.count.labels.Nodup ∧ c.count.IsUnambiguous ∧
      ((read ids).labels.Nodup ↔ Loading.TablesApart e r) ∧
      ((read ids).IsUnambiguous ↔ Loading.TablesApart e r) := by
  obtain ⟨hcount, hunambiguous⟩ := isUnambiguous_count hq hc
  refine ⟨?_, isUnambiguous_select hq hc, hcount, hunambiguous, ?_,
    Loading.isUnambiguous_read hr hread ids⟩
  · rw [labels_select hc]
    rfl
  · exact Loading.nodup_labels_read hr hread ids

end Query

-- ---------------------------------------------------------------------------
-- Employees, their badges and their bosses
-- ---------------------------------------------------------------------------

/-- A relation to a single row. -/
def Relation.single (table : String) (kind : RelationKind) (key : String) (eager : Bool) :
    Relation where
  table           := table
  kind            := kind
  foreignKey      := some key
  ownerKey        := "id"
  columns         := none
  eager           := eager
  target          := none
  pivot           := none
  pivotForeignKey := none
  pivotRelatedKey := none

def Entity.staff : Entity :=
  { Entity.keyed "staff"
      [("badge", .single "badges" .hasOne "staff_id" true),
        ("boss", .single "staff" .belongsTo "boss_id" false)] with
    includePaths := ["badge", "boss"] }

/-- Employees with their badges. -/
def Query.staff : Query := includePath { entity := .staff } "badge"

/-- A badge can be joined, but a boss is an employee. -/
theorem Query.isUnambiguous_iff_namesApart_staff :
    ∃ c read, Query.staff.compile [] false = .ok c ∧
      Loading.reader? [] .staff "boss" = some read ∧
      c.select.IsUnambiguous ∧ ¬(read [.int 1]).IsUnambiguous := by
  obtain ⟨c, hc⟩ : ∃ c, Query.staff.compile [] false = .ok c := ⟨_, rfl⟩
  obtain ⟨read, hread⟩ : ∃ read, Loading.reader? [] .staff "boss" = some read := ⟨_, rfl⟩
  obtain ⟨-, hselect, -, -, -, hboss⟩ := isUnambiguous_iff_namesApart
    (.includePath "badge" (.fresh .staff .standard)) hc rfl hread [.int 1]
  have hapart : Query.staff.NamesApart := by
    rw [NamesApart]
    decide
  exact ⟨c, read, hc, hread, hselect.mpr hapart, fun h => (hboss.mp h).1 rfl rfl⟩

end ListQuery
