import ListQuery.Proofs.Compiled
import ListQuery.Proofs.Schema.Entity

/-!
# Joins of relations

A relation to a single row has a join. The columns on which it joins are read off the texts of its
two sides at their first dot; that is the dot after the table just if the name of the table has no
dot of its own. The includes of a query whose relations lead to a single row and are marked for it are
joined. Where neither the entity's table nor the name of a relation has a dot they are joined on the
same columns on which they are loaded; otherwise a part of the name is taken for one of the column.

* `ofRelation?_eq_some`, `exists_ofRelation?` — the join of a relation;
* `columnOf_qualified` — the column that is read off a side;
* `join_eq_ok` — the join in a statement;
* `join_made_iff` — one join and the columns of the relation;
* `joinedRelations`, `joinedTables_eq_onKeys_iff` — all joins of a query.
-/

namespace ListQuery

open Sql Text

namespace EagerJoin

variable {schema : Schema} {e : Entity} {name table column : String} {r : Relation} {j : EagerJoin}
  {t : Join}

-- ---------------------------------------------------------------------------
-- The join of a relation
-- ---------------------------------------------------------------------------

/-- The column of the row that a relation joins on. -/
def rowKey (e : Entity) (name : String) (r : Relation) : String :=
  if r.kind = .belongsTo then e.foreignKey name else r.ownerKey

/-- The column of the related row that a relation joins on. -/
def relatedKey (e : Entity) (name : String) (r : Relation) : String :=
  if r.kind = .belongsTo then r.ownerKey else e.foreignKey name

theorem ofRelation?_eq_some :
    ofRelation? schema e name table = some j ↔
      ∃ r, e.relation? name = some r ∧ (r.kind = .belongsTo ∨ r.kind = .hasOne) ∧
        j = ⟨r.table, snakeCase name, table ++ "." ++ rowKey e name r,
          snakeCase name ++ "." ++ relatedKey e name r, Entity.relatedColumns schema r⟩ := by
  rw [ofRelation?]
  cases e.relation? name with
  | none =>
    constructor
    · intro h
      cases h
    · rintro ⟨r, hr, -⟩
      cases hr
  | some r =>
    simp only [bind, Option.bind, Option.some.injEq, exists_eq_left']
    cases hkind : r.kind with
    | belongsTo => simp [rowKey, relatedKey, hkind, eq_comm]
    | hasOne => simp [rowKey, relatedKey, hkind, eq_comm]
    | hasMany => simp
    | belongsToMany => simp

theorem exists_relation?_of_joinsEagerly (h : e.joinsEagerly name = true) :
    ∃ r, e.relation? name = some r ∧ (r.kind = .belongsTo ∨ r.kind = .hasOne) := by
  rw [Entity.joinsEagerly] at h
  split at h
  case h_1 r hr =>
    obtain ⟨-, hkind⟩ := Bool.and_eq_true_iff.mp h
    rw [Bool.or_eq_true, beq_iff_eq, beq_iff_eq] at hkind
    exact ⟨r, hr, hkind⟩
  case h_2 => cases h

/-- A relation that is joined has a join. -/
theorem exists_ofRelation? (schema : Schema) (table : String) (h : e.joinsEagerly name = true) :
    ∃ j, ofRelation? schema e name table = some j := by
  obtain ⟨r, hr, hkind⟩ := exists_relation?_of_joinsEagerly h
  exact ⟨_, ofRelation?_eq_some.mpr ⟨r, hr, hkind, rfl⟩⟩

-- ---------------------------------------------------------------------------
-- The columns on which it joins
-- ---------------------------------------------------------------------------

/-- The column of a side is read off it just if the table has no dot in its name. -/
theorem columnOf_qualified : columnOf (table ++ "." ++ column) = column ↔ '.' ∉ table.toList := by
  constructor
  · intro h hdot
    -- the first dot of the table cuts off too little
    obtain ⟨before, after, htable, hbefore⟩ := List.eq_append_cons_of_mem hdot
    have hcut : splitPath? (table ++ "." ++ column) =
        some (String.ofList before, String.ofList after ++ "." ++ column) := by
      refine cut?_eq_some.mpr ⟨?_, by rwa [String.toList_ofList]⟩
      rw [← String.toList_inj]
      simp [htable]
    rw [columnOf, hcut] at h
    have hlength := congrArg (fun s : String => s.toList.length) h
    simp at hlength
    omega
  · intro hdot
    have hcut : splitPath? (table ++ "." ++ column) = some (table, column) :=
      cut?_eq_some.mpr ⟨rfl, hdot⟩
    rw [columnOf, hcut]
    rfl

/-- The join in a statement: the row's side is a column of the entity. -/
theorem join_eq_ok :
    j.join e = .ok t ↔ (e.column? j.leftColumn).isSome = true ∧
      t = { table := ⟨j.table, some j.aliasName⟩, left := e.columnNamed j.leftColumn,
            right := j.column j.rightColumn } := by
  rw [join, Entity.column?]
  by_cases hhas : e.columnNames.contains j.leftColumn = true
  · rw [if_pos hhas]
    exact ⟨fun h => ⟨rfl, (Except.ok.inj h).symm⟩, fun h => congrArg Except.ok h.2.symm⟩
  · rw [if_neg hhas]
    constructor
    · intro h
      cases h
    · rintro ⟨hsome, -⟩
      cases hsome

-- ---------------------------------------------------------------------------
-- The join of a relation and the rows that are loaded for it
-- ---------------------------------------------------------------------------

/-- The join of a relation to a single row. -/
def made (schema : Schema) (e : Entity) (name : String) (r : Relation) : EagerJoin :=
  ⟨r.table, snakeCase name, e.table ++ "." ++ rowKey e name r,
    snakeCase name ++ "." ++ relatedKey e name r, Entity.relatedColumns schema r⟩

/-- The join on the columns on which the relation is loaded. -/
def onKeys (e : Entity) (name : String) (r : Relation) : Join where
  table := ⟨r.table, some (snakeCase name)⟩
  left  := e.columnNamed (rowKey e name r)
  right := ⟨snakeCase name, relatedKey e name r, .untyped⟩

/-- The rows of an entity have the keys on which its relations to a single row are loaded. -/
theorem isSome_column?_rowKey (hr : e.relation? name = some r)
    (hkey : r.kind ≠ .belongsTo → r.ownerKey = e.primaryKey) :
    (e.column? (rowKey e name r)).isSome = true := by
  rw [rowKey]
  split
  case isTrue hkind => exact Entity.isSome_column?_foreignKey hr hkind
  case isFalse hkind =>
    rw [hkey hkind]
    exact Entity.isSome_column?_primaryKey e

/-- A relation is joined on the columns on which it is loaded just if the names before these have no
dot of their own. -/
theorem join_made_iff (hkey : (e.column? (rowKey e name r)).isSome = true) :
    (made schema e name r).join e = .ok (onKeys e name r) ↔
      '.' ∉ e.table.toList ∧ '.' ∉ (snakeCase name).toList := by
  have hleft : (made schema e name r).leftColumn = rowKey e name r ↔ '.' ∉ e.table.toList :=
    columnOf_qualified
  have hright : (made schema e name r).rightColumn = relatedKey e name r ↔
      '.' ∉ (snakeCase name).toList := columnOf_qualified
  rw [join_eq_ok, ← hleft, ← hright]
  constructor
  · rintro ⟨-, heq⟩
    rw [onKeys, Join.mk.injEq] at heq
    obtain ⟨-, hrow, hrelated, -⟩ := heq
    rw [Entity.columnNamed, Entity.columnNamed, Column.mk.injEq] at hrow
    rw [column, Column.mk.injEq] at hrelated
    exact ⟨hrow.2.1.symm, hrelated.2.1.symm⟩
  · rintro ⟨hleft, hright⟩
    rw [hleft, hright]
    exact ⟨hkey, rfl⟩

end EagerJoin

namespace Query

-- ---------------------------------------------------------------------------
-- The joined relations of a query
-- ---------------------------------------------------------------------------

variable {q : Query} {schema : Schema} {x : String × Relation}

/-- The includes that are joined, with their relations. -/
def joinedRelations (q : Query) : List (String × Relation) :=
  q.includes.filterMap fun path =>
    if q.entity.joinsEagerly path then (q.entity.relation? path).map (path, ·) else none

theorem of_mem_joinedRelations (hx : x ∈ q.joinedRelations) :
    x.1 ∈ q.includes ∧ q.entity.relation? x.1 = some x.2 ∧
      (x.2.kind = .belongsTo ∨ x.2.kind = .hasOne) := by
  obtain ⟨path, hpath, hx⟩ := List.mem_filterMap.mp hx
  split at hx
  case isTrue heager =>
    obtain ⟨r, hr, rfl⟩ := Option.map_eq_some_iff.mp hx
    obtain ⟨r', hr', hkind⟩ := EagerJoin.exists_relation?_of_joinsEagerly heager
    obtain rfl := Option.some.inj (hr.symm.trans hr')
    exact ⟨hpath, hr, hkind⟩
  case isFalse => cases hx

theorem map_fst_joinedRelations :
    q.joinedRelations.map (·.1) = q.includes.filter (q.entity.joinsEagerly ·) := by
  rw [joinedRelations]
  induction q.includes with
  | nil => rfl
  | cons path paths ih =>
    rw [List.filterMap_cons, List.filter_cons]
    by_cases heager : q.entity.joinsEagerly path
    · obtain ⟨r, hr, -⟩ := EagerJoin.exists_relation?_of_joinsEagerly heager
      rw [if_pos heager, if_pos heager, hr]
      exact congrArg (path :: ·) ih
    · rw [if_neg heager, if_neg heager]
      exact ih

theorem eagerJoins_eq_map :
    q.eagerJoins schema = q.joinedRelations.map fun x =>
      (x.1, EagerJoin.made schema q.entity x.1 x.2) := by
  rw [joinedRelations, List.map_filterMap, eagerJoins]
  refine List.filterMap_congr fun path _ => ?_
  split
  case isTrue heager =>
    obtain ⟨r, hr, hkind⟩ := EagerJoin.exists_relation?_of_joinsEagerly heager
    rw [hr, EagerJoin.ofRelation?_eq_some.mpr ⟨r, hr, hkind, rfl⟩]
    rfl
  case isFalse => rfl

/-- All joins of a query are on the columns on which its relations are loaded just if the names before
these have no dots of their own. -/
theorem joinedTables_eq_onKeys_iff
    (hkeys : ∀ x ∈ q.joinedRelations, x.2.kind = .hasOne → x.2.ownerKey = q.entity.primaryKey) :
    q.joinedTables schema =
        .ok (q.joinedRelations.map fun x => EagerJoin.onKeys q.entity x.1 x.2) ↔
      ∀ x ∈ q.joinedRelations, '.' ∉ q.entity.table.toList ∧ '.' ∉ (snakeCase x.1).toList := by
  rw [joinedTables, eagerJoins_eq_map, mapM_eq_ok, List.forall₂_map_left_iff,
    List.forall₂_map_right_iff, List.forall₂_same]
  refine forall₂_congr fun x hx => EagerJoin.join_made_iff ?_
  obtain ⟨-, hr, hkind⟩ := of_mem_joinedRelations hx
  exact EagerJoin.isSome_column?_rowKey hr fun hother =>
    hkeys x hx (hkind.resolve_left hother)

end Query

end ListQuery
