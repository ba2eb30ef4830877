import ListQuery.Proofs.Include
import ListQuery.Proofs.Value.Entries
import ListQuery.Schema.Entity

/-!
# Columns of entities

An entity has a column for each name that its whitelists mention, for its primary key and for the key
of every row to which its own rows belong.

* `isSome_column?_iff`, `mem_columnNames` — the columns that an entity has;
* `declares` — the declarations whose names are columns.
-/

namespace ListQuery.Entity

variable {e : Entity} {name : String} {r : Relation}

theorem mem_orderedFields {names : List String} : name ∈ e.orderedFields names ↔ name ∈ names := by
  rw [orderedFields, List.mem_append, mem_distinct, List.mem_mergeSort, List.mem_filter,
    List.mem_filter, List.contains_iff_mem]
  by_cases hdeclared : name ∈ e.types.keys.filter names.contains
  · have hname := List.contains_iff_mem.mp (List.mem_filter.mp hdeclared).2
    exact iff_of_true (.inl ⟨(List.mem_filter.mp hdeclared).1, hname⟩) hname
  · rw [Bool.not_eq_true', ← Bool.not_eq_true, List.contains_iff_mem]
    exact ⟨fun h => h.elim (·.2) (·.1), fun h => .inr ⟨h, hdeclared⟩⟩

theorem isSome_column?_iff : (e.column? name).isSome = true ↔ name ∈ e.mentionedNames := by
  rw [column?, ← mem_orderedFields (e := e), ← columnNames, ← List.contains_iff_mem]
  cases e.columnNames.contains name with
  | true => exact iff_of_true rfl rfl
  | false => exact iff_of_false Bool.false_ne_true Bool.false_ne_true

theorem mem_columnNames : name ∈ e.columnNames ↔ name ∈ e.mentionedNames := by
  rw [columnNames, mem_orderedFields]

theorem isSome_column?_iff_mem_columnNames :
    (e.column? name).isSome = true ↔ name ∈ e.columnNames := by
  rw [isSome_column?_iff, mem_columnNames]

/-- The names that are columns, whatever else is declared: those of the whitelists, with the column
in front of each path, the primary key, the mark of deleted rows and the keys of the rows to which
the rows of the entity belong. -/
structure Declares (e : Entity) : Prop where
  selected   : ∀ name ∈ e.selectFields, name ∈ e.columnNames
  sorted     : ∀ name ∈ e.sortFields, name ∈ e.columnNames
  filtered   : ∀ field ∈ e.filterFields, rootColumn field ∈ e.columnNames
  searched   : ∀ name ∈ e.searchFields, name ∈ e.columnNames
  primaryKey : e.primaryKey ∈ e.columnNames
  softDelete : ∀ name ∈ e.softDelete, name ≠ "" → name ∈ e.columnNames
  belongsTo  : ∀ name r, e.relation? name = some r → r.kind = .belongsTo →
    e.foreignKey name ∈ e.columnNames

theorem declares (e : Entity) : e.Declares := by
  have hkeys : ∀ name r, e.relation? name = some r → r.kind = .belongsTo →
      e.foreignKey name ∈ (e.relations.filter fun r => r.2.kind == .belongsTo).map fun r =>
        e.foreignKey r.1 := fun name r hr hkind =>
    List.mem_map.mpr ⟨(name, r), List.mem_filter.mpr
      ⟨Entries.mem_of_get?_eq_some hr, beq_iff_eq.mpr hkind⟩, rfl⟩
  constructor <;> simp only [mem_columnNames, mentionedNames, List.mem_append]
  case selected => exact fun name h => by simp [h]
  case sorted => exact fun name h => by simp [h]
  case filtered => exact fun field h => by simp [List.mem_map_of_mem h]
  case searched => exact fun name h => by simp [h]
  case primaryKey => simp
  case softDelete => exact fun name h hne => by simp [Option.mem_def.mp h, hne]
  case belongsTo => exact fun name r hr hkind => .inr (hkeys name r hr hkind)

theorem isSome_column?_primaryKey (e : Entity) : (e.column? e.primaryKey).isSome = true :=
  isSome_column?_iff_mem_columnNames.mpr e.declares.primaryKey

/-- The rows of an entity have the keys of the rows that they belong to. -/
theorem isSome_column?_foreignKey (hr : e.relation? name = some r) (hkind : r.kind = .belongsTo) :
    (e.column? (e.foreignKey name)).isSome = true :=
  isSome_column?_iff_mem_columnNames.mpr (e.declares.belongsTo name r hr hkind)

end ListQuery.Entity
