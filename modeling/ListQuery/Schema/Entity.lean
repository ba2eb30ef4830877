import ListQuery.Schema.ColumnType
import ListQuery.Include
import ListQuery.SortKey
import ListQuery.Text.Name
import ListQuery.Value.Basic

/-!
# Entities

What a client may touch of a table: the whitelists, the declared column types and relations, and
what is chosen when a request does not say. Entities refer to each other by name within a `Schema`.

Every name a client sends is checked against the whitelists of its entity before it can reach a
statement; `columns` lists the columns that a statement on the entity can mention.
-/

namespace ListQuery

open Text

inductive RelationKind where
  /-- The row holds the key of the related row. -/
  | belongsTo
  /-- The related row holds the key of the row. -/
  | hasOne
  | hasMany
  /-- A table of pairs stands between. -/
  | belongsToMany
  deriving DecidableEq, Repr

structure Relation where
  table             : String
  kind              : RelationKind
  /-- The column that joins, unless it follows from the relation's name. -/
  foreignKey        : Option String
  ownerKey          : String
  columns           : Option (List String)
  /-- Whether the relation is joined into the query of the rows. -/
  eager             : Bool
  /-- The entity of the related rows, which nested paths need. -/
  target            : Option String
  pivot             : Option String
  pivotForeignKey   : Option String
  pivotRelatedKey   : Option String

structure Entity where
  table            : String
  filterFields     : List String
  sortFields       : List String
  selectFields     : List String
  includePaths     : List String
  defaultSort      : Option SortKey
  defaultSelection : Option (List String)
  searchFields     : List String
  primaryKey       : String
  softDelete       : Option String
  /-- Types by column, in the order of declaration. -/
  types            : Entries ColumnType
  relations        : Entries Relation

/-- The entities by name. -/
abbrev Schema := Entries Entity

/-- A column of a table or of an alias. -/
structure Column where
  table : String
  name  : String
  type  : ColumnType
  deriving DecidableEq

/-- What stands before the first dot, and after it. -/
def splitPath? (field : String) : Option (String × String) := cut? '.' field

/-- What stands before the first dot, or all of it. -/
def rootColumn (field : String) : String := ((splitPath? field).map (·.1)).getD field

namespace Entity

variable (e : Entity)

def allowsFilter (field : String) : Bool := e.filterFields.contains field
def allowsSort (field : String) : Bool := e.sortFields.contains field
def allowsField (field : String) : Bool := e.selectFields.contains field
def allowsInclude (path : String) : Bool := e.includePaths.contains path

def relation? (name : String) : Option Relation := e.relations.get? name

/-- Names in the order in which their types are declared, then the others in code point order. -/
def orderedFields (names : List String) : List String :=
  let declared := e.types.keys.filter names.contains
  let rest := names.filter fun n => !declared.contains n
  declared ++ distinct (rest.mergeSort fun a b => decide (a ≤ b))

/-- The fields of a row when a request selects none. -/
def defaultFields : List String :=
  e.defaultSelection.getD (e.orderedFields e.selectFields)

/-- The column that joins a relation: the declared one, or `<singular of the last segment>_id`. -/
def foreignKey (relation : String) : String :=
  match (e.relation? relation).bind (·.foreignKey) with
  | some key => if key = "" then inferred else key
  | none     => inferred
where
  inferred : String :=
    let name := snakeCase ((segments relation).getLastD "")
    (if isPlural name then singular name else name) ++ "_id"

/-- Every name that a statement on the entity can mention. -/
def mentionedNames : List String :=
  e.selectFields ++ e.sortFields ++ e.searchFields ++ e.filterFields.map rootColumn ++
    [e.primaryKey] ++ e.softDelete.toList.filter (· ≠ "") ++
    (e.relations.filter fun r => r.2.kind == .belongsTo).map fun r => e.foreignKey r.1

def columnNames : List String := e.orderedFields e.mentionedNames

def typeOf (name : String) : ColumnType := (e.types.get? name).getD .untyped

def columnNamed (name : String) : Column := ⟨e.table, name, e.typeOf name⟩

def columns : List Column := e.columnNames.map e.columnNamed

/-- The column of a name, if the entity has it. -/
def column? (name : String) : Option Column :=
  if e.columnNames.contains name then some (e.columnNamed name) else none

/-- Single related rows that are marked for it are joined into the query of the rows. -/
def joinsEagerly (relation : String) : Bool :=
  match e.relation? relation with
  | some r => r.eager && (r.kind == .belongsTo || r.kind == .hasOne)
  | none   => false

/-- The columns that a relation brings: the declared ones, the default fields of its target, or
the owner's key alone. -/
def relatedColumns (schema : Schema) (r : Relation) : List String :=
  match r.columns with
  | some cs => cs
  | none    =>
    match r.target.bind schema.get? with
    | some t => t.defaultFields
    | none   => [r.ownerKey]

end Entity

end ListQuery
