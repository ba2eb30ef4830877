import ListQuery.Schema.Entity
import ListQuery.Sql.Statement

/-!
# Joined relations

A relation to a single row can be joined into the query of the rows. Its columns come under labels
of their own, from which the related row is put together again.
-/

namespace ListQuery

open Text Sql

structure EagerJoin where
  table     : String
  aliasName : String
  /-- The column of the row's side, with its table. -/
  left      : String
  /-- The column of the related side, with the alias. -/
  right     : String
  columns   : List String

namespace EagerJoin

/-- What stands after the first dot. -/
def columnOf (qualified : String) : String := ((splitPath? qualified).map (·.2)).getD ""

variable (j : EagerJoin)

def leftColumn : String := columnOf j.left

def rightColumn : String := columnOf j.right

def label (column : String) : String := j.aliasName ++ "__" ++ column

def text : String :=
  "LEFT JOIN " ++ j.table ++ " AS " ++ j.aliasName ++ " ON " ++ j.left ++ " = " ++ j.right

/-- A column of the related table. -/
def column (name : String) : Column := ⟨j.aliasName, name, .untyped⟩

/-- The join of a relation of `e` to rows of `table`. Only relations to a single row have one. -/
def ofRelation? (schema : Schema) (e : Entity) (relation : String) (table : String) :
    Option EagerJoin := do
  let r ← e.relation? relation
  let aliasName := snakeCase relation
  let key := e.foreignKey relation
  let columns := Entity.relatedColumns schema r
  match r.kind with
  | .belongsTo =>
    some ⟨r.table, aliasName, table ++ "." ++ key, aliasName ++ "." ++ r.ownerKey, columns⟩
  | .hasOne    =>
    some ⟨r.table, aliasName, table ++ "." ++ r.ownerKey, aliasName ++ "." ++ key, columns⟩
  | _          => none

/-- The join in a statement on the entity, if the entity has the column that it needs. -/
def join (e : Entity) : Except Failure Join :=
  match e.column? j.leftColumn with
  | some left =>
    .ok { table := ⟨j.table, some j.aliasName⟩, left, right := j.column j.rightColumn }
  | none      => .error .missing

/-- The related columns under their labels. -/
def outputs : List Output := j.columns.map fun name => ⟨j.column name, some (j.label name)⟩

end EagerJoin

end ListQuery
