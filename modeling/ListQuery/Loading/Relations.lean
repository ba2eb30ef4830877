import ListQuery.Execution.Database
import ListQuery.Loading.Group
import ListQuery.Schema.Entity
import ListQuery.Value.Equal
import ListQuery.Value.Kind

/-!
# Loading relations

Related rows are read for many rows at once, one statement for each relation on the way: a path
`role.permissions` reads the roles of the given rows, then the permissions of those roles. A nested
step needs the relation before it to name the entity of its rows; a path that cannot be followed
further is left where it is.
-/

namespace ListQuery

open Sql Text

namespace Loading

/-- The label of the column that tells which row a related row belongs to. -/
def parentKey : String := "parent_key"

/-- The columns that are read of a relation: with the key of the related entity, if it is known. -/
def readColumns (schema : Schema) (r : Relation) : List String :=
  let columns := Entity.relatedColumns schema r
  match r.target.bind schema.get? with
  | some t => distinct (t.primaryKey :: columns)
  | none   => columns

/-- A column of a table without declared types. -/
def plainColumn (table name : String) : Column := ⟨table, name, .untyped⟩

def isAnyOf (c : Column) (ids : List Value) : Predicate :=
  .member (.column c) false (.ofList c.type ids)

/-- The statements that read a relation of `e`, by the keys of the rows for which they do, where
there is a relation that can be read. -/
def reader? (schema : Schema) (e : Entity) (name : String) : Option (List Value → Statement) := do
  let r ← e.relation? name
  let key := e.foreignKey name
  let outputs (parent : Column) : Projection :=
    .columns ((readColumns schema r).map (fun c => { column := plainColumn r.table c }) ++
      [{ column := parent, label := some parentKey }])
  match r.kind with
  | .hasMany | .hasOne =>
    let parent := plainColumn r.table key
    some fun ids =>
      { projection := outputs parent, table := ⟨r.table, none⟩,
        conditions := [isAnyOf parent ids] }
  | .belongsTo =>
    let parent := e.columnNamed e.primaryKey
    let join : Join :=
      { table := ⟨r.table, none⟩, left := e.columnNamed key,
        right := plainColumn r.table r.ownerKey, outer := false }
    some fun ids =>
      { projection := outputs parent, table := ⟨e.table, none⟩, joins := [join],
        conditions := [isAnyOf parent ids] }
  | .belongsToMany => do
    let pivot ← r.pivot
    let named (given : Option String) (other : String) : String :=
      match given with
      | some n => if n = "" then other else n
      | none   => other
    let parent :=
      plainColumn pivot (named r.pivotForeignKey (singular (snakeCase e.table) ++ "_id"))
    let join : Join :=
      { table := ⟨pivot, none⟩, left := plainColumn pivot (named r.pivotRelatedKey key),
        right := plainColumn r.table r.ownerKey, outer := false }
    some fun ids =>
      { projection := outputs parent, table := ⟨r.table, none⟩, joins := [join],
        conditions := [isAnyOf parent ids] }

/-- The statement that reads a relation for the rows whose keys are the members of a value. They are
only looked at where there is a relation that can be read. -/
def statement? (schema : Schema) (e : Entity) (name : String) (ids : Value) :
    Except Failure (Option Statement) :=
  match reader? schema e name with
  | none      => .ok none
  | some read => ids.members.map fun keys => some (read keys)

variable {σ : Type} (db : Database σ) (schema : Schema)

/-- The rows of one relation by the keys of the rows they belong to. -/
def relation (e : Entity) (name : String) (ids : Value) : Session σ Grouped :=
  if ids.isVoid then pure []
  else do
    match ← Database.pureStep (statement? schema e name ids) with
    | none   => pure []
    | some s => do
      let rows ← db.readRows s
      Database.pureStep (Grouped.ofRows parentKey none rows)

/-- Whether a value is equal to one of those that were seen. -/
def isAmong (v : Value) : List Value → Except Failure Bool
  | []      => .ok false
  | w :: ws => do if ← w.equal v then .ok true else isAmong v ws

/-- One more key, unless it is nothing or was seen before. -/
def addKey (seen : List Value) (v : Value) : Except Failure (List Value) := do
  if v.isNull then .ok seen
  else if ← isAmong v seen then .ok seen
  else .ok (seen ++ [v])

/-- The keys of rows, each once; rows without one do not count. -/
def keysOf (column : String) (rows : List Row) : Except Failure (List Value) :=
  (rows.filterMap fun r => r.get? column).foldlM addKey []

/-- The steps of one path from an entity on; `before` holds the names that led there. -/
def pathFrom (e : Entity) (ids : List Value) (before : List String) (loaded : Included) :
    List String → Session σ Included
  | []            => pure loaded
  | name :: names =>
    match e.relation? name with
    | none   => pure loaded
    | some r => do
      let path := join "." (before ++ [name])
      let loaded ← match loaded.get? path with
        | some _ => pure loaded
        | none   => do pure (loaded.put path (← relation db schema e name (.list ids)))
      match names, r.target.bind schema.get? with
      | _ :: _, some target => do
        let rows := ((loaded.get? path).getD []).allRows
        let keys ← Database.pureStep (keysOf target.primaryKey rows)
        pathFrom target keys (before ++ [name]) loaded names
      | _,      _           => pure loaded

/-- The related rows by path, for every path and every step on the way to it. -/
def paths (e : Entity) (ids : Value) (ps : List String) : Session σ Included :=
  ps.foldlM (fun loaded p => do
    let keys ← Database.pureStep ids.members
    pathFrom db schema e keys [] loaded (segments p)) []

end Loading

end ListQuery
