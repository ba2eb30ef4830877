import ListQuery.Compiled
import ListQuery.Loading.Group

/-!
# Rows as they are delivered

What becomes of a row between the database and the client: the columns of joined relations move into
a row of their own, hidden columns are taken off, and loaded relations are put on.
-/

namespace ListQuery

namespace Row

/-- Takes the labelled columns of a join off a row. -/
def takeJoined (j : EagerJoin) : List String → Row → Except Failure (Row × Row)
  | [],            row => .ok ([], row)
  | name :: names, row =>
    match row.get? (j.label name) with
    | none   => .error .missing
    | some v => do
      let (joined, rest) ← takeJoined j names (row.drop (j.label name))
      .ok ((name, v) :: joined, rest)

/-- A related row under the relation's name; without any value in it there is no related row. -/
def foldJoin (row : Row) (join : String × EagerJoin) : Except Failure Row := do
  let (joined, rest) ← takeJoined join.2 join.2.columns row
  let related : Value := if joined.all fun e => e.2.isNull then .null else .record joined
  .ok (rest.put join.1 related)

def fold (joins : List (String × EagerJoin)) (row : Row) : Except Failure Row :=
  joins.foldlM foldJoin row

def stripHidden (hidden : List String) (row : Row) : Row := hidden.foldl (fun r n => r.drop n) row

/-- The value of a column that has to be there. -/
def value (row : Row) (column : String) : Except Failure Value :=
  match row.get? column with
  | some v => .ok v
  | none   => .error .missing

/-- The loaded rows of one path that belong to the row, under the path. -/
def attachPath (primaryKey : String) (row : Row) (loaded : String × Grouped) :
    Except Failure Row := do
  let key ← row.value primaryKey
  if key.isKey then .ok (row.put loaded.1 (.list ((loaded.2.rowsOf key).map .record)))
  else .error .wrongKind

def attach (primaryKey : String) (included : Included) (row : Row) : Except Failure Row :=
  included.foldlM (attachPath primaryKey) row

end Row

/-- The cursor to the rows after the last one of a page, if the page has rows. -/
def nextCursor (keyColumns : List String) (rows : List Row) : Except Failure (Option String) :=
  match rows.getLast? with
  | none      => .ok none
  | some last => do
    let values ← keyColumns.mapM fun name => (last.value name).map fun v => (name, v)
    (Cursor.encode (.record (Entries.ofList values))).map some

end ListQuery
