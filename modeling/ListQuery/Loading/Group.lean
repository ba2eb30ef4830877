import ListQuery.Failure
import ListQuery.Paging.Result
import ListQuery.Value.Same

/-!
# Grouping related rows

Related rows come with the key of the row they belong to. Grouping takes that key off each of them
and puts the rows of one key together.
-/

namespace ListQuery

namespace Grouped

/-- One more row under a key. -/
def add (g : Grouped) (key : Value) (row : Row) : Grouped :=
  match g with
  | []           => [(key, [row])]
  | (k, rs) :: r => if k.same key then (k, rs ++ [row]) :: r else (k, rs) :: add r key row

/-- The rows under a key. -/
def rowsOf (g : Grouped) (key : Value) : List Row :=
  ((g.find? fun e => e.1.same key).map (·.2)).getD []

def allRows (g : Grouped) : List Row := g.flatMap (·.2)

/-- Whether a row counts: it has something in the column that tells so, if there is one. -/
def counts (present : Option String) (row : Row) : Bool :=
  match present with
  | none        => true
  | some column => !((row.get? column).getD .null).isNull

def addRow (keyColumn : String) (present : Option String) (g : Grouped) (row : Row) :
    Except Failure Grouped :=
  match row.get? keyColumn with
  | none     => .error .missing
  | some key =>
    let rest := row.drop keyColumn
    if counts present rest then
      if key.isKey then .ok (g.add key rest) else .error .wrongKind
    else .ok g

/-- The rows by the values of the key column. -/
def ofRows (keyColumn : String) (present : Option String) (rows : List Row) :
    Except Failure Grouped :=
  rows.foldlM (addRow keyColumn present) []

end Grouped

end ListQuery
