import ListQuery.Text.Split
import ListQuery.Text.LetterCase

/-!
# Sort keys

A column and a direction to order by, and the text form of a list of them: `name,-created_at` or
`name:asc,email:desc`.
-/

namespace ListQuery

open Text

inductive Direction where
  | ascending | descending
  deriving DecidableEq, Repr

namespace Direction

def name : Direction → String
  | ascending  => "asc"
  | descending => "desc"

/-- The keyword in an `ORDER BY`. -/
def keyword : Direction → String
  | ascending  => "ASC"
  | descending => "DESC"

/-- `desc` in any letter case is descending, everything else ascending. -/
def parse (spelling : String) : Direction :=
  if lower (trim spelling) = "desc" then descending else ascending

end Direction

structure SortKey where
  field     : String
  direction : Direction
  deriving DecidableEq, Repr

namespace SortKey

/-- The field, with a hyphen before it when descending. -/
def text (s : SortKey) : String :=
  match s.direction with
  | .descending => "-" ++ s.field
  | .ascending  => s.field

/-- One entry of a list. A blank entry, or one with a blank field, is none. -/
def ofEntry? (entry : String) : Option SortKey :=
  let entry := trim entry
  let some? (field : String) (d : Direction) : Option SortKey :=
    if field = "" then none else some ⟨field, d⟩
  match cut? ':' entry with
  | some (field, direction) => some? (trim field) (.parse direction)
  | none =>
    match entry.toList with
    | '-' :: field => some? (trim (String.ofList field)) .descending
    | _            => some? entry .ascending

/-- The sorts of a comma-separated list. -/
def parse (list : String) : List SortKey := (split ',' list).filterMap ofEntry?

/-- The list as one text. -/
def toText (sorts : List SortKey) : String := join "," (sorts.map text)

end SortKey

end ListQuery
