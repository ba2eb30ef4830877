import ListQuery.Filter.Parsing
import ListQuery.Include
import ListQuery.SortKey

/-!
# Applied parameters

Filters, sorts and includes as plain entries, for a client that asks what became of its request.
-/

namespace ListQuery

def Filter.applied (f : Filter) : Entries Value :=
  [("field", .text f.field), ("operator", .text f.operator.name), ("value", f.operand.toValue),
    ("conjunction", .text (if f.alternative then "or" else "and"))]

/-- The filters of some parameters, if each has a field that can be described. -/
def Filter.describe (params : Mapping) (fs : List Filter) : Except Failure (List (Entries Value)) :=
  if FilterParams.areDescribable params then .ok (fs.map Filter.applied)
  else .error (.invalid ["field"])

/-- The sorts with their priorities, counted from one. -/
def SortKey.applied (sorts : List SortKey) : List (Entries Value) :=
  sorts.zipIdx.map fun s =>
    [("field", .text s.1.field), ("direction", .text s.1.direction.name),
      ("priority", .int (s.2 + 1))]

def appliedInclude (path : String) : Entries Value :=
  [("relation", .text path), ("depth", .int (depthOf path)), ("nested", .bool (isNested path))]

end ListQuery
