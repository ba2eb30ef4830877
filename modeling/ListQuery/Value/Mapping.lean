import ListQuery.Value.Same

/-!
# Maps with keys of any kind

The entries of a map value, found by key. Keys are told apart by `Value.same`; of a repeated key the
first spelling and the last value count.
-/

namespace ListQuery

/-- The entries of a map, in the order in which the keys were first written. -/
abbrev Mapping := List (Value × Value)

namespace Mapping

def get? (key : Value) (es : Mapping) : Option Value :=
  (es.find? fun e => e.1.same key).map (·.2)

/-- Writes a value: a known key keeps its place, a new one comes last. -/
def put (key v : Value) : Mapping → Mapping
  | []          => [(key, v)]
  | (k, w) :: r => if k.same key then (k, v) :: r else (k, w) :: put key v r

/-- Repeated keys written one after the other. -/
def ofList (es : List (Value × Value)) : Mapping := es.foldl (fun m e => put e.1 e.2 m) []

end Mapping

theorem Value.same_text (s t : String) : (Value.text s).same (.text t) = decide (s = t) := by
  simp [Value.same, Value.keyForm?]

end ListQuery
