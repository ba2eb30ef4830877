import ListQuery.Failure
import ListQuery.Value.Mapping

/-!
# Values of an expected kind

What becomes of a value where a list, a text or a map is expected. A value that says nothing may
stand for a missing text or map; a value of another kind lacks the operation that was meant.
-/

namespace ListQuery.Value

/-- The members of a value that has some: of a list its items, of a text its characters, of a map
its keys. -/
def members : Value → Except Failure (List Value)
  | .list vs => .ok vs
  | .text s  => .ok (s.toList.map fun c => .text (String.singleton c))
  | .map es  => .ok (es.map (·.1))
  | _        => .error .wrongKind

def asText : Value → Except Failure String
  | .text s => .ok s
  | _       => .error .noOperation

/-- The text, if there is one that says something. -/
def asTextIfAny (v : Value) : Except Failure (Option String) :=
  if v.isVoid then .ok none else v.asText.map some

def asMapping : Value → Except Failure Mapping
  | .map es => .ok es
  | _       => .error .noOperation

/-- The text of a value that is one. -/
def text? : Value → Option String
  | .text s => some s
  | _       => none

theorem text?_optional (s : Option String) : (optional text s).text? = s := by
  cases s <;> rfl

/-- A text or nothing. -/
def isOptionalText : Value → Bool
  | .null | .text _ => true
  | _               => false

/-- The name by which a whitelist could know the value. Only a key can be looked up at all. -/
def listedName? (v : Value) : Except Failure (Option String) :=
  match v with
  | .text s => .ok (some s)
  | v       => if v.isKey then .ok none else .error .wrongKind

end ListQuery.Value
