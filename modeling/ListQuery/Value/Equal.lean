import ListQuery.Failure
import ListQuery.Value.Mapping

/-!
# Equal values

Equality of values of any kind: lists are equal item by item, maps entry by entry in whatever order,
everything else as keys are. A number that signals cannot be compared with another number.
-/

namespace ListQuery.Value

def isNumber : Value → Bool
  | .bool _ | .int _ | .float _ | .decimal _ => true
  | _                                        => false

def isSignalling : Value → Bool
  | .decimal (.nan _ sig _) => sig
  | _                       => false

/-- Equality of values that are no lists or maps. -/
def equalScalars (v w : Value) : Except Failure Bool :=
  if (v.isSignalling && w.isNumber) || (v.isNumber && w.isSignalling) then .error .signalling
  else .ok (v.same w)

mutual

def equal : Value → Value → Except Failure Bool
  | .list vs, .list ws => if vs.length = ws.length then equalItems vs ws else .ok false
  | .map es,  .map fs  => if es.length = fs.length then equalEntries fs es else .ok false
  | v,        w        => equalScalars v w

def equalItems : List Value → List Value → Except Failure Bool
  | v :: vs, w :: ws => do if ← equal v w then equalItems vs ws else .ok false
  | _,       _       => .ok true

/-- Whether the entries are equal to those of the map under the same keys. -/
def equalEntries (fs : Mapping) : List (Value × Value) → Except Failure Bool
  | []           => .ok true
  | (k, v) :: es =>
    match Mapping.get? k fs with
    | none   => .ok false
    | some w => do if ← equal v w then equalEntries fs es else .ok false

end

end ListQuery.Value
