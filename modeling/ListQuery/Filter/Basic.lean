import ListQuery.Filter.Operator
import ListQuery.Text.Split
import ListQuery.Value.Kind

/-!
# Filters

A filter names a field, an operator and an operand; filters marked as alternatives form one group of
which any may hold. `Operand.shape` is how a raw value becomes the operand of an operator.
-/

namespace ListQuery

inductive Operand where
  | single (v : Value)
  | multiple (vs : List Value)
  | range (low high : Value)

namespace Operand

/-- The operand as a plain value. -/
def toValue : Operand → Value
  | single v       => v
  | multiple vs    => .list vs
  | range low high => .list [low, high]

/-- The one value that an operator with a single operand uses. -/
def first : Operand → Value
  | single v            => v
  | multiple []         => .null
  | multiple (v :: _)   => v
  | range low _         => low

/-- The values that an operator with a list of operands uses. -/
def values : Operand → List Value
  | single .null   => []
  | single v       => [v]
  | multiple vs    => vs
  | range low high => [low, high]

/-- Every value converted in its place, or the first failure. -/
def mapM {ε : Type} (f : Value → Except ε Value) : Operand → Except ε Operand
  | single v       => (f v).map single
  | multiple vs    => (vs.mapM f).map multiple
  | range low high => do
    let low ← f low
    let high ← f high
    .ok (range low high)

/-- The texts of a comma-separated list, as values. -/
def commaValues (s : String) : List Value := (Text.commaList s).map .text

/-- The operand of an operator from a raw value: a list where the operator takes several values,
two bounds where it takes a range, and otherwise the value itself, or all values of a repeated
one. -/
def shape (op : Operator) (raw : Value) : Operand :=
  if op.takesList then
    match raw with
    | .list vs => multiple vs
    | .text s  => multiple (commaValues s)
    | v        => single v
  else if op.takesRange then
    match raw with
    | .list vs => bounds vs
    | .text s  => bounds (commaValues s)
    | v        => single v
  else
    match raw with
    | .list vs => multiple vs
    | v        => single v
where
  bounds : List Value → Operand
    | low :: high :: _ => range low high
    | vs               => multiple vs

end Operand

structure Filter where
  field       : String
  operator    : Operator
  operand     : Operand
  /-- Whether the filter belongs to the group of which any may hold. -/
  alternative : Bool := false

namespace Filter

/-- A single value compared as the operator says. -/
def compare (op : Operator) (field : String) (v : Value) : Filter := ⟨field, op, .single v, false⟩

/-- One of the members of a value, or none of them. -/
def oneOf (op : Operator) (field : String) (v : Value) : Except Failure Filter :=
  v.members.map fun vs => ⟨field, op, .multiple vs, false⟩

def between (field : String) (low high : Value) : Filter :=
  ⟨field, .between, .range low high, false⟩

/-- The filter as a member of the group of alternatives. -/
def asAlternative (f : Filter) : Filter := { f with alternative := true }

end Filter

end ListQuery
