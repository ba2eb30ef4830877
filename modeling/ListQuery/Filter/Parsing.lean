import ListQuery.Filter.Basic

/-!
# Parsing filter parameters

Filter parameters by field: either a map with an operand for each operator, or a bare operand, which
means equality. The name of a field with a bare operand may also carry an operator in brackets, as
in `age[gte]`.

Fields and operators are texts. A key of another kind counts by its text where it only has to be
named, but a bare operand cannot stand under one.
-/

namespace ListQuery

open Text

/-- What filter parameters ask for: the filters in order, and a warning for each that has no
operator. -/
structure ParsedFilters where
  filters  : List Filter
  warnings : List String

namespace FilterParams

def isBracket (c : Char) : Bool := c == '[' || c == ']'

/-- Field and operator of a name such as `age[gte]`; a line end may follow the bracket. -/
def bracketed? (name : String) : Option (String × String) :=
  let cs := name.toList
  let field := cs.takeWhile (!isBracket ·)
  match cs.dropWhile (!isBracket ·) with
  | '[' :: rest =>
    let op := rest.takeWhile (!isBracket ·)
    match rest.dropWhile (!isBracket ·) with
    | [']'] | [']', '\n'] =>
      if field = [] ∨ op = [] then none else some (String.ofList field, String.ofList op)
    | _ => none
  | _ => none

def unknownOperator (op field : String) : String :=
  "Unknown filter operator '" ++ op ++ "' for field '" ++ field ++ "' was ignored"

/-- The filter for an operator as it is spelled, or the warning that there is no such operator. -/
def filterFor (field spelling : String) (operand : Value) : Except String Filter :=
  match Operator.parse? spelling with
  | some op => .ok ⟨field, op, .shape op operand, false⟩
  | none    => .error (unknownOperator spelling field)

/-- The filter of a bare operand under a name. -/
def bareFilter (name : String) (operand : Value) : Except String Filter :=
  match bracketed? name with
  | some (field, op) => filterFor field op operand
  | none             => .ok ⟨name, .eq, .shape .eq operand, false⟩

/-- The filters of one field. -/
def ofField (key raw : Value) : Except Failure (List (Except String Filter)) :=
  match raw with
  | .map operands => .ok (operands.map fun o => filterFor key.display o.1.display o.2)
  | operand       =>
    match key with
    | .text name => .ok [bareFilter name operand]
    | _          => .error .wrongKind

/-- All filters in order, and the warnings for those that were left out. -/
def parse (params : Mapping) : Except Failure ParsedFilters := do
  let results := (← params.mapM fun p => ofField p.1 p.2).flatten
  .ok
    { filters  := results.filterMap fun | .ok f => some f | .error _ => none
      warnings := results.filterMap fun | .ok _ => none | .error w => some w }

/-- Whether every filter has a field that is a text, so that it can be described to a client. -/
def areDescribable (params : Mapping) : Bool :=
  params.all fun p =>
    p.1.text?.isSome ||
      match p.2 with
      | .map operands => operands.all fun o => (Operator.parse? o.1.display).isNone
      | _             => false

end FilterParams

end ListQuery
