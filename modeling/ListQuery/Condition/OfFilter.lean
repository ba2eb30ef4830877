import ListQuery.Query.Acceptance
import ListQuery.Sql.Predicate

/-!
# Conditions of filters

The condition that a filter places on the rows. A date without a time of day stands for its whole
day on a column of timestamps; an operand that is nothing asks whether the column is; everything
else is compared as a bound value.
-/

namespace ListQuery

open Sql Calendar

namespace Column

variable (c : Column)

def bind (v : Value) : Bind := .ofValue c.type v

/-- An ordering has no meaning for nothing and for truth values. -/
def ordered (op : Comparison) (v : Value) : Except Failure Predicate :=
  match v with
  | .null | .bool _ => .error .badOperand
  | v               => .ok (.compare (.column c) op (c.bind v))

/-- Equal to a value that may be nothing, or not equal. -/
def equals (negated : Bool) (v : Value) : Predicate :=
  match v with
  | .null   => .isNull (.column c) negated
  | .bool b => .isTruth (.column c) negated b
  | v       => .compare (.column c) (if negated then .ne else .eq) (c.bind v)

def moment (op : Comparison) (t : Timestamp) : Predicate :=
  .compare (.column c) op (c.bind (.timestamp t))

/-- On the day that a value denotes, or equal to it. -/
def equalsDay (v : Value) : Except Failure Predicate := do
  match ← dayRange c.type v with
  | some (start, next) => .ok (.conj [c.moment .ge start, c.moment .lt next])
  | none               => .ok (c.equals false v)

/-- Outside the day that a value denotes, or not equal to it. -/
def differsFromDay (v : Value) : Except Failure Predicate := do
  match ← dayRange c.type v with
  | some (start, next) => .ok (.disj [c.moment .lt start, c.moment .ge next])
  | none               => .ok (c.equals true v)

/-- Above a value, or from the end of the day that it denotes. -/
def above (v : Value) : Except Failure Predicate := do
  match ← dayRange c.type v with
  | some (_, next) => .ok (c.moment .ge next)
  | none           => c.ordered .gt v

/-- Up to a value, or up to the end of the day that it denotes. -/
def upTo (v : Value) : Except Failure Predicate := do
  match ← dayRange c.type v with
  | some (_, next) => .ok (c.moment .lt next)
  | none           => c.ordered .le v

/-- Like a pattern, which is neither nothing nor a truth value. -/
def likePattern (caseless negated : Bool) (v : Value) : Except Failure Predicate :=
  match v with
  | .null | .bool _ => .error .badOperand
  | v               => .ok (.like (.column c) caseless negated (c.bind v))

/-- One of the values, or none of them. -/
def oneOf (negated : Bool) (vs : List Value) : Predicate :=
  match vs with
  | [] => .constant negated
  | vs => .member (.column c) negated (BindList.ofList c.type vs)

/-- A single operand compared as the operator says. -/
def compareWith (op : Operator) (v : Value) : Except Failure Predicate :=
  match op with
  | .eq         => c.equalsDay v
  | .ne         => c.differsFromDay v
  | .gt         => c.above v
  | .gte        => c.ordered .ge v
  | .lt         => c.ordered .lt v
  | .lte        => c.upTo v
  | .like       => c.likePattern false false v
  | .ilike      => c.likePattern true false v
  | .notLike    => c.likePattern false true v
  | .notIlike   => c.likePattern true true v
  | .contains   => .ok (.affix (.column c) .anywhere v.display)
  | .startsWith => .ok (.affix (.column c) .atStart v.display)
  | .endsWith   => .ok (.affix (.column c) .atEnd v.display)
  | .isNull     => .ok (.isNull (.column c) false)
  | .isNotNull  => .ok (.isNull (.column c) true)
  | _           => .ok (.fullText (.column c) (c.bind v))

/-- Between two bounds; an operand without two of them asks for any value at all. -/
def within (negated : Bool) (operand : Operand) : Predicate :=
  match operand with
  | .range low high => .between (.column c) negated (c.bind low) (c.bind high)
  | _               => .isNull (.column c) true

-- ---------------------------------------------------------------------------
-- JSON documents
-- ---------------------------------------------------------------------------

/-- The document of an operand: a text has to spell one. -/
def documentOf (v : Value) : Except Failure Value :=
  match v with
  | .text s => Json.read s.toList
  | v       => .ok v

/-- A test on a column of JSON documents in their binary form. -/
def testDocument (test : DocumentTest) (v : Bind) : Except Failure Predicate :=
  if c.type.isJsonb then .ok (.document (.column c) test v) else .error .noOperation

def documentCondition (op : Operator) (operand : Operand) : Except Failure Predicate :=
  match op with
  | .jsonHasAnyKey   => c.testDocument .hasAnyKey (c.bind (.list operand.values))
  | .jsonHasAllKeys  => c.testDocument .hasAllKeys (c.bind (.list operand.values))
  | .jsonHasKey      => c.testDocument .hasKey (c.bind operand.first)
  | .jsonContainedBy => do c.testDocument .containedBy ⟨← documentOf operand.first, .jsonb⟩
  | _                => do
    let v ← documentOf operand.first
    if c.type.isJsonb then .ok (.document (.column c) .contains ⟨v, .jsonb⟩)
    else .ok (.likeDocument (.column c) ⟨v, .jsonb⟩)

/-- The condition on the column itself. -/
def condition (op : Operator) (operand : Operand) : Except Failure Predicate :=
  match op.category, operand with
  | .equality, .multiple vs => .ok (c.oneOf (op == .ne) vs)
  | .set,      operand      => .ok (c.oneOf (op == .notIn) operand.values)
  | .json,     operand      => c.documentCondition op operand
  | .range,    operand      =>
    if op.takesRange then .ok (c.within (op == .notBetween) operand)
    else c.compareWith op operand.first
  | _,         operand      => c.compareWith op operand.first

-- ---------------------------------------------------------------------------
-- Paths inside documents
-- ---------------------------------------------------------------------------

/-- The text at a path is compared with the text of a value. -/
def pathText (path : List String) (op : Comparison) (v : Value) : Predicate :=
  .compare (.pathText c path) op ⟨.text v.display, .string⟩

/-- The number at a path is compared with the number of a value. -/
def pathNumber (path : List String) (op : Comparison) (v : Value) : Except Failure Predicate :=
  v.toDouble.map fun d => .compare (.pathNumber c path) op ⟨.float d, .float⟩

def pathOneOf (path : List String) (negated : Bool) (vs : List Value) : Predicate :=
  .member (.pathText c path) negated ⟨vs.map fun v => .text v.display, .string⟩

/-- The condition on what stands at a path inside the column's document. -/
def pathCondition (path : List String) (op : Operator) (operand : Operand) :
    Except Failure Predicate :=
  let v := operand.first
  match op with
  | .eq         => .ok (c.pathText path .eq v)
  | .ne         => .ok (c.pathText path .ne v)
  | .gt         => c.pathNumber path .gt v
  | .gte        => c.pathNumber path .ge v
  | .lt         => c.pathNumber path .lt v
  | .lte        => c.pathNumber path .le v
  | .isIn       => .ok (c.pathOneOf path false operand.values)
  | .notIn      => .ok (c.pathOneOf path true operand.values)
  | .contains   => .ok (.affix (.pathText c path) .anywhere v.display)
  | .startsWith => .ok (.affix (.pathText c path) .atStart v.display)
  | .endsWith   => .ok (.affix (.pathText c path) .atEnd v.display)
  | .isNull     => .ok (.isNull (.pathText c path) false)
  | .isNotNull  => .ok (.isNull (.pathText c path) true)
  | _           => .error (.noPathOperator op)

end Column

/-- The condition of a filter, if its field leads to a column. -/
def Entity.condition? (e : Entity) (f : Filter) : Except Failure (Option Predicate) :=
  match e.jsonPath? f.field with
  | some (c, path) => (c.pathCondition (segments path) f.operator f.operand).map some
  | none           =>
    match e.column? f.field with
    | some c => (c.condition f.operator f.operand).map some
    | none   => .ok none

end ListQuery
