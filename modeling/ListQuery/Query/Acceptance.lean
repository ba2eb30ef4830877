import ListQuery.Json.Reader
import ListQuery.Query.Basic
import ListQuery.Schema.Coercion

/-!
# Accepting filters

A filter is accepted when its field is whitelisted and names a column, or a path into a column of
JSON documents, and its operator fits there. Operands that are compared as values of the column are
converted to its type; what happens to those that cannot be is for the settings to say.
-/

namespace ListQuery

/-- Why a filter is not accepted. -/
inductive Refusal where
  /-- It is left out, for the reason given. -/
  | dropped (reason : String)
  /-- The whole request fails. -/
  | failed (failure : Failure)

/-- Operators whose operands are converted to the type of the column. -/
def Category.comparesValues : Category → Bool
  | .equality | .range | .set => true
  | _                         => false

namespace Filter

def notAllowed (f : Filter) : String :=
  "Filter on '" ++ f.field ++ "' is not allowed and was ignored"

def noColumn (f : Filter) : String :=
  "Filter on '" ++ f.field ++ "' does not match a column and was ignored"

def notOnPath (f : Filter) : String :=
  "Operator '" ++ f.operator.name ++ "' is not supported on '" ++ f.field ++ "'"

def needsJsonb (f : Filter) : String :=
  "Operator '" ++ f.operator.name ++ "' needs a JSONB column, '" ++ f.field ++ "' is not one"

def malformedValue (f : Filter) (raw : Value) : String :=
  "Malformed value " ++ raw.shown ++ " for '" ++ f.field ++ "'"

def malformedDocument (f : Filter) (raw : Value) : String :=
  "Malformed JSON document " ++ raw.shown ++ " for '" ++ f.field ++ "'"

end Filter

/-- The column of JSON documents that a dotted field leads into, and the path inside it. -/
def Entity.jsonPath? (e : Entity) (field : String) : Option (Column × String) :=
  match splitPath? field with
  | some (root, path) =>
    match e.column? root with
    | some c => if c.type.isJson then some (c, path) else none
    | none   => none
  | none => none

namespace Query

variable (q : Query)

/-- A refusal that leaves the filter out. -/
def ignored (message : String) : Refusal := .dropped (message ++ ", filter ignored")

/-- One operand in the type, or what the settings put in its place. -/
def convertOperand (f : Filter) (t : ColumnType) (raw : Value) : Except Refusal Value :=
  match coerce t raw with
  | .ok v => .ok v
  | .error failure =>
    if failure.isReading then
      let message := f.malformedValue raw
      match q.settings.malformedPolicy, zero? t with
      | .reject,     _         => .error (.failed (.reject f.field message))
      | .drop,       _         => .error (ignored message)
      | .substitute, none      => .error (ignored message)
      | .substitute, some zero => .ok zero
    else .error (.failed failure)

/-- The filter with its operands in the type. -/
def convert (f : Filter) (t : ColumnType) : Except Refusal Filter :=
  (f.operand.mapM (q.convertOperand f t)).map fun operand => { f with operand }

/-- A text operand has to be a JSON document. -/
def checkDocument (f : Filter) (raw : Value) : Except Refusal Value :=
  match raw with
  | .text s =>
    match Json.read s.toList with
    | .ok _           => .ok raw
    | .error .tooDeep => .error (.failed .tooDeep)
    | .error _        =>
      let message := f.malformedDocument raw
      .error (if q.settings.strict then .failed (.reject f.field message) else ignored message)
  | _ => .ok raw

def checkDocuments (f : Filter) : Except Refusal Filter :=
  (f.operand.mapM (q.checkDocument f)).map fun _ => f

/-- The filter on a path inside a document. -/
def acceptOnPath (f : Filter) : Except Refusal Filter :=
  if f.operator.worksOnPath then
    if f.operator.isOrdering then q.convert f .float else .ok f
  else .error (.dropped f.notOnPath)

/-- The filter on a column. -/
def acceptOnColumn (f : Filter) (c : Column) : Except Refusal Filter :=
  if f.operator.category = .json ∧ !c.type.isJsonb then .error (.dropped f.needsJsonb)
  else if f.operator.takesDocument then q.checkDocuments f
  else if f.operator.category.comparesValues then q.convert f c.type
  else .ok f

/-- The filter as the query takes it, or why it does not. -/
def accept (f : Filter) : Except Refusal Filter :=
  if q.entity.allowsFilter f.field then
    match q.entity.jsonPath? f.field with
    | some _ => q.acceptOnPath f
    | none   =>
      match q.entity.column? f.field with
      | some c => q.acceptOnColumn f c
      | none   => .error (.dropped f.noColumn)
  else .error (.dropped f.notAllowed)

end Query

end ListQuery
