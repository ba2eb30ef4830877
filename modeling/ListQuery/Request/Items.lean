import ListQuery.Number.Reading
import ListQuery.Text.LetterCase
import ListQuery.Text.Word
import ListQuery.Value.Basic

/-!
# Query string items

The parameters that the items of a query string spell. Filters are nested by field and operator,
`filter[age][gte]=3`; fields and appended values are keyed by a name in brackets. An item that
cannot be read leaves a warning and no other trace.
-/

namespace ListQuery

open Text Number

/-- What a request says about one field: an operand for each operator, or a bare operand. -/
inductive FieldFilter where
  | byOperator (operands : Entries Value)
  | bare (operand : Value)

/-- What is asked of a field, as a value. -/
def FieldFilter.toValue : FieldFilter → Value
  | .byOperator operands => .record operands
  | .bare operand        => operand

structure ItemParams where
  filter   : Entries FieldFilter := []
  sort     : Option String := none
  includes : Option String := none
  fields   : Entries String := []
  page     : Option Int := none
  perPage  : Option Int := none
  /-- The kind of page, as it is spelled. -/
  paging   : Option String := none
  cursor   : Option String := none
  append   : Entries String := []
  search   : Option String := none
  warnings : List String := []

namespace ItemParams

-- ---------------------------------------------------------------------------
-- Keys of items
-- ---------------------------------------------------------------------------

/-- The contents of brackets that follow each other to the end, where a line end may come last;
`inside` says whether a bracket is open. -/
def bracketChars? (inside : Bool) : List Char → Option (List (List Char))
  | []      => if inside then none else some []
  | c :: cs =>
    if inside then
      if c = ']' then (bracketChars? false cs).map ([] :: ·)
      else if c = '[' then none
      else (bracketChars? true cs).map (List.modifyHead (c :: ·))
    else if c = '[' then bracketChars? true cs
    else if c = '\n' ∧ cs = [] then some []
    else none

/-- A key as a name of word characters and the contents of the brackets after it. -/
def parseKey? (key : String) : Option (String × List String) :=
  let cs := key.toList
  let name := cs.takeWhile isWord
  if name = [] then none
  else (bracketChars? false (cs.dropWhile isWord)).map fun path =>
    (String.ofList name, path.map String.ofList)

-- ---------------------------------------------------------------------------
-- Adding one item
-- ---------------------------------------------------------------------------

/-- The value of a key that may come again: alone at first, then in a list. -/
def collect (existing : Option Value) (v : Value) : Value :=
  match existing with
  | none            => v
  | some (.list vs) => .list (vs ++ [v])
  | some w          => .list [w, v]

/-- A bare operand after what is there already. -/
def addBare (existing : Option FieldFilter) (v : String) : FieldFilter :=
  .bare (collect (existing.map FieldFilter.toValue) (.text v))

/-- An operand for an operator; a bare operand that is there already asks for equality. -/
def addOperand (existing : Option FieldFilter) (op v : String) : FieldFilter :=
  let operands : Entries Value := match existing with
    | none                  => []
    | some (.byOperator os) => os
    | some (.bare w)        => [("eq", w)]
  .byOperator (operands.put op (collect (operands.get? op) (.text v)))

def warn (p : ItemParams) (message : String) : ItemParams :=
  { p with warnings := p.warnings ++ [message] }

def unrecognised (key : String) : String :=
  "Unrecognised query parameter '" ++ key ++ "' was ignored"

def malformedFilter (key : String) : String :=
  "Malformed filter parameter '" ++ key ++ "' was ignored"

def addFilter (p : ItemParams) (key : String) (path : List String) (v : String) :
    ItemParams :=
  match path.map trim with
  | [field] =>
    if field = "" then p.warn (malformedFilter key)
    else { p with filter := p.filter.put field (addBare (p.filter.get? field) v) }
  | [field, op] =>
    if field = "" then p.warn (malformedFilter key)
    else { p with filter := p.filter.put field (addOperand (p.filter.get? field) op v) }
  | _ => p.warn (malformedFilter key)

/-- A list that may be given in several items. -/
def joined (existing : Option String) (v : String) : Option String :=
  some (match existing with
    | none   => v
    | some s => s ++ "," ++ v)

def addNumber (p : ItemParams) (name v : String) (put : Int → ItemParams) : ItemParams :=
  match readInteger (trim v) with
  | some n => put n
  | none   => p.warn ("Invalid " ++ name ++ " '" ++ v ++ "' was ignored")

def nonEmpty (v : String) : Option String := if v = "" then none else some v

/-- A parameter without brackets; unknown names are passed over. -/
def addPlain (p : ItemParams) (name v : String) : ItemParams :=
  if name = "sort" then { p with sort := joined p.sort v }
  else if name = "include" then { p with includes := joined p.includes v }
  else if name = "page" then p.addNumber name v fun n => { p with page := some n }
  else if name = "per_page" then p.addNumber name v fun n => { p with perPage := some n }
  else if name = "pagination_type" then
    let mode := lower (trim v)
    if mode = "cursor" ∨ mode = "offset" then { p with paging := some mode }
    else p.warn ("Unknown pagination_type '" ++ v ++ "' was ignored")
  else if name = "cursor" then { p with cursor := nonEmpty v }
  else if name = "search" then { p with search := nonEmpty v }
  else p

def addItem (p : ItemParams) (item : String × String) : ItemParams :=
  let (key, v) := item
  match parseKey? key with
  | none => p.warn (unrecognised key)
  | some (name, []) => p.addPlain name v
  | some (name, path) =>
    if name = "filter" then p.addFilter key path v
    else
      match path with
      | [inner] =>
        if name = "fields" then { p with fields := p.fields.put inner v }
        else if name = "append" then { p with append := p.append.put inner v }
        else p.warn (unrecognised key)
      | _ => p.warn (unrecognised key)

/-- The parameters of the items, one after the other. -/
def ofItems (items : List (String × String)) : ItemParams :=
  let p := items.foldl addItem {}
  { p with sort := p.sort.filter (· ≠ ""), includes := p.includes.filter (· ≠ "") }

end ItemParams

end ListQuery
