import ListQuery.Query.Steps

/-!
# Steps by name

The steps as they are called by name, with arguments of any kind. A call has to have as many
arguments as its step takes. What names a field is looked up in the whitelist as it is, so a value
that can be no name there changes nothing, unless it cannot be looked up at all.
-/

namespace ListQuery

open Text

/-- A step with its name and the least and the greatest number of its arguments, which may be
unbounded. -/
structure NamedStep where
  name  : String
  least : Nat
  most  : Option Nat
  run   : Query → List Value → Except Failure Query

namespace NamedStep

/-- Whether the step takes so many arguments. -/
def takes (step : NamedStep) (count : Nat) : Bool :=
  decide (step.least ≤ count) && step.most.all (decide <| count ≤ ·)

/-- An argument; one that was left out is nothing. -/
def argument (args : List Value) (i : Nat) : Value := args.getD i .null

/-- A step on a field that a whitelist could know. -/
def onField (q : Query) (field : Value) (step : String → Except Failure Query) :
    Except Failure Query := do
  match ← field.listedName? with
  | some name => step name
  | none      => .ok q

-- ---------------------------------------------------------------------------
-- Shapes of steps
-- ---------------------------------------------------------------------------

/-- A step without arguments. -/
def plain (name : String) (f : Query → Query) : NamedStep := ⟨name, 0, some 0, fun q _ => .ok (f q)⟩

/-- A step with one argument. -/
def unary (name : String) (f : Query → Value → Except Failure Query) : NamedStep :=
  ⟨name, 1, some 1, fun q args => f q (argument args 0)⟩

/-- A step with two arguments. -/
def binary (name : String) (f : Query → Value → Value → Except Failure Query) : NamedStep :=
  ⟨name, 2, some 2, fun q args => f q (argument args 0) (argument args 1)⟩

-- ---------------------------------------------------------------------------
-- Filters
-- ---------------------------------------------------------------------------

/-- The operators that have a step of their own. -/
def comparisons : List Operator :=
  [.eq, .ne, .gt, .gte, .lt, .lte, .like, .ilike, .contains, .startsWith, .endsWith]

def comparison (op : Operator) : NamedStep :=
  binary ("where_" ++ op.name) fun q field v =>
    onField q field fun name => q.filter (.compare op name v)

/-- A filter for one of several values, or for none of them. -/
def membership (name : String) (op : Operator) : NamedStep :=
  binary name fun q field v => do
    let vs ← v.members
    onField q field fun name => q.filter ⟨name, op, .multiple vs, false⟩

/-- A filter without an operand. -/
def nullTest (name : String) (op : Operator) : NamedStep :=
  unary name fun q field => onField q field fun name => q.filter (.compare op name .null)

def between : NamedStep where
  name  := "where_between"
  least := 3
  most  := some 3
  run q args :=
    onField q (argument args 0) fun name =>
      q.filter (.between name (argument args 1) (argument args 2))

def alternative : NamedStep where
  name  := "or_where"
  least := 2
  most  := some 3
  run q args := do
    let spelling ← (argument args 1).asText
    match Operator.parse? spelling with
    | none   => .ok q
    | some _ =>
      onField q (argument args 0) fun name => q.orWhere name spelling (argument args 2)

def search : NamedStep :=
  unary "search" fun q term => (term.asTextIfAny).map q.searchFor

def filterSteps : List NamedStep :=
  comparisons.map comparison ++
    [membership "where_in" .isIn, membership "where_not_in" .notIn, nullTest "where_null" .isNull,
      nullTest "where_not_null" .isNotNull, between, alternative, search]

-- ---------------------------------------------------------------------------
-- Sorts
-- ---------------------------------------------------------------------------

/-- A sort by a field, in a direction as it is spelled; ascending when none is given. -/
def sortBy (q : Query) (field : Value) (direction : Option Value) : Except Failure Query :=
  onField q field fun name =>
    if q.entity.allowsSort name then
      match direction with
      | none   => .ok (q.sort ⟨name, .ascending⟩)
      | some v => do .ok (q.sort ⟨name, .parse (← v.asText)⟩)
    else .ok q

/-- A field and the direction that may follow it. -/
def fieldAndDirection (item : Value) : Except Failure (Value × Option Value) := do
  match ← item.members with
  | [field]            => .ok (field, none)
  | [field, direction] => .ok (field, some direction)
  | _                  => .error .wrongKind

def sort : NamedStep where
  name  := "sort"
  least := 1
  most  := some 2
  run q args := sortBy q (argument args 0) args[1]?

def sorts : NamedStep :=
  unary "sorts" fun q items => do
    let keys ← (← items.members).mapM fieldAndDirection
    keys.foldlM (fun q key => sortBy q key.1 key.2) q

/-- A sort in a settled direction. -/
def order (name : String) (d : Direction) : NamedStep :=
  unary name fun q field => onField q field fun name => .ok (q.sort ⟨name, d⟩)

def sortSteps : List NamedStep :=
  [sort, sorts, order "order_by" .ascending, order "order_by_desc" .descending,
    unary "order_by_string" fun q list => list.asText.map fun s => q.sortAll (SortKey.parse s)]

-- ---------------------------------------------------------------------------
-- Includes and fields
-- ---------------------------------------------------------------------------

/-- The members of a value that are all texts. -/
def textMembers (v : Value) : Except Failure (List String) := do (← v.members).mapM Value.asText

/-- Includes as the arguments of one call, however many there are. -/
def includeArguments : NamedStep where
  name  := "with_"
  least := 0
  most  := none
  run q args := (args.mapM Value.asText).map q.includeAll

def projectionSteps : List NamedStep :=
  [unary "include" fun q path => path.asText.map fun s => q.includeAll [s],
    unary "includes" fun q paths => (textMembers paths).map q.includeAll,
    includeArguments,
    unary "select" fun q names => (textMembers names).map q.select,
    unary "fields" fun q choices => do q.selectByTable (← choices.asMapping),
    binary "append" fun q key v => if key.isKey then .ok (q.append key v) else .error .wrongKind]

-- ---------------------------------------------------------------------------
-- Pages, scopes, resets and defaults
-- ---------------------------------------------------------------------------

/-- Pages by number, the first one when none is given. -/
def numbered : NamedStep where
  name  := "offset_paginate"
  least := 0
  most  := some 2
  run q args := q.paginateByNumber (args.headD (.int 1)) (argument args 1)

def byCursor : NamedStep where
  name  := "cursor_paginate"
  least := 0
  most  := some 2
  run q args := q.paginateByCursor (argument args 0) (argument args 1)

def pageSteps : List NamedStep :=
  [numbered, byCursor, unary "per_page" fun q v => q.withPerPage v,
    unary "page" fun q v => q.withNumber v, unary "cursor" fun q v => .ok (q.withToken v)]

def plainSteps : List NamedStep :=
  [plain "with_trashed" (·.withTrashed), plain "only_trashed" (·.onlyTrashed),
    plain "clear_filters" (·.clearFilters), plain "clear_sorts" (·.clearSorts),
    plain "clear_includes" (·.clearIncludes), plain "reset" (·.reset), plain "clone" id,
    plain "apply_default_sort" (·.applyDefaultSort),
    plain "apply_default_fields" (·.applyDefaultFields)]

/-- All steps that can be called by name. -/
def all : List NamedStep := filterSteps ++ sortSteps ++ projectionSteps ++ pageSteps ++ plainSteps

end NamedStep

/-- The query after a call. -/
def Query.call (q : Query) (name : String) (args : List Value) : Except Failure Query :=
  match NamedStep.all.find? (·.name == name) with
  | none      => .error .missing
  | some step => if step.takes args.length then step.run q args else .error .wrongKind

end ListQuery
