import ListQuery.Condition.Keyset
import ListQuery.Condition.OfSearch
import ListQuery.EagerJoin

/-!
# Compiled queries

A query as statements: one for the rows and one for their number, with the conditions in common. A
cursor page is ordered by keys that end with the primary key if no other key is it, so that the
order is total; the keys are read with the rows even when they were not selected, and are hidden
from the result. One row more than the page holds is read, which tells whether another page follows.
-/

namespace ListQuery

open Sql

structure Compiled where
  select     : Statement
  count      : Statement
  page       : Page
  /-- The columns that order a cursor page. -/
  keyColumns : List String := []
  /-- Columns that are read but not delivered. -/
  hidden     : List String := []
  joins      : List (String × EagerJoin) := []
  warnings   : List String := []

namespace Query

variable (q : Query)

-- ---------------------------------------------------------------------------
-- Conditions
-- ---------------------------------------------------------------------------

/-- The conditions of some filters; one without a column has none. -/
def filterConditions (fs : List Filter) : Except Failure (List (Bool × Predicate)) :=
  (fs.mapM fun f => (q.entity.condition? f).map (·.map (f.alternative, ·))).map fun ps =>
    ps.filterMap id

/-- The rows that the scope leaves, on a table with soft deletion. -/
def scopeConditions : List Predicate :=
  match q.entity.softDelete with
  | none        => []
  | some column =>
    let deleted : Expr := .column (q.entity.columnNamed column)
    if column = "" then []
    else
      match q.scope with
      | .live        => [.isNull deleted false]
      | .onlyTrashed => [.isNull deleted true]
      | .withTrashed => []

/-- One condition of alternatives, or none without any. -/
def anyOf (ps : List Predicate) : List Predicate := if ps.isEmpty then [] else [.disj ps]

def searchConditions : Except Failure (List Predicate) :=
  match q.search with
  | none      => .ok []
  | some term => if term = "" then .ok [] else (q.entity.searchConditions term).map anyOf

/-- All that a row has to meet: every filter that is no alternative, one of the alternatives, the
scope and the search. -/
def conditions : Except Failure (List Predicate) := do
  let filtered ← q.filterConditions q.filters
  let required := (filtered.filter (!·.1)).map (·.2)
  let alternatives := (filtered.filter (·.1)).map (·.2)
  let searched ← q.searchConditions
  .ok ((required ++ anyOf alternatives ++ q.scopeConditions ++ searched).flatMap
    Predicate.conjuncts)

-- ---------------------------------------------------------------------------
-- Columns and order
-- ---------------------------------------------------------------------------

/-- The fields of a delivered row: the selected ones, or the default ones, that are columns. -/
def projectedFields : List String :=
  let chosen := match q.fields with
    | none | some [] => q.entity.defaultFields
    | some fs        => fs
  chosen.filter fun name => (q.entity.column? name).isSome

/-- The sorts, or the default sort, by columns of the entity. -/
def ordering : List SortKey :=
  let sorts := if q.sorts.isEmpty then q.entity.defaultSort.toList else q.sorts
  sorts.filter fun s => (q.entity.column? s.field).isSome

/-- The sorts, and the primary key unless it is one of them. -/
def withPrimaryKey (sorts : List SortKey) : List SortKey :=
  if (sorts.map (·.field)).contains q.entity.primaryKey then sorts
  else sorts ++ [⟨q.entity.primaryKey, .ascending⟩]

/-- The keys of a cursor page; a page by number has none. -/
def keysFor (paginate : Bool) : List SortKey :=
  if paginate && q.effectivePage.isCursor then q.withPrimaryKey q.ordering else []

/-- Columns that loading and the cursor need and that were not projected. -/
def hiddenFor (keys : List SortKey) : List String :=
  let required := (if q.includes.isEmpty then [] else [q.entity.primaryKey]) ++ keys.map (·.field)
  distinct (required.filter fun name => !q.projectedFields.contains name)

/-- The order of the rows. Keys other than the primary key put rows without a value last. -/
def orderBy (keys : List SortKey) : List OrderKey :=
  let sorts := if keys.isEmpty then q.ordering else keys
  sorts.map fun s =>
    { column := q.entity.columnNamed s.field, direction := s.direction,
      nullsLast := !keys.isEmpty && s.field != q.entity.primaryKey }

/-- The includes that are joined, with their joins. -/
def eagerJoins (schema : Schema) : List (String × EagerJoin) :=
  q.includes.filterMap fun path =>
    if q.entity.joinsEagerly path then
      (EagerJoin.ofRelation? schema q.entity path q.entity.table).map (path, ·)
    else none

-- ---------------------------------------------------------------------------
-- The statements
-- ---------------------------------------------------------------------------

def undecodable : String := "The cursor could not be decoded and was ignored"

/-- The rows after the cursor of the page; a cursor that cannot be read leaves a warning. -/
def cursorConditions (keys : List SortKey) (token : Value) :
    Except Failure (List Predicate × List String) :=
  if token.isVoid then .ok ([], [])
  else do
    match ← Keyset.ofCursor? q.entity keys token with
    | none        => .ok ([], [undecodable])
    | some values => .ok ([← Keyset.predicate q.entity keys values], [])

/-- The statements of the query. Without `paginate` all rows are read, whatever the page. -/
def compile (schema : Schema) (paginate : Bool) : Except Failure Compiled := do
  let e := q.entity
  let page := q.effectivePage
  let keys := q.keysFor paginate
  let hidden := q.hiddenFor keys
  let joins := q.eagerJoins schema
  let tables ← joins.mapM fun j => j.2.join e
  let conditions ← q.conditions
  let plain : List Output :=
    (q.projectedFields ++ hidden).map fun name => { column := e.columnNamed name }
  let rows : Statement :=
    { projection := .columns (plain ++ joins.flatMap fun j => j.2.outputs)
      table := ⟨e.table, none⟩, joins := tables, conditions, order := q.orderBy keys }
  let count : Statement := { projection := .count, table := ⟨e.table, none⟩, conditions }
  let compiled : Compiled :=
    { select := rows, count, page, keyColumns := keys.map (·.field), hidden, joins }
  if paginate then
    match page with
    | .offset _ n =>
      .ok { compiled with select := { rows with limit := some n, offset := page.skipped? } }
    | .cursor token n =>
      let (after, warnings) ← q.cursorConditions keys token
      let select := after.foldl Statement.restrict rows
      .ok { compiled with select := { select with limit := some (n + 1) }, warnings }
  else .ok compiled

end Query

end ListQuery
