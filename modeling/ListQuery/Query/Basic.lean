import ListQuery.Filter.Basic
import ListQuery.Paging.Page
import ListQuery.Schema.Entity
import ListQuery.Settings

/-!
# Queries

A query against one entity: the filters, sorts, includes and fields that were accepted so far, the
page asked for, and the warnings about what was not accepted. Nothing here refers to a statement
yet; `effectivePage` and `info` are what execution and reporting read off a query.
-/

namespace ListQuery

open Text Number

/-- Which rows of a table with soft deletion a query sees. -/
inductive Scope where
  | live
  | withTrashed
  | onlyTrashed
  deriving DecidableEq, Repr

structure Query where
  entity   : Entity
  settings : Settings := .standard
  filters  : List Filter := []
  sorts    : List SortKey := []
  includes : List String := []
  fields   : Option (List String) := none
  page     : Option Page := none
  appends  : Mapping := []
  scope    : Scope := .live
  search   : Option String := none
  warnings : List Value := []

/-- The size of a query, for reports on it. -/
structure QueryInfo where
  filters   : Int
  sorts     : Int
  includes  : Int
  hasFields : Bool
  fields    : Int
  paging    : Option PagingKind

namespace Query

variable (q : Query)

def warn (message : String) : Query := { q with warnings := q.warnings ++ [.text message] }

/-- Whether the query sees the rows that were deleted along with the others. -/
def isWithTrashed : Bool := q.scope == .withTrashed

/-- Whether the query sees nothing but the rows that were deleted. -/
def isOnlyTrashed : Bool := q.scope == .onlyTrashed

/-- A page size within the cap of the settings. -/
def clampPerPage (perPage : Int) : Int := Page.clampPerPage perPage q.settings.maxPerPage

/-- The page that is delivered: the one asked for, or the first of the default kind and size. -/
def effectivePage : Page :=
  match q.page with
  | some p => p
  | none   =>
    let perPage := q.clampPerPage q.settings.defaultPerPage
    match q.settings.defaultPaging with
    | .offset => .ofNumber 1 perPage
    | .cursor => .ofCursor .null perPage

def info : QueryInfo where
  filters   := q.filters.length
  sorts     := q.sorts.length
  includes  := q.includes.length
  hasFields := q.fields.isSome
  fields    := (q.fields.map (·.length)).getD 0
  paging    := q.page.map (·.kind)

/-- The query as a message shows it. -/
def shown : String :=
  "<QueryBuilder " ++ q.entity.table ++ " filters=" ++ natText q.filters.length ++
    " sorts=" ++ natText q.sorts.length ++ " includes=" ++ natText q.includes.length ++
    " pagination=" ++ Page.shown q.page ++ ">"

end Query

/-- A score from 0 to 100 for how much work a query asks for. -/
def QueryInfo.complexity (i : QueryInfo) : Int :=
  let paging : Int := match i.paging with
    | some .cursor => -5
    | some .offset => 5
    | none         => 0
  let score := 10 + min (i.filters * 5) 25 + min (i.sorts * 3) 15 + min (i.includes * 8) 30 +
    (if i.hasFields then -5 else 0) + paging
  max 0 (min score 100)

end ListQuery
