import ListQuery.Filter.Parsing
import ListQuery.Query.Steps

/-!
# The query of a request

A request becomes a query: accepted parameters become steps, rejected ones leave warnings. Under
strict rules the request fails instead, with all rejections together; only an operand that cannot be
read, or a parameter of the wrong kind, fails it on the spot.
-/

namespace ListQuery

open Text

/-- A query under construction, and what was rejected on the way by parameter. -/
structure Draft where
  query      : Query
  rejections : Rejections := []

namespace Draft

variable (d : Draft)

/-- The draft after a step of its query. -/
def step (f : Query → Query) : Draft := { d with query := f d.query }

/-- A rejected parameter, with a warning. -/
def reject (parameter message : String) : Draft where
  query      := d.query.warn message
  rejections := d.rejections.put parameter ((d.rejections.get? parameter).getD [] ++ [message])

def addFilter (f : Filter) : Except Failure Draft :=
  match d.query.accept f with
  | .ok accepted             => .ok (d.step (·.addFilter accepted))
  | .error (.dropped reason) => .ok (d.reject ("filter[" ++ f.field ++ "]") reason)
  | .error (.failed fail)    => .error fail

/-- All filters, after the warnings that parsing them left. -/
def addFilters (params : Mapping) : Except Failure Draft := do
  let parsed ← FilterParams.parse params
  parsed.filters.foldlM addFilter (parsed.warnings.foldl (·.reject "filter" ·) d)

def addSort (s : SortKey) : Draft :=
  if d.query.entity.allowsSort s.field then d.step (·.sort s)
  else d.reject "sort" ("Sort on '" ++ s.field ++ "' is not allowed and was ignored")

def addInclude (path : String) : Draft :=
  if d.query.entity.allowsInclude path then d.step (·.includePath path)
  else d.reject "include" ("Include '" ++ path ++ "' is not allowed and was ignored")

def checkField (field : String) : Draft :=
  if d.query.entity.allowsField field then d
  else d.reject "fields" ("Field '" ++ field ++ "' is not allowed and was ignored")

/-- The fields that were asked for, if any were. -/
def addFields (choice : Value) : Except Failure Draft :=
  if choice.isVoid then .ok d
  else
    (Query.namesOf choice).map fun names =>
      let names := RequestParams.trimmedNames names
      (names.foldl checkField d).step (·.select names)

/-- The search term, if there is one. -/
def addSearch (term : Value) : Except Failure Draft :=
  term.asTextIfAny.map fun
    | some t => d.step (·.searchFor (some t))
    | none   => d

def addAppends (es : Mapping) : Draft :=
  d.step fun q => es.foldl (fun q a => q.append a.1 a.2) q

/-- The kind of page: as asked for, else by which of cursor and number is given, else the default
one. -/
def pagingOf (settings : Settings) (p : RequestParams) : PagingKind :=
  match p.paging with
  | .text name => if name = PagingKind.offset.name then .offset else .cursor
  | .null      =>
    if !p.cursor.isNull then .cursor
    else if !p.page.isNull then .offset
    else settings.defaultPaging
  | _          => .cursor

/-- The page; a number that says nothing asks for the first one. -/
def addPage (p : RequestParams) : Except Failure Draft :=
  let q := d.query
  let paged := match pagingOf q.settings p with
    | .offset => q.paginateByNumber (if p.page.isVoid then .int 1 else p.page) p.perPage
    | .cursor => q.paginateByCursor p.perPage p.cursor
  paged.map fun query => { d with query }

end Draft

namespace Query

/-- The draft that a request leads to. -/
def draft (entity : Entity) (settings : Settings) (p : RequestParams) : Except Failure Draft := do
  let warnings ← if p.warnings.isVoid then .ok [] else p.warnings.members
  let d : Draft := { query := { entity, settings, warnings } }
  let d ← d.addFilters (← p.filter.asMapping)
  let d := (← p.sortKeys).foldl .addSort d
  let d := (← p.includePaths).foldl .addInclude d
  let d ← d.addFields (← p.fieldChoice entity.table)
  let d ← d.addSearch p.search
  let d := d.addAppends (← p.append.asMapping)
  d.addPage p

/-- The query of a request. -/
def ofRequest (entity : Entity) (settings : Settings) (p : RequestParams) :
    Except Failure Query := do
  let d ← draft entity settings p
  if settings.strict && !d.rejections.isEmpty then .error (.rejected d.rejections) else .ok d.query

/-- The query of a request whose rejection is answered to the client. -/
def ofClientRequest (entity : Entity) (settings : Settings) (p : RequestParams) :
    Except Failure Query :=
  match ofRequest entity settings p with
  | .error (.rejected errors) => .error (.badRequest errors)
  | result                    => result

end Query

end ListQuery
