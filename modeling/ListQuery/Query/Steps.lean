import ListQuery.Query.Acceptance
import ListQuery.Request.Params

/-!
# Steps

The ways in which a query grows. Each step gives a new query; what the entity does not allow changes
nothing. Numbers come as a request spells them.
-/

namespace ListQuery

open Text

namespace Query

variable (q : Query)

-- ---------------------------------------------------------------------------
-- Filters
-- ---------------------------------------------------------------------------

def addFilter (f : Filter) : Query := { q with filters := q.filters ++ [f] }

/-- The query with a filter, if that is accepted. -/
def filter (f : Filter) : Except Failure Query :=
  match q.accept f with
  | .ok accepted          => .ok (q.addFilter accepted)
  | .error (.dropped _)   => .ok q
  | .error (.failed fail) => .error fail

def filterAll (fs : List Filter) : Except Failure Query := fs.foldlM filter q

/-- An alternative with an operator as it is spelled; an unknown operator changes nothing. -/
def orWhere (field spelling : String) (raw : Value) : Except Failure Query :=
  match Operator.parse? spelling with
  | some op => q.filter ⟨field, op, .shape op raw, true⟩
  | none    => .ok q

/-- The query with a search term; a blank one ends the search. -/
def searchFor (term : Option String) : Query :=
  { q with search := (term.map trim).filter (· ≠ "") }

-- ---------------------------------------------------------------------------
-- Sorts
-- ---------------------------------------------------------------------------

def sort (s : SortKey) : Query :=
  if q.entity.allowsSort s.field then { q with sorts := q.sorts ++ [s] } else q

def sortAll (ss : List SortKey) : Query := ss.foldl sort q

-- ---------------------------------------------------------------------------
-- Includes and fields
-- ---------------------------------------------------------------------------

/-- The query with an include path, once. -/
def includePath (path : String) : Query :=
  if q.entity.allowsInclude path && !q.includes.contains path then
    { q with includes := q.includes ++ [path] }
  else q

/-- The query with the include paths as they are spelled. -/
def includeAll (spellings : List String) : Query :=
  spellings.foldl (fun q s => q.includePath (trim s)) q

/-- The query with the allowed ones of the fields, each once; without any it stays as it is. -/
def select (spellings : List String) : Query :=
  match distinct ((spellings.map trim).filter q.entity.allowsField) with
  | []     => q
  | chosen => { q with fields := some chosen }

/-- The names that a selection lists: the parts of a comma-separated text, or its members. -/
def namesOf (choice : Value) : Except Failure (List String) :=
  match choice with
  | .text s => .ok (split ',' s)
  | v       => do (← v.members).mapM Value.asText

/-- The selection by table; only that of the query's own table counts. -/
def selectByTable (choices : Mapping) : Except Failure Query :=
  match choices.get? (.text q.entity.table) with
  | none | some .null => .ok q
  | some choice       => (namesOf choice).map q.select

def append (key value : Value) : Query := { q with appends := q.appends.put key value }

-- ---------------------------------------------------------------------------
-- Pages
-- ---------------------------------------------------------------------------

def paginate (page : Option Page) : Query := { q with page }

/-- The page size asked for within the cap, or else the default one. -/
def sizeOf (perPage : Value) : Except Failure Int :=
  match perPage with
  | .null => .ok (q.clampPerPage q.settings.defaultPerPage)
  | v     => v.toInteger.map q.clampPerPage

/-- Pages by number. -/
def paginateByNumber (number perPage : Value) : Except Failure Query := do
  let size ← q.sizeOf perPage
  let n ← number.toInteger
  .ok (q.paginate (some (.ofNumber n size)))

/-- Pages by cursor. -/
def paginateByCursor (perPage token : Value) : Except Failure Query := do
  let size ← q.sizeOf perPage
  .ok (q.paginate (some (.ofCursor token size)))

def withPerPage (perPage : Value) : Except Failure Query :=
  perPage.toInteger.map fun n => q.paginate (some (.withPerPage q.page (q.clampPerPage n)))

def withNumber (number : Value) : Except Failure Query :=
  (Page.withNumber q.page number).map fun p => q.paginate (some p)

def withToken (token : Value) : Query := q.paginate (some (.withToken q.page token))

-- ---------------------------------------------------------------------------
-- Scopes, resets and defaults
-- ---------------------------------------------------------------------------

def withTrashed : Query := { q with scope := .withTrashed }

def onlyTrashed : Query := { q with scope := .onlyTrashed }

def clearFilters : Query := { q with filters := [] }

def clearSorts : Query := { q with sorts := [] }

def clearIncludes : Query := { q with includes := [] }

/-- The query as it began. -/
def reset : Query := { entity := q.entity, settings := q.settings }

/-- The entity's default sort, if there is one and nothing is sorted yet. -/
def applyDefaultSort : Query :=
  match q.sorts, q.entity.defaultSort with
  | [], some s => q.sort s
  | _,  _      => q

def applyDefaultFields : Query := { q with fields := some q.entity.defaultFields }

end Query

end ListQuery
