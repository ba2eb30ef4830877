import ListQuery.Include
import ListQuery.Paging.Url
import ListQuery.Request.Items
import ListQuery.SortKey
import ListQuery.Value.Kind

/-!
# Request parameters

The parameters of a list request as they arrive, before any of them is checked against an entity.
They come from the items of a query string, in which case each has a kind of its own, or by keyword,
in which case they are values of any kind, and a parameter of the wrong kind fails where it is used.
`toItems` writes those that do not choose the page as the items of a query string.
-/

namespace ListQuery

open Text

/-- Parameters by name. Nothing stands for one that is missing. -/
structure RequestParams where
  filter   : Value := .map []
  sort     : Value := .null
  includes : Value := .null
  fields   : Value := .map []
  page     : Value := .null
  perPage  : Value := .null
  /-- The kind of page, as it is spelled. -/
  paging   : Value := .null
  cursor   : Value := .null
  append   : Value := .map []
  search   : Value := .null
  warnings : Value := .list []

/-- The parameters that items spell, as values. -/
def ItemParams.toRequest (p : ItemParams) : RequestParams where
  filter   := .record (p.filter.map fun f => (f.1, f.2.toValue))
  sort     := .optional .text p.sort
  includes := .optional .text p.includes
  fields   := .record (p.fields.map fun f => (f.1, .text f.2))
  page     := .optional .int p.page
  perPage  := .optional .int p.perPage
  paging   := .optional .text p.paging
  cursor   := .optional .text p.cursor
  append   := .record (p.append.map fun a => (a.1, .text a.2))
  search   := .optional .text p.search
  warnings := .list (p.warnings.map .text)

namespace RequestParams

/-- The parameters of a query string. -/
def ofItems (items : List (String × String)) : RequestParams := (ItemParams.ofItems items).toRequest

-- ---------------------------------------------------------------------------
-- Parameters by keyword
-- ---------------------------------------------------------------------------

/-- One parameter set; there are no others. -/
def set (p : RequestParams) (keyword : String × Value) : Except Failure RequestParams :=
  let (name, v) := keyword
  let orElse (empty : Value) : Value := if v.isVoid then empty else v
  match name with
  | "filter"          => .ok { p with filter := orElse (.map []) }
  | "sort"            => .ok { p with sort := v }
  | "include"         => .ok { p with includes := v }
  | "fields"          => .ok { p with fields := orElse (.map []) }
  | "page"            => .ok { p with page := v }
  | "per_page"        => .ok { p with perPage := v }
  | "pagination_type" => .ok { p with paging := v }
  | "cursor"          => .ok { p with cursor := v }
  | "append"          => .ok { p with append := orElse (.map []) }
  | "search"          => .ok { p with search := v }
  | "warnings"        => .ok { p with warnings := orElse (.list []) }
  | _                 => .error .wrongKind

/-- The parameters that are given by keyword. -/
def ofKeywords (keywords : Entries Value) : Except Failure RequestParams :=
  keywords.foldlM set {}

-- ---------------------------------------------------------------------------
-- Writing the parameters
-- ---------------------------------------------------------------------------

/-- A parameter that says nothing is left out. -/
def plainItem (name : String) (v : Value) : QueryItems := if v.isVoid then [] else [(name, v)]

/-- An item for every value of a list, or the one item of any other value. -/
def operandItems (key : String) : Value → QueryItems
  | .list vs => vs.map (key, ·)
  | v        => [(key, v)]

def filterItems (entry : Value × Value) : QueryItems :=
  let key := "filter[" ++ entry.1.display ++ "]"
  match entry.2 with
  | .map operands => operands.flatMap fun o => operandItems (key ++ "[" ++ o.1.display ++ "]") o.2
  | operand       => operandItems key operand

def keyedItems (name : String) (es : Mapping) : QueryItems :=
  es.map fun e => (name ++ "[" ++ e.1.display ++ "]", e.2)

/-- The items of all parameters but those that choose a page. -/
def toItems (p : RequestParams) : Except Failure QueryItems := do
  let filters ← p.filter.asMapping
  let fields ← p.fields.asMapping
  let appended ← p.append.asMapping
  .ok
    (filters.flatMap filterItems ++
      plainItem "sort" p.sort ++ plainItem "include" p.includes ++
      plainItem "pagination_type" p.paging ++ plainItem "search" p.search ++
      keyedItems "fields" fields ++ keyedItems "append" appended)

/-- The parameters by name. -/
def entries (p : RequestParams) : Entries Value :=
  [("filter", p.filter), ("sort", p.sort), ("include", p.includes), ("fields", p.fields),
    ("page", p.page), ("per_page", p.perPage), ("pagination_type", p.paging),
    ("cursor", p.cursor), ("append", p.append), ("search", p.search)]

/-- The parameters as a message shows them. -/
def shown (p : RequestParams) : String :=
  "QueryParams(" ++ (Value.record p.entries).shown ++ ")"

-- ---------------------------------------------------------------------------
-- Reading the parameters
-- ---------------------------------------------------------------------------

def sortKeys (p : RequestParams) : Except Failure (List SortKey) := do
  .ok ((← p.sort.asTextIfAny).map SortKey.parse |>.getD [])

def includePaths (p : RequestParams) : Except Failure (List String) := do
  .ok ((← p.includes.asTextIfAny).map parseIncludes |>.getD [])

/-- The trimmed names of a selection that are not blank. -/
def trimmedNames (names : List String) : List String := (names.map trim).filter (· ≠ "")

/-- What is said about the fields of a table. -/
def fieldChoice (p : RequestParams) (table : String) : Except Failure Value := do
  .ok (((← p.fields.asMapping).get? (.text table)).getD .null)

/-- The fields asked for of a table as a comma-separated list, if any are. -/
def fieldsOf (p : RequestParams) (table : String) : Except Failure (Option (List String)) := do
  let choice ← p.fieldChoice table
  .ok ((← choice.asTextIfAny).map fun s => trimmedNames (split ',' s))

end RequestParams

end ListQuery
