import ListQuery.Number.Double
import ListQuery.Paging.Page
import ListQuery.Paging.Url
import ListQuery.Value.Kind

/-!
# Pages of rows

A page as it is delivered: the rows, where the page stands in the list, what was loaded for its
rows and the warnings. The number of pages is the ceiling of the quotient of total and page size,
computed in double precision.
-/

namespace ListQuery

open Number

/-- Related rows by the key of the row they belong to, keys in the order in which they came. -/
abbrev Grouped := List (Value × List Row)

/-- Related rows by include path. -/
abbrev Included := Entries Grouped

structure PageInfo where
  kind        : PagingKind
  currentPage : Option Int := none
  perPage     : Int
  total       : Option Int := none
  totalPages  : Option Int := none
  /-- The positions of the first and last row, counted from one. -/
  firstRow    : Option Int := none
  lastRow     : Option Int := none
  hasMore     : Bool := false
  prevPage    : Option Int := none
  nextPage    : Option Int := none
  /-- The cursor with which this page was asked for. -/
  prevCursor  : Option String := none
  nextCursor  : Option String := none
  firstUrl    : Option String := none
  lastUrl     : Option String := none
  prevUrl     : Option String := none
  nextUrl     : Option String := none
  path        : String := "/"

/-- A page of rows, or of anything else. -/
structure PageOf (α : Type) where
  data     : List α
  info     : PageInfo
  included : Included := []
  warnings : List String := []

/-- The number of pages. A quotient beyond the finite doubles is out of range. -/
def pageCount (total perPage : Int) : Except Failure Int :=
  if total = 0 then .ok 0
  else
    match Double.ofRatio (decide (total < 0)) total.natAbs perPage.natAbs with
    | .finite s m e _ => .ok (Double.ceiling s m e)
    | _               => .error .outOfRange

namespace PageInfo

/-- Where a numbered page of `count` rows stands in a list of `total` rows. -/
def ofNumber (number perPage total : Int) (count : Nat) : Except Failure PageInfo := do
  let pages ← pageCount total perPage
  let more := decide (number < pages)
  let skipped := (number - 1) * perPage
  let hasRows := decide (0 < total) && count != 0
  .ok
    { kind        := .offset
      currentPage := some number
      perPage
      total       := some total
      totalPages  := some pages
      firstRow    := if hasRows then some (skipped + 1) else none
      lastRow     := if hasRows then some (min (skipped + count) total) else none
      hasMore     := more
      prevPage    := if 1 < number then some (number - 1) else none
      nextPage    := if more then some (number + 1) else none
      firstUrl    := some (pageUrl "" [] 1 perPage)
      lastUrl     := some (pageUrl "" [] (max pages 1) perPage)
      prevUrl     := if 1 < number then some (pageUrl "" [] (number - 1) perPage) else none
      nextUrl     := if more then some (pageUrl "" [] (number + 1) perPage) else none }

/-- A cursor that is not there and an empty one name no page. -/
def nonEmpty? (token : Option String) : Option String := token.filter (· ≠ "")

/-- The names of those cursors that are neither text nor nothing. -/
def invalidCursors (token next : Value) : List String :=
  (if next.isOptionalText then [] else ["next_cursor"]) ++
    if token.isOptionalText then [] else ["prev_cursor"]

/-- Where a cursor page stands: only whether another one follows is known. -/
def ofTokens (token : Option String) (perPage : Int) (next : Option String) : PageInfo :=
  { kind       := .cursor
    perPage
    hasMore    := next.isSome
    prevCursor := token
    nextCursor := next
    nextUrl    := (nonEmpty? next).map fun tk => cursorUrl "" [] (.text tk) perPage }

/-- Where the page after a cursor stands, if its cursors are such. -/
def ofCursor (token : Value) (perPage : Int) (next : Value) : Except Failure PageInfo :=
  match invalidCursors token next with
  | []    => .ok (ofTokens token.text? perPage next.text?)
  | names => .error (.invalid names)

/-- The page with its URLs on another path, repeating the given parameters. -/
def rebase (info : PageInfo) (path : String) (query : QueryItems) : PageInfo :=
  match info.kind with
  | .offset =>
    let last := match info.totalPages with
      | some n => if n = 0 then 1 else n
      | none   => 1
    { info with
      path
      firstUrl := some (pageUrl path query 1 info.perPage)
      lastUrl  := some (pageUrl path query last info.perPage)
      prevUrl  := match info.prevPage with
        | some n => some (pageUrl path query n info.perPage)
        | none   => info.prevUrl
      nextUrl  := match info.nextPage with
        | some n => some (pageUrl path query n info.perPage)
        | none   => info.nextUrl }
  | .cursor =>
    { info with
      path
      nextUrl := match nonEmpty? info.nextCursor with
        | some tk => some (cursorUrl path query (.text tk) info.perPage)
        | none    => info.nextUrl
      prevUrl := match nonEmpty? info.prevCursor with
        | some tk => some (cursorUrl path query (.text tk) info.perPage)
        | none    => info.prevUrl }

/-- The fields by name, in order. -/
def entries (info : PageInfo) : Entries Value :=
  let int : Option Int → Value := .optional .int
  let text : Option String → Value := .optional .text
  [("pagination_type", .text info.kind.name), ("current_page", int info.currentPage),
    ("per_page", .int info.perPage), ("total", int info.total),
    ("total_pages", int info.totalPages), ("from", int info.firstRow), ("to", int info.lastRow),
    ("has_more_pages", .bool info.hasMore), ("prev_page", int info.prevPage),
    ("next_page", int info.nextPage), ("prev_cursor", text info.prevCursor),
    ("next_cursor", text info.nextCursor), ("first_page_url", text info.firstUrl),
    ("last_page_url", text info.lastUrl), ("prev_page_url", text info.prevUrl),
    ("next_page_url", text info.nextUrl), ("path", .text info.path)]

end PageInfo

namespace PageOf

variable {α : Type}

def ofNumber (number perPage total : Int) (data : List α) : Except Failure (PageOf α) := do
  .ok { data, info := ← PageInfo.ofNumber number perPage total data.length }

def ofCursor (token : Value) (perPage : Int) (data : List α) (next : Value) :
    Except Failure (PageOf α) := do
  .ok { data, info := ← PageInfo.ofCursor token perPage next }

/-- The page with its rows converted as a whole. -/
def mapData {β : Type} (f : List α → List β) (p : PageOf α) : PageOf β :=
  { data := f p.data, info := p.info, included := p.included, warnings := p.warnings }

/-- The page with its URLs on another path. -/
def withPath (p : PageOf α) (path : String) (query : QueryItems) : PageOf α :=
  { p with info := p.info.rebase path query }

end PageOf

end ListQuery
