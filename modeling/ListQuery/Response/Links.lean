import ListQuery.Paging.Result

/-!
# Links

The links of a response to other pages of the same list.
-/

namespace ListQuery

structure Link where
  href  : String
  title : String
  deriving DecidableEq

structure Links where
  self  : Link
  first : Option Link := none
  prev  : Option Link := none
  next  : Option Link := none
  last  : Option Link := none

namespace Link

def entries (l : Link) : Entries Value :=
  [("href", .text l.href), ("method", .text "GET"), ("type", .text "application/json"),
    ("title", .text l.title)]

end Link

namespace Links

/-- The links of a numbered page; of no pages at all the first one counts as the last. -/
def ofNumber (path : String) (page totalPages perPage : Int) (query : QueryItems) : Links :=
  let link (n : Int) (title : String) : Link := ⟨pageUrl path query n perPage, title⟩
  { self  := link page "Current page"
    first := some (link 1 "First page")
    prev  := if 1 < page then some (link (page - 1) "Previous page") else none
    next  := if page < totalPages then some (link (page + 1) "Next page") else none
    last  := some (link (max totalPages 1) "Last page") }

/-- The links of a cursor page, which only lead forward. -/
def ofCursor (path : String) (perPage : Int) (token next : Value) (query : QueryItems) : Links :=
  let link (tk : Value) (title : String) : Link := ⟨cursorUrl path query tk perPage, title⟩
  { self  := link token "Current page"
    first := some (link .null "First page")
    next  := if next.isVoid then none else some (link next "Next page") }

/-- The links of a page on a path. -/
def ofPage (path : String) (info : PageInfo) (query : QueryItems) : Links :=
  match info.kind with
  | .offset =>
    let page := match info.currentPage with
      | some n => if n = 0 then 1 else n
      | none   => 1
    ofNumber path page (info.totalPages.getD 0) info.perPage query
  | .cursor =>
    ofCursor path info.perPage (.optional .text info.prevCursor) (.optional .text info.nextCursor)
      query

/-- The links by name. -/
def entries (l : Links) : Entries Value :=
  let link : Option Link → Value := .optional fun l => .record l.entries
  [("self", .record l.self.entries), ("first", link l.first), ("prev", link l.prev),
    ("next", link l.next), ("last", link l.last), ("related", .map [])]

end Links

end ListQuery
