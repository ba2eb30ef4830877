import ListQuery.Codec.QueryString
import ListQuery.Value.Display

/-!
# Navigation URLs

The URL of another page of the same list: the request's own parameters, less those that choose the
page, then the ones that choose the new one.
-/

namespace ListQuery

/-- The items of a query string before their values are spelled out. -/
abbrev QueryItems := List (String × Value)

/-- The parameters that choose a page. -/
def navigationKeys : List String := ["page", "per_page", "cursor"]

/-- The items of the URL; a navigation value that is null is left out. -/
def navigationItems (query navigation : QueryItems) : QueryItems :=
  (query.filter fun p => !navigationKeys.contains p.1) ++ navigation.filter fun p => !p.2.isNull

def navigationUrl (path : String) (query navigation : QueryItems) : String :=
  path ++ "?" ++
    Codec.encodeQuery ((navigationItems query navigation).map fun p => (p.1, p.2.display))

/-- The URL of a numbered page. -/
def pageUrl (path : String) (query : QueryItems) (number perPage : Int) : String :=
  navigationUrl path query [("page", .int number), ("per_page", .int perPage)]

/-- The URL of the page after a cursor, or of the first page. -/
def cursorUrl (path : String) (query : QueryItems) (token : Value) (perPage : Int) : String :=
  navigationUrl path query [("cursor", token), ("per_page", .int perPage)]

end ListQuery
