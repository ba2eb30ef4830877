import ListQuery.Query.Basic

/-!
# Reports on queries

What a response says about the query it answers.
-/

namespace ListQuery

structure Meta where
  filters    : Int := 0
  sorts      : Int := 0
  includes   : Int := 0
  hasFields  : Bool := false
  fields     : Int := 0
  complexity : Int := 0
  apiVersion : String := "1.0"
  /-- A cursor page of selected fields only. -/
  optimized  : Bool := false
  warnings   : List Value := []

namespace Meta

def ofInfo (info : QueryInfo) (apiVersion : String) : Meta where
  filters    := info.filters
  sorts      := info.sorts
  includes   := info.includes
  hasFields  := info.hasFields
  fields     := info.fields
  complexity := info.complexity
  apiVersion := apiVersion
  optimized  := info.paging == some .cursor && info.hasFields

def warn (m : Meta) (message : String) : Meta :=
  { m with warnings := m.warnings ++ [.text message] }

/-- A warning when the query is more complex than the settings approve of. -/
def warnIfComplex (threshold : Int) (m : Meta) : Meta :=
  if threshold < m.complexity then
    m.warn ("Query complexity score " ++ Number.intText m.complexity ++ " exceeds " ++
      Number.intText threshold)
  else m

/-- The report by name. -/
def entries (m : Meta) : Entries Value :=
  [("filters_applied", .int m.filters), ("sorts_applied", .int m.sorts),
    ("includes_applied", .int m.includes), ("field_selection_used", .bool m.hasFields),
    ("fields_selected", .int m.fields), ("complexity_score", .int m.complexity),
    ("cache_status", .text "disabled"), ("api_version", .text m.apiVersion),
    ("optimized", .bool m.optimized), ("warnings", .list m.warnings)]

end Meta

end ListQuery
