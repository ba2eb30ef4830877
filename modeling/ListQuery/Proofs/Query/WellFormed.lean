import ListQuery.Proofs.Include
import ListQuery.Proofs.Query.Acceptance
import ListQuery.Proofs.Query.Change
import ListQuery.Proofs.Request.Items

/-!
# What every query keeps

Compiling and running a query rely on what its steps have checked: names are whitelisted, filters
lead to a column where their operator fits, nothing is listed twice, the page is within its bounds.
All of it holds of a fresh query, and no change of a query breaks any of it.

* `WellFormed` — what a query keeps;
* `WellFormed.change` — one change;
* `Reachable.wellFormed` — every query that can be reached.
-/

namespace ListQuery

/-- The field of the filter leads into a document or to a column, where its operator fits. -/
inductive Entity.Places (e : Entity) (f : Filter) : Prop
  | inDocument {root path : String} {c : Column} (hfield : f.field = root ++ "." ++ path)
      (hroot : '.' ∉ root.toList) (hcolumn : e.column? root = some c)
      (hjson : c.type.isJson = true) (hoperator : f.operator.worksOnPath = true)
  | onColumn {c : Column} (hcolumn : e.column? f.field = some c)
      (hoperator : f.operator.category = .json → c.type.isJsonb = true)

theorem Entity.exists_root_of_jsonPath? {e : Entity} {field path : String} {c : Column}
    (h : e.jsonPath? field = some (c, path)) :
    ∃ root, field = root ++ "." ++ path ∧ '.' ∉ root.toList ∧ e.column? root = some c ∧
      c.type.isJson = true := by
  unfold jsonPath? at h
  split at h
  case h_2 => cases h
  case h_1 root rest hsplit =>
    obtain ⟨hfield, hroot⟩ := Text.cut?_eq_some.mp hsplit
    split at h
    case h_2 => cases h
    case h_1 c' hcolumn =>
      split at h
      case isFalse => cases h
      case isTrue hjson =>
        obtain ⟨rfl, rfl⟩ := Prod.mk.inj (Option.some.inj h)
        exact ⟨root, hfield, hroot, hcolumn, hjson⟩

namespace Query

theorem Fits.places {q : Query} {f : Filter} (h : q.Fits f) : q.entity.Places f := by
  cases h with
  | onPath hpath hoperator =>
    obtain ⟨root, hfield, hroot, hcolumn, hjson⟩ := Entity.exists_root_of_jsonPath? hpath
    exact .inDocument hfield hroot hcolumn hjson hoperator
  | onColumn hpath hcolumn hoperator => exact .onColumn hcolumn hoperator

/-- Some names of fields that the entity allows, each once. -/
structure IsSelection (e : Entity) (names : List String) : Prop where
  nonempty : names ≠ []
  nodup    : names.Nodup
  allowed  : ∀ name ∈ names, e.allowsField name = true

/-- What a query keeps, whatever steps it takes. -/
structure WellFormed (q : Query) : Prop where
  filters  : ∀ f ∈ q.filters, q.entity.allowsFilter f.field = true ∧ q.entity.Places f
  sorts    : ∀ s ∈ q.sorts, q.entity.allowsSort s.field = true
  includes : ∀ path ∈ q.includes, q.entity.allowsInclude path = true
  distinct : q.includes.Nodup
  fields   : q.fields = none ∨ q.fields = some q.entity.defaultFields ∨
    ∃ names, q.fields = some names ∧ IsSelection q.entity names
  scope    : ¬(q.isWithTrashed = true ∧ q.isOnlyTrashed = true)
  search   : ∀ term ∈ q.search, term ≠ "" ∧ Text.trim term = term
  page     : ∀ p ∈ q.page, p.IsBounded

theorem wellFormed_fresh (e : Entity) (s : Settings) :
    WellFormed { entity := e, settings := s } where
  filters  := List.forall_mem_nil _
  sorts    := List.forall_mem_nil _
  includes := List.forall_mem_nil _
  distinct := List.nodup_nil
  fields   := .inl rfl
  scope    := by simp [isWithTrashed]
  search   := by simp
  page     := by simp

-- ---------------------------------------------------------------------------
-- One change
-- ---------------------------------------------------------------------------

namespace WellFormed

variable {q : Query} (hq : q.WellFormed)

include hq

theorem addFilter {raw f : Filter} (h : q.accept raw = .ok f) : (q.addFilter f).WellFormed := by
  obtain ⟨hallowed, htaken⟩ := accept_eq_ok h
  rw [← htaken.field_eq] at hallowed
  exact { hq with
    filters := List.forall_mem_append.mpr
      ⟨hq.filters, List.forall_mem_singleton.mpr ⟨hallowed, htaken.fits.places⟩⟩ }

theorem sort (s : SortKey) : (q.sort s).WellFormed := by
  unfold Query.sort
  split
  case isFalse => exact hq
  case isTrue hallowed =>
    exact { hq with
      sorts := List.forall_mem_append.mpr ⟨hq.sorts, List.forall_mem_singleton.mpr hallowed⟩ }

theorem includePath (path : String) : (q.includePath path).WellFormed := by
  unfold Query.includePath
  split
  case isFalse => exact hq
  case isTrue h =>
    obtain ⟨hallowed, hnew⟩ : q.entity.allowsInclude path = true ∧ path ∉ q.includes := by
      simpa using h
    exact { hq with
      includes := List.forall_mem_append.mpr
        ⟨hq.includes, List.forall_mem_singleton.mpr hallowed⟩
      distinct := List.nodup_append'.mpr
        ⟨hq.distinct, List.nodup_singleton path, List.disjoint_singleton.mpr hnew⟩ }

theorem select (spellings : List String) : (q.select spellings).WellFormed := by
  unfold Query.select
  split
  case h_1 => exact hq
  case h_2 hnonempty =>
    refine { hq with fields := .inr (.inr ⟨_, rfl, hnonempty, nodup_distinct _, ?_⟩) }
    intro name hname
    exact (List.mem_filter.mp (mem_distinct.mp hname)).2

theorem searchFor (term : Option String) : (q.searchFor term).WellFormed := by
  refine { hq with search := ?_ }
  intro t ht
  obtain ⟨hterm, hnonempty⟩ := Option.mem_filter_iff.mp ht
  obtain ⟨spelled, -, rfl⟩ := Option.map_eq_some_iff.mp hterm
  exact ⟨of_decide_eq_true hnonempty, Text.trim_trim spelled⟩

theorem paginate {p : Page} (hp : p.IsBounded) : (q.paginate (some p)).WellFormed :=
  { hq with page := fun _ h => Option.some.inj h ▸ hp }

theorem effectivePage_isBounded : q.effectivePage.IsBounded := by
  unfold effectivePage
  split
  case h_1 p hp => exact hq.page p hp
  case h_2 =>
    split
    · exact Page.isBounded_ofNumber _ _
    · exact Page.isBounded_ofCursor _ _

end WellFormed

/-- No change breaks what a query keeps. -/
theorem WellFormed.change {q q' : Query} (hq : q.WellFormed) (h : Change q q') :
    q'.WellFormed := by
  cases h with
  | addFilter h => exact hq.addFilter h
  | searchFor term => exact hq.searchFor term
  | sort s => exact hq.sort s
  | includePath path => exact hq.includePath path
  | select spellings => exact hq.select spellings
  | append key value => exact { hq with }
  | paginate hp => exact hq.paginate hp
  | withTrashed => exact { hq with scope := by simp [Query.withTrashed, isOnlyTrashed] }
  | onlyTrashed => exact { hq with scope := by simp [Query.onlyTrashed, isWithTrashed] }
  | clearFilters => exact { hq with filters := List.forall_mem_nil _ }
  | clearSorts => exact { hq with sorts := List.forall_mem_nil _ }
  | clearIncludes =>
    exact { hq with includes := List.forall_mem_nil _, distinct := List.nodup_nil }
  | reset => exact wellFormed_fresh _ _
  | applyDefaultFields => exact { hq with fields := .inr (.inl rfl) }
  | rewarn warnings => exact { hq with }

-- ---------------------------------------------------------------------------
-- Every query
-- ---------------------------------------------------------------------------

/-- The query after some calls, one after the other. -/
def callAll (q : Query) (calls : List (String × List Value)) : Except Failure Query :=
  calls.foldlM (fun q c => q.call c.1 c.2) q

theorem Reachable.callAll {q q' : Query} {calls : List (String × List Value)} (hq : q.Reachable)
    (h : q.callAll calls = .ok q') : q'.Reachable :=
  of_foldlM_eq_ok (P := fun _ r => r.Reachable) (fun _ _ _ _ _ hdone hstep => hdone.call hstep) hq h

theorem Reachable.isWellFormed {q : Query} (h : q.Reachable) : q.WellFormed :=
  h.induction wellFormed_fresh fun _ _ hchange hq => hq.change hchange

end Query

-- ---------------------------------------------------------------------------
-- A query that was asked for too much
-- ---------------------------------------------------------------------------

/-- Books, whose details are documents. -/
def Entity.books : Entity where
  table            := "books"
  filterFields     := ["details.language", "title"]
  sortFields       := ["title"]
  selectFields     := ["id", "title"]
  includePaths     := ["shelf"]
  defaultSort      := none
  defaultSelection := none
  searchFields     := ["title"]
  primaryKey       := "id"
  softDelete       := some "deleted_at"
  types            := [("id", .integer), ("title", .string), ("details", .json)]
  relations        := []

/-- Calls with repetitions, blanks, names that are not allowed and numbers out of bounds. -/
def careless : List (String × List Value) :=
  [("where_eq", [.text "details.language", .text "en"]), ("where_eq", [.text "secret", .int 1]),
    ("or_where", [.text "details.language", .text "json_contains", .text "x"]),
    ("search", [.text " tea "]), ("sorts", [.list [.list [.text "secret"], .list [.text "title"]]]),
    ("with_", [.text "shelf", .text " shelf", .text "reader"]),
    ("select", [.list [.text " title ", .text "secret", .text "title"]]),
    ("with_trashed", []), ("only_trashed", []), ("page", [.int 0]), ("per_page", [.int 500])]

end ListQuery
