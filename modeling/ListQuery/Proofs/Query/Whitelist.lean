import ListQuery.Proofs.Include
import ListQuery.Proofs.Query.Draft
import ListQuery.Proofs.Request.Keys

/-!
# What the whitelists leave out

A request of a query string may name anything; what is not on the whitelists of the entity has no
trace in the query but warnings, nor in the statements. To say so, the names are taken out of the
parameters beforehand, and both requests are compared.

* `filterAll_filter`, `sortAll_filter`, `foldl_includePath_filter`, `select_filter` — steps that do
  nothing;
* `ItemParams.onlyAllowed` — the parameters without the names that are not allowed;
* `ofRequest_onlyAllowed` — the two queries, and what they compile to.
-/

namespace ListQuery

open Text

-- ---------------------------------------------------------------------------
-- Steps that do nothing
-- ---------------------------------------------------------------------------

namespace Query

variable {q q' : Query}

theorem entity_filter {f : Filter} (h : q.filter f = .ok q') : q'.entity = q.entity := by
  unfold filter at h
  split at h
  · obtain rfl := Except.ok.inj h
    rfl
  · obtain rfl := Except.ok.inj h
    rfl
  · cases h

theorem entity_filterAll {fs : List Filter} (h : q.filterAll fs = .ok q') :
    q'.entity = q.entity :=
  of_foldlM_eq_ok (P := fun _ r => r.entity = q.entity)
    (fun _ _ _ _ _ hdone hstep => (entity_filter hstep).trans hdone) rfl h

theorem entity_sort (q : Query) (s : SortKey) : (q.sort s).entity = q.entity := by
  unfold sort
  split <;> rfl

theorem entity_sortAll (q : Query) (ss : List SortKey) : (q.sortAll ss).entity = q.entity := by
  unfold sortAll
  induction ss generalizing q with
  | nil => rfl
  | cons s ss ih => exact (ih (q.sort s)).trans (q.entity_sort s)

theorem entity_foldl_includePath (q : Query) (paths : List String) :
    (paths.foldl includePath q).entity = q.entity := by
  induction paths generalizing q with
  | nil => rfl
  | cons path paths ih => exact (ih (q.includePath path)).trans (q.entity_includePath path)

/-- Filters on other fields than the whitelisted ones do nothing. -/
theorem filterAll_filter {e : Entity} (he : q.entity = e) (fs : List Filter) :
    q.filterAll (fs.filter fun f => e.allowsFilter f.field) = q.filterAll fs := by
  induction fs generalizing q with
  | nil => rfl
  | cons f fs ih =>
    have hcons : ∀ gs : List Filter, q.filterAll (f :: gs) = q.filter f >>= (·.filterAll gs) :=
      fun _ => rfl
    rw [List.filter_cons, hcons]
    cases hf : e.allowsFilter f.field with
    | false =>
      rw [filter_of_not_allowed (he ▸ hf)]
      exact ih he
    | true =>
      show q.filterAll (f :: fs.filter _) = _
      rw [hcons]
      cases hq : q.filter f with
      | error fail => rfl
      | ok q₁ => exact ih ((entity_filter hq).trans he)

/-- Sorts by other fields than the whitelisted ones do nothing. -/
theorem sortAll_filter {e : Entity} (he : q.entity = e) (ss : List SortKey) :
    q.sortAll (ss.filter fun s => e.allowsSort s.field) = q.sortAll ss := by
  unfold sortAll
  induction ss generalizing q with
  | nil => rfl
  | cons s ss ih =>
    rw [List.filter_cons, List.foldl_cons]
    cases hs : e.allowsSort s.field with
    | false =>
      rw [sort_of_not_allowed (he ▸ hs)]
      exact ih he
    | true => exact ih ((q.entity_sort s).trans he)

/-- Includes that are not whitelisted do nothing. -/
theorem foldl_includePath_filter {e : Entity} (he : q.entity = e) (paths : List String) :
    (paths.filter e.allowsInclude).foldl includePath q = paths.foldl includePath q := by
  induction paths generalizing q with
  | nil => rfl
  | cons path paths ih =>
    rw [List.filter_cons, List.foldl_cons]
    cases hpath : e.allowsInclude path with
    | false =>
      rw [includePath_of_not_allowed (he ▸ hpath)]
      exact ih he
    | true => exact ih ((q.entity_includePath path).trans he)

/-- Fields that are not whitelisted are not selected. -/
theorem select_filter {e : Entity} (he : q.entity = e) (names : List String) :
    q.select (names.filter fun name => e.allowsField (trim name)) = q.select names := by
  have hchosen : ((names.filter fun name => e.allowsField (trim name)).map trim).filter
      e.allowsField = (names.map trim).filter e.allowsField := by
    rw [List.filter_map, List.filter_map, List.filter_filter]
    simp only [Function.comp_apply, Bool.and_self]
    rfl
  unfold select
  rw [he, hchosen]

end Query

-- ---------------------------------------------------------------------------
-- Parameters without the names that are not allowed
-- ---------------------------------------------------------------------------

namespace RequestParams

/-- The name of a field in a list, if it is not blank. -/
def fieldName? (entry : String) : Option String :=
  if trim entry = "" then none else some (trim entry)

theorem trimmedNames_eq (names : List String) : trimmedNames names = names.filterMap fieldName? := by
  induction names with
  | nil => rfl
  | cons name names ih =>
    unfold trimmedNames at ih ⊢
    rw [List.map_cons, List.filter_cons]
    by_cases h : trim name = ""
    · have hnone : fieldName? name = none := if_pos h
      rw [List.filterMap_cons_none hnone, ← ih, if_neg]
      exact fun hne => of_decide_eq_true hne h
    · have hsome : fieldName? name = some (trim name) := if_neg h
      rw [List.filterMap_cons_some hsome, ← ih, if_pos (decide_eq_true h)]

theorem trim_of_mem_trimmedNames {names : List String} {name : String}
    (h : name ∈ trimmedNames names) : trim name = name := by
  obtain ⟨entry, -, rfl⟩ := List.mem_map.mp (List.mem_filter.mp h).1
  exact trim_trim entry

end RequestParams

namespace ItemParams

open RequestParams

/-- Whether a piece of a list names nothing that the entity does not let rows be sorted by. -/
def keepsSort (e : Entity) (entry : String) : Bool :=
  Option.all (fun s => e.allowsSort s.field) <| SortKey.ofEntry? entry

def keepsInclude (e : Entity) (entry : String) : Bool :=
  Option.all e.allowsInclude <| pathOfEntry? entry

def keepsField (e : Entity) (entry : String) : Bool := (fieldName? entry).all e.allowsField

/-- The parameters without filters, sorts, includes and fields of the entity's own table that the
entity does not allow. -/
def onlyAllowed (e : Entity) (p : ItemParams) : ItemParams :=
  { p with
    filter   := p.filter.filter fun f => e.allowsFilter f.1
    sort     := p.sort.map (keepPieces (keepsSort e))
    includes := p.includes.map (keepPieces (keepsInclude e))
    fields   := p.fields.map fun f =>
      if f.1 = e.table then (f.1, keepPieces (keepsField e) f.2) else f }

variable (e : Entity) (p : ItemParams)

/-- The filters that the parameters ask for. -/
def filters : List Filter := FilterParams.filtersOf (p.filter.map fun f => (f.1, f.2.toValue))

theorem parse_filter : ∃ warnings,
    FilterParams.parse ((p.filter.map fun f => (f.1, f.2.toValue)).map fun e => (.text e.1, e.2)) =
      .ok ⟨p.filters, warnings⟩ :=
  FilterParams.parse_record _

theorem filters_onlyAllowed (h : p.HasPlainFields) :
    (p.onlyAllowed e).filters = p.filters.filter fun f => e.allowsFilter f.field := by
  have hkeys : ∀ name ∈ Entries.keys (p.filter.map fun f => (f.1, f.2.toValue)),
      FilterParams.IsPlain name := by
    rw [Entries.keys_map]
    exact h
  unfold filters
  rw [← FilterParams.filtersOf_filter hkeys, List.filter_map]
  rfl

/-- The sorts that the parameters ask for. -/
def sortList : List SortKey := (p.sort.map SortKey.parse).getD []

theorem sortList_onlyAllowed :
    (p.onlyAllowed e).sortList = p.sortList.filter fun s => e.allowsSort s.field := by
  unfold sortList onlyAllowed
  cases p.sort with
  | none => rfl
  | some list =>
    have hparse : SortKey.parse (keepPieces (keepsSort e) list) =
        (SortKey.parse list).filter fun s => e.allowsSort s.field := by
      unfold SortKey.parse
      rw [filterMap_split_keepPieces rfl]
      exact filterMap_filter_all _ _ _
    simpa only [Option.map_some, Option.getD_some] using hparse

/-- The paths that the parameters ask for. -/
def includeList : List String := (p.includes.map parseIncludes).getD []

theorem includeList_onlyAllowed :
    (p.onlyAllowed e).includeList = p.includeList.filter e.allowsInclude := by
  unfold includeList onlyAllowed
  cases p.includes with
  | none => rfl
  | some list =>
    have hparse : parseIncludes (keepPieces (keepsInclude e) list) =
        (parseIncludes list).filter e.allowsInclude := by
      unfold parseIncludes
      rw [filterMap_split_keepPieces rfl, ← distinct_filter]
      exact congrArg distinct (filterMap_filter_all _ _ _)
    simpa only [Option.map_some, Option.getD_some] using hparse

/-- The fields that the parameters ask for of a table. -/
def fieldList (table : String) : List String :=
  ((p.fields.get? table).map fun list => trimmedNames (split ',' list)).getD []

theorem fieldList_onlyAllowed :
    (p.onlyAllowed e).fieldList e.table =
      (p.fieldList e.table).filter fun name => e.allowsField (trim name) := by
  have hget : ∀ es : Entries String, Entries.get? e.table (es.map fun f =>
      if f.1 = e.table then (f.1, keepPieces (keepsField e) f.2) else f) =
        (es.get? e.table).map (keepPieces (keepsField e)) := by
    intro es
    induction es with
    | nil => rfl
    | cons f es ih =>
      obtain ⟨table, list⟩ := f
      rw [List.map_cons, Entries.get?, Entries.get?, List.lookup_cons]
      by_cases h : table = e.table
      · rw [if_pos h, List.lookup_cons, beq_iff_eq.mpr h.symm]
        rfl
      · rw [if_neg h, List.lookup_cons, beq_eq_false_iff_ne.mpr (Ne.symm h)]
        exact ih
  have hnames : ∀ list : String, trimmedNames (split ',' (keepPieces (keepsField e) list)) =
      (trimmedNames (split ',' list)).filter fun name => e.allowsField (trim name) := by
    intro list
    have htrimmed : ∀ name ∈ trimmedNames (split ',' list),
        e.allowsField (trim name) = e.allowsField name := by
      intro name hname
      rw [trim_of_mem_trimmedNames hname]
    rw [List.filter_congr htrimmed, trimmedNames_eq, trimmedNames_eq,
      filterMap_split_keepPieces rfl]
    exact filterMap_filter_all _ _ _
  unfold fieldList onlyAllowed
  rw [hget]
  cases p.fields.get? e.table with
  | none => rfl
  | some list => simpa only [Option.map_some, Option.getD_some] using hnames list

end ItemParams

-- ---------------------------------------------------------------------------
-- The queries
-- ---------------------------------------------------------------------------

namespace Query

theorem selectChoice_optional (q : Query) (o : Option String) :
    q.selectChoice (.optional .text o) =
      .ok (q.select ((o.map fun list => RequestParams.trimmedNames (split ',' list)).getD [])) := by
  cases o with
  | none => rfl
  | some list =>
    show (if (Value.text list).isVoid then _ else _) = _
    by_cases h : list = ""
    · subst h
      rfl
    · have hvoid : (Value.text list).isVoid = false := beq_eq_false_iff_ne.mpr h
      rw [hvoid]
      rfl

/-- The steps of a request of items. -/
theorem follow_toRequest (q : Query) (p : ItemParams) :
    q.follow p.toRequest = q.filterAll p.filters >>= fun q' =>
      ((p.includeList.foldl includePath (q'.sortAll p.sortList)).select
        (p.fieldList q.entity.table)).finish p.toRequest := by
  obtain ⟨warnings, hparse⟩ := p.parse_filter
  have hfilter : p.toRequest.filter.asMapping =
      .ok ((p.filter.map fun f => (f.1, f.2.toValue)).map fun e => (.text e.1, e.2)) := rfl
  unfold follow
  rw [hfilter]
  show FilterParams.parse _ >>= _ = _
  rw [hparse, p.sortKeys_toRequest, p.includePaths_toRequest, p.fieldChoice_toRequest]
  refine congrArg (q.filterAll p.filters >>= ·) (funext fun q' => ?_)
  show selectChoice _ _ >>= _ = _
  rw [selectChoice_optional]
  rfl

variable (e : Entity) {s : Settings} (p : ItemParams)

/-- Under lenient rules, the query of a request of items is the one after its steps. -/
theorem map_unwarned_ofRequest_items (hs : s.strict = false) :
    (ofRequest e s p.toRequest).map unwarned =
      ({ entity := e, settings := s } : Query).follow p.toRequest := by
  have hwarnings : ∃ messages,
      (if p.toRequest.warnings.isVoid then .ok [] else p.toRequest.warnings.members) =
        (.ok messages : Except Failure (List Value)) := by
    split <;> exact ⟨_, rfl⟩
  obtain ⟨messages, hmessages⟩ := hwarnings
  exact map_unwarned_ofRequest e s p.toRequest hs hmessages

/-- The steps of a request with and without the names that are not allowed. -/
theorem follow_onlyAllowed (h : p.HasPlainFields) :
    ({ entity := e, settings := s } : Query).follow (p.onlyAllowed e).toRequest =
      ({ entity := e, settings := s } : Query).follow p.toRequest := by
  rw [follow_toRequest, follow_toRequest, p.filters_onlyAllowed e h, filterAll_filter rfl]
  cases hfilters : ({ entity := e, settings := s } : Query).filterAll p.filters with
  | error fail => rfl
  | ok q =>
    have hentity : q.entity = e := entity_filterAll hfilters
    have hsorted : (q.sortAll p.sortList).entity = e := (entity_sortAll q _).trans hentity
    have hincluded : (p.includeList.foldl includePath (q.sortAll p.sortList)).entity = e :=
      (entity_foldl_includePath _ _).trans hsorted
    show finish _ _ = finish _ _
    rw [p.sortList_onlyAllowed, p.includeList_onlyAllowed, p.fieldList_onlyAllowed,
      sortAll_filter hentity, foldl_includePath_filter hsorted, select_filter hincluded]
    rfl

/-- What is not on the whitelists of the entity makes no difference to a request, its warnings
apart: both requests fail in the same way or lead to queries that compile to the same statements. -/
theorem ofRequest_onlyAllowed (hs : s.strict = false) (items : List (String × String)) :
    (∃ fail, ofRequest e s (ItemParams.ofItems items).toRequest = .error fail ∧
      ofRequest e s ((ItemParams.ofItems items).onlyAllowed e).toRequest = .error fail) ∨
    ∃ q q', ofRequest e s (ItemParams.ofItems items).toRequest = .ok q ∧
      ofRequest e s ((ItemParams.ofItems items).onlyAllowed e).toRequest = .ok q' ∧
      q' = { q with warnings := q'.warnings } ∧
      ∀ schema paginate, q'.compile schema paginate = q.compile schema paginate := by
  have hplain := ItemParams.hasPlainFields_ofItems items
  have hmap : (ofRequest e s ((ItemParams.ofItems items).onlyAllowed e).toRequest).map unwarned =
      (ofRequest e s (ItemParams.ofItems items).toRequest).map unwarned := by
    rw [map_unwarned_ofRequest_items e _ hs, follow_onlyAllowed e _ hplain,
      map_unwarned_ofRequest_items e _ hs]
  refine (map_eq_map hmap).imp id ?_
  rintro ⟨q, q', hq, hq', hunwarned⟩
  refine ⟨q, q', hq, hq', eq_of_unwarned_eq hunwarned, fun schema paginate => ?_⟩
  rw [← compile_unwarned, hunwarned, compile_unwarned]

end Query

-- ---------------------------------------------------------------------------
-- A request with names that are not allowed
-- ---------------------------------------------------------------------------

/-- Members, whose secret is on no whitelist. -/
def Entity.members : Entity where
  table            := "members"
  filterFields     := ["name"]
  sortFields       := ["name"]
  selectFields     := ["id", "name"]
  includePaths     := ["team"]
  defaultSort      := none
  defaultSelection := none
  searchFields     := []
  primaryKey       := "id"
  softDelete       := none
  types            := [("id", .integer), ("name", .string), ("secret", .string)]
  relations        := []

/-- Every list names the secret along with what is allowed. -/
def prying : List (String × String) :=
  [("filter[name]", "a"), ("filter[secret][starts_with]", "b"), ("sort", "-secret,name"),
    ("include", "team,secret"), ("fields[members]", "secret,name")]

set_option maxRecDepth 4000 in
theorem ofRequest_onlyAllowed_prying :
    Settings.standard.strict = false ∧
    ∃ q q', Query.ofRequest .members .standard (ItemParams.ofItems prying).toRequest = .ok q ∧
      Query.ofRequest .members .standard
        ((ItemParams.ofItems prying).onlyAllowed .members).toRequest = .ok q' ∧
      q.warnings.length = 4 ∧ q'.warnings = [] ∧ q.filters.length = 1 ∧
      q.sorts = [⟨"name", .ascending⟩] ∧ q.includes = ["team"] ∧ q.fields = some ["name"] ∧
      q' = { q with warnings := [] } ∧
      ∀ schema paginate, q'.compile schema paginate = q.compile schema paginate := by
  obtain ⟨q₁, hq₁, hwarned, hfilters, hsorts, hincludes, hfields⟩ : ∃ q,
      Query.ofRequest .members .standard (ItemParams.ofItems prying).toRequest = .ok q ∧
      q.warnings.length = 4 ∧ q.filters.length = 1 ∧ q.sorts = [⟨"name", .ascending⟩] ∧
      q.includes = ["team"] ∧ q.fields = some ["name"] := ⟨_, rfl, rfl, rfl, rfl, rfl, rfl⟩
  obtain ⟨q₂, hq₂, hsilent⟩ : ∃ q, Query.ofRequest .members .standard
      ((ItemParams.ofItems prying).onlyAllowed .members).toRequest = .ok q ∧
      q.warnings = [] := ⟨_, rfl, rfl⟩
  refine ⟨rfl, q₁, q₂, hq₁, hq₂, hwarned, hsilent, hfilters, hsorts, hincludes, hfields, ?_⟩
  rcases Query.ofRequest_onlyAllowed .members (s := .standard) rfl prying with
    ⟨fail, hfail, -⟩ | ⟨q, q', hq, hq', hsame, hcompile⟩
  · cases hq₁.symm.trans hfail
  · obtain rfl := Except.ok.inj (hq₁.symm.trans hq)
    obtain rfl := Except.ok.inj (hq₂.symm.trans hq')
    rw [hsilent] at hsame
    exact ⟨hsame, hcompile⟩

end ListQuery
