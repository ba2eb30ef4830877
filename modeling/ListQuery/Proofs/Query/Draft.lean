import ListQuery.Compiled
import ListQuery.Proofs.Failure
import ListQuery.Query.OfRequest

/-!
# Requests as steps

Apart from the warnings, a request does to a query what the steps do that bear the names of its
parameters: a draft takes the filters, sorts, includes and fields that its query takes, and it fails
where its query fails.

* `core_addFilter`, `core_addSort`, … — one parameter;
* `map_core_draft` — a whole request;
* `map_unwarned_ofRequest` — its query, when rejected parameters are only left out.
-/

namespace ListQuery

namespace Query

/-- The query without its warnings. -/
def unwarned (q : Query) : Query := { q with warnings := [] }

variable (q : Query)

@[simp] theorem unwarned_entity : q.unwarned.entity = q.entity := rfl

theorem accept_unwarned (f : Filter) : q.unwarned.accept f = q.accept f := rfl

theorem compile_unwarned (schema : Schema) (paginate : Bool) :
    q.unwarned.compile schema paginate = q.compile schema paginate := rfl

/-- Queries that differ in their warnings only. -/
theorem eq_of_unwarned_eq {q q' : Query} (h : q'.unwarned = q.unwarned) :
    q' = { q with warnings := q'.warnings } :=
  congrArg (fun r : Query => { r with warnings := q'.warnings }) h

theorem unwarned_sort (s : SortKey) : (q.sort s).unwarned = q.unwarned.sort s := by
  unfold sort
  rw [unwarned_entity]
  split <;> rfl

theorem unwarned_includePath (path : String) :
    (q.includePath path).unwarned = q.unwarned.includePath path := by
  unfold includePath
  show _ = if q.entity.allowsInclude path && !q.includes.contains path then _ else _
  split <;> rfl

theorem unwarned_select (names : List String) :
    (q.select names).unwarned = q.unwarned.select names := by
  unfold select
  rw [unwarned_entity]
  split <;> rfl

theorem entity_includePath (path : String) : (q.includePath path).entity = q.entity := by
  unfold includePath
  split <;> rfl

-- ---------------------------------------------------------------------------
-- What is not allowed
-- ---------------------------------------------------------------------------

variable {q}

theorem filter_of_not_allowed {f : Filter} (h : q.entity.allowsFilter f.field = false) :
    q.filter f = .ok q := by
  unfold filter accept
  rw [h]
  rfl

theorem sort_of_not_allowed {s : SortKey} (h : q.entity.allowsSort s.field = false) :
    q.sort s = q := by
  unfold sort
  rw [h]
  rfl

theorem includePath_of_not_allowed {path : String} (h : q.entity.allowsInclude path = false) :
    q.includePath path = q := by
  unfold includePath
  rw [h]
  rfl

-- ---------------------------------------------------------------------------
-- The parameters of a request as steps
-- ---------------------------------------------------------------------------

variable (q)

/-- The fields that a choice names, if it says anything. -/
def selectChoice (choice : Value) : Except Failure Query :=
  if choice.isVoid then .ok q
  else (namesOf choice).map fun names => q.select (RequestParams.trimmedNames names)

/-- The search for a term, if there is one. -/
def searchForAny (term : Value) : Except Failure Query :=
  term.asTextIfAny.map fun
    | some t => q.searchFor (some t)
    | none   => q

/-- The page that a request asks for. -/
def paged (p : RequestParams) : Except Failure Query :=
  match Draft.pagingOf q.settings p with
  | .offset => q.paginateByNumber (if p.page.isVoid then .int 1 else p.page) p.perPage
  | .cursor => q.paginateByCursor p.perPage p.cursor

/-- The steps that look up no name. -/
def finish (p : RequestParams) : Except Failure Query := do
  let q ← q.searchForAny p.search
  let q := (← p.append.asMapping).foldl (fun q a => q.append a.1 a.2) q
  q.paged p

/-- The query after the steps that the parameters of a request name. -/
def follow (p : RequestParams) : Except Failure Query := do
  let table := q.entity.table
  let parsed ← FilterParams.parse (← p.filter.asMapping)
  let q ← q.filterAll parsed.filters
  let q := q.sortAll (← p.sortKeys)
  let q := (← p.includePaths).foldl includePath q
  let q ← q.selectChoice (← p.fieldChoice table)
  q.finish p

end Query

-- ---------------------------------------------------------------------------
-- One parameter
-- ---------------------------------------------------------------------------

namespace Draft

open Query

/-- The query of a draft, apart from its warnings. -/
def core (d : Draft) : Query := d.query.unwarned

variable (d : Draft)

theorem core_addFilter (f : Filter) : (d.addFilter f).map core = d.core.filter f := by
  unfold addFilter Query.filter
  rw [core, accept_unwarned]
  cases d.query.accept f with
  | ok accepted => rfl
  | error refusal => cases refusal <;> rfl

theorem core_addFilters (params : Mapping) :
    (d.addFilters params).map core =
      FilterParams.parse params >>= fun parsed => d.core.filterAll parsed.filters := by
  have hwarned : ∀ messages : List String,
      (messages.foldl (·.reject "filter" ·) d).core = d.core := by
    intro messages
    induction messages generalizing d with
    | nil => rfl
    | cons message messages ih => exact ih (d.reject "filter" message)
  unfold addFilters
  refine bind_map_congr fun parsed => ?_
  rw [foldlM_map_of_map_eq core_addFilter, hwarned]
  rfl

theorem core_addSort (s : SortKey) : (d.addSort s).core = d.core.sort s := by
  unfold addSort
  cases h : d.query.entity.allowsSort s.field with
  | true => exact d.query.unwarned_sort s
  | false => exact (sort_of_not_allowed (q := d.core) h).symm

theorem core_addInclude (path : String) : (d.addInclude path).core = d.core.includePath path := by
  unfold addInclude
  cases h : d.query.entity.allowsInclude path with
  | true => exact d.query.unwarned_includePath path
  | false => exact (includePath_of_not_allowed (q := d.core) h).symm

theorem core_foldl_addSort (ss : List SortKey) : (ss.foldl addSort d).core = d.core.sortAll ss :=
  (List.foldl_hom core fun d s => (d.core_addSort s).symm).symm

theorem core_foldl_addInclude (paths : List String) :
    (paths.foldl addInclude d).core = paths.foldl includePath d.core :=
  (List.foldl_hom core fun d path => (d.core_addInclude path).symm).symm

theorem core_checkField (field : String) : (d.checkField field).core = d.core := by
  unfold checkField
  split <;> rfl

theorem core_foldl_checkField (names : List String) : (names.foldl checkField d).core = d.core := by
  induction names generalizing d with
  | nil => rfl
  | cons name names ih => exact (ih (d.checkField name)).trans (d.core_checkField name)

theorem core_addFields (choice : Value) :
    (d.addFields choice).map core = d.core.selectChoice choice := by
  unfold addFields selectChoice
  split
  case isTrue => rfl
  case isFalse =>
    cases namesOf choice with
    | error fail => rfl
    | ok names =>
      refine congrArg Except.ok ((unwarned_select _ _).trans ?_)
      exact congrArg (fun q : Query => q.select (RequestParams.trimmedNames names))
        (d.core_foldl_checkField _)

theorem core_addSearch (term : Value) : (d.addSearch term).map core = d.core.searchForAny term := by
  unfold addSearch searchForAny
  cases term.asTextIfAny with
  | error fail => rfl
  | ok t => cases t <;> rfl

theorem core_addAppends (es : Mapping) :
    (d.addAppends es).core = es.foldl (fun q a => q.append a.1 a.2) d.core :=
  (List.foldl_hom unwarned fun _ _ => rfl).symm

theorem unwarned_paginateByNumber (q : Query) (number perPage : Value) :
    (q.paginateByNumber number perPage).map unwarned = q.unwarned.paginateByNumber number perPage :=
  bind_map_congr fun _ => bind_map_congr fun _ => rfl

theorem unwarned_paginateByCursor (q : Query) (perPage token : Value) :
    (q.paginateByCursor perPage token).map unwarned = q.unwarned.paginateByCursor perPage token :=
  bind_map_congr fun _ => rfl

theorem core_addPage (p : RequestParams) : (d.addPage p).map core = d.core.paged p := by
  have hmap : ∀ paged : Except Failure Query,
      (paged.map fun query => { d with query }).map core = paged.map unwarned := by
    intro paged
    cases paged <;> rfl
  have hcore : ∀ q : Query, q = d.core → pagingOf q.settings p = pagingOf d.query.settings p := by
    rintro q rfl
    rfl
  unfold addPage
  rw [hmap, paged, hcore d.core rfl]
  cases pagingOf d.query.settings p with
  | offset => exact unwarned_paginateByNumber _ _ _
  | cursor => exact unwarned_paginateByCursor _ _ _

-- ---------------------------------------------------------------------------
-- Whole requests
-- ---------------------------------------------------------------------------

/-- The draft after all parameters of a request. -/
def addAll (p : RequestParams) : Except Failure Draft := do
  let table := d.query.entity.table
  let d ← d.addFilters (← p.filter.asMapping)
  let d := (← p.sortKeys).foldl addSort d
  let d := (← p.includePaths).foldl addInclude d
  let d ← d.addFields (← p.fieldChoice table)
  let d ← d.addSearch p.search
  let d := d.addAppends (← p.append.asMapping)
  d.addPage p

/-- Apart from its warnings, a draft takes the steps of the request. -/
theorem core_addAll (p : RequestParams) : (d.addAll p).map core = d.core.follow p := by
  unfold addAll follow
  refine bind_map_congr fun params => ?_
  rw [← bind_assoc]
  refine bind_map_of_map_eq (core_addFilters d params) fun d => ?_
  refine bind_map_congr fun keys => bind_map_congr fun paths => bind_map_congr fun choice => ?_
  have hlisted : (paths.foldl addInclude (keys.foldl addSort d)).core =
      paths.foldl includePath (d.core.sortAll keys) := by
    rw [core_foldl_addInclude, core_foldl_addSort]
  rw [← hlisted]
  refine bind_map_of_map_eq (core_addFields _ choice) fun d => ?_
  refine bind_map_of_map_eq (core_addSearch d p.search) fun d => ?_
  refine bind_map_congr fun appended => ?_
  rw [← core_addAppends]
  exact core_addPage _ p

end Draft

namespace Query

open Draft

variable (e : Entity) (s : Settings) (p : RequestParams)

theorem draft_eq :
    draft e s p = (if p.warnings.isVoid then .ok [] else p.warnings.members) >>=
      fun warnings => ({ query := { entity := e, settings := s, warnings } } : Draft).addAll p := by
  unfold draft
  split <;> rfl

/-- Under lenient rules, the query of a request is the one after the steps of the request, apart from
its warnings. -/
theorem map_unwarned_ofRequest (hs : s.strict = false) {messages : List Value}
    (h : (if p.warnings.isVoid then .ok [] else p.warnings.members) = .ok messages) :
    (ofRequest e s p).map unwarned = ({ entity := e, settings := s } : Query).follow p := by
  have hquery : ofRequest e s p = (draft e s p).map Draft.query := by
    unfold ofRequest
    rw [hs]
    cases draft e s p <;> rfl
  have hcore : ({ query := { entity := e, settings := s, warnings := messages } } : Draft).core =
      { entity := e, settings := s } := rfl
  rw [hquery, draft_eq, h, ← hcore, ← core_addAll]
  show (Except.map Draft.query (addAll _ p)).map unwarned = _
  cases addAll _ p <;> rfl

end Query

end ListQuery
