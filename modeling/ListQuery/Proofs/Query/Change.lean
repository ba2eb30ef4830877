import Mathlib.Logic.Relation
import ListQuery.Proofs.Query.Draft
import ListQuery.Query.Calls

/-!
# What a step can do

However many ways there are to grow a query, by name, by request or directly, each is a chain of a
dozen changes. What the changes preserve holds of every query that can be reached.

* `Change` — the changes;
* `isSound_all`, `yields_follow` — the steps by name and the parameters of a request;
* `Reachable.induction` — what holds of every query that can be reached.
-/

namespace ListQuery

/-- A page with at least one row and at most a hundred, and counted from one. -/
def Page.IsBounded : Page → Prop
  | .offset number n => 1 ≤ number ∧ 1 ≤ n ∧ n ≤ maxPerPage
  | .cursor _ n      => 1 ≤ n ∧ n ≤ maxPerPage

namespace Page

theorem isBounded_ofNumber (number n : Int) : (ofNumber number n).IsBounded := by
  unfold ofNumber IsBounded clampPerPage maxPerPage
  omega

theorem isBounded_ofCursor (token : Value) (n : Int) : (ofCursor token n).IsBounded := by
  unfold ofCursor IsBounded clampPerPage maxPerPage
  omega

theorem isBounded_withPerPage (state : Option Page) (n : Int) : (withPerPage state n).IsBounded := by
  cases state with
  | none => exact isBounded_ofCursor _ _
  | some p =>
    cases p with
    | offset number n' => exact isBounded_ofNumber _ _
    | cursor token n' => exact isBounded_ofCursor _ _

end Page

namespace Query

/-- One change of a query. -/
inductive Change : Query → Query → Prop
  | addFilter {q : Query} {f accepted : Filter} (h : q.accept f = .ok accepted) :
      Change q (q.addFilter accepted)
  | searchFor (q : Query) (term : Option String) : Change q (q.searchFor term)
  | sort (q : Query) (s : SortKey) : Change q (q.sort s)
  | includePath (q : Query) (path : String) : Change q (q.includePath path)
  | select (q : Query) (spellings : List String) : Change q (q.select spellings)
  | append (q : Query) (key value : Value) : Change q (q.append key value)
  | paginate (q : Query) {p : Page} (h : p.IsBounded) : Change q (q.paginate (some p))
  | withTrashed (q : Query) : Change q q.withTrashed
  | onlyTrashed (q : Query) : Change q q.onlyTrashed
  | clearFilters (q : Query) : Change q q.clearFilters
  | clearSorts (q : Query) : Change q q.clearSorts
  | clearIncludes (q : Query) : Change q q.clearIncludes
  | reset (q : Query) : Change q q.reset
  | applyDefaultFields (q : Query) : Change q q.applyDefaultFields
  | rewarn (q : Query) (warnings : List Value) : Change q { q with warnings }

/-- Some changes, one after the other. -/
abbrev Changes : Query → Query → Prop := Relation.ReflTransGen Change

/-- Work that leads from a query only to queries that changes lead to. -/
abbrev Yields (q : Query) (x : Except Failure Query) : Prop := Ensures (Changes q) x

variable {q : Query} {α : Type}

-- ---------------------------------------------------------------------------
-- Chains of work
-- ---------------------------------------------------------------------------

theorem yields_of_changes {q' : Query} {x : Except Failure Query} (h : Changes q q')
    (hx : q'.Yields x) : q.Yields x := fun r hr => h.trans (hx r hr)

theorem Yields.followed {x : Except Failure Query} {f : Query → Except Failure Query}
    (hx : q.Yields x) (hf : ∀ q' : Query, q'.Yields (f q')) : q.Yields (x >>= f) :=
  hx.bind fun q' h => yields_of_changes h (hf q')

theorem changes_foldl {k : Query → α → Query} (h : ∀ q a, Changes q (k q a)) (as : List α)
    (q : Query) : Changes q (as.foldl k q) := by
  induction as generalizing q with
  | nil => exact .refl
  | cons a as ih => exact (h q a).trans (ih (k q a))

theorem yields_foldlM {k : Query → α → Except Failure Query} (h : ∀ (q : Query) a, q.Yields (k q a))
    (as : List α) (q : Query) : q.Yields (as.foldlM k q) := by
  induction as generalizing q with
  | nil => exact ensures_ok .refl
  | cons a as ih => exact (h q a).followed ih

-- ---------------------------------------------------------------------------
-- Steps
-- ---------------------------------------------------------------------------

theorem yields_filter (q : Query) (f : Filter) : q.Yields (q.filter f) := by
  unfold filter
  split
  case h_1 accepted h => exact ensures_ok (.single (.addFilter h))
  case h_2 => exact ensures_ok .refl
  case h_3 => exact ensures_error _

theorem yields_filterAll (q : Query) (fs : List Filter) : q.Yields (q.filterAll fs) :=
  yields_foldlM yields_filter fs q

theorem changes_sortAll (q : Query) (ss : List SortKey) : Changes q (q.sortAll ss) :=
  changes_foldl (fun q s => .single (.sort q s)) ss q

theorem changes_includeAll (q : Query) (spellings : List String) :
    Changes q (q.includeAll spellings) :=
  changes_foldl (fun q _ => .single (.includePath q _)) spellings q

theorem changes_applyDefaultSort (q : Query) : Changes q q.applyDefaultSort := by
  unfold applyDefaultSort
  split
  · exact .single (.sort q _)
  · exact .refl

theorem yields_selectByTable (q : Query) (choices : Mapping) : q.Yields (q.selectByTable choices) := by
  unfold selectByTable
  split
  · exact ensures_ok .refl
  · exact ensures_ok .refl
  · exact ensures_map fun names => .single (.select q names)

theorem yields_paginateByNumber (q : Query) (number perPage : Value) :
    q.Yields (q.paginateByNumber number perPage) :=
  ensures_bind fun _ => ensures_bind fun _ =>
    ensures_ok (.single (.paginate q (Page.isBounded_ofNumber _ _)))

theorem yields_paginateByCursor (q : Query) (perPage token : Value) :
    q.Yields (q.paginateByCursor perPage token) :=
  ensures_bind fun _ => ensures_ok (.single (.paginate q (Page.isBounded_ofCursor _ _)))

/-- The same page again. -/
theorem paginate_page {p : Page} (h : q.page = some p) : q.paginate (some p) = q := by
  rw [paginate, ← h]

theorem yields_withNumber (q : Query) (number : Value) : q.Yields (q.withNumber number) := by
  unfold withNumber Page.withNumber
  cases hp : q.page with
  | none =>
    intro q' hq'
    obtain ⟨p, hn, rfl⟩ := map_eq_ok.mp hq'
    obtain ⟨n, -, rfl⟩ := map_eq_ok.mp hn
    exact .single (.paginate q (Page.isBounded_ofNumber _ _))
  | some p =>
    cases p with
    | offset number' n =>
      intro q' hq'
      obtain ⟨p, hn, rfl⟩ := map_eq_ok.mp hq'
      obtain ⟨n, -, rfl⟩ := map_eq_ok.mp hn
      exact .single (.paginate q (Page.isBounded_ofNumber _ _))
    | cursor token n => exact ensures_ok (paginate_page hp ▸ .refl)

theorem changes_withToken (q : Query) (token : Value) : Changes q (q.withToken token) := by
  unfold withToken Page.withToken
  cases hp : q.page with
  | none => exact .single (.paginate q (Page.isBounded_ofCursor _ _))
  | some p =>
    cases p with
    | cursor token' n => exact .single (.paginate q (Page.isBounded_ofCursor _ _))
    | offset number n => exact paginate_page hp ▸ .refl

-- ---------------------------------------------------------------------------
-- Requests
-- ---------------------------------------------------------------------------

theorem yields_selectChoice (q : Query) (choice : Value) : q.Yields (q.selectChoice choice) := by
  unfold selectChoice
  split
  · exact ensures_ok .refl
  · exact ensures_map fun _ => .single (.select q _)

theorem yields_searchForAny (q : Query) (term : Value) : q.Yields (q.searchForAny term) := by
  refine ensures_map fun term => ?_
  cases term with
  | some t => exact .single (.searchFor q (some t))
  | none => exact .refl

theorem yields_paged (q : Query) (p : RequestParams) : q.Yields (q.paged p) := by
  unfold paged
  split
  · exact yields_paginateByNumber q _ _
  · exact yields_paginateByCursor q _ _

theorem yields_finish (q : Query) (p : RequestParams) : q.Yields (q.finish p) :=
  (yields_searchForAny q p.search).followed fun q => ensures_bind fun appended =>
    yields_of_changes
      (changes_foldl (fun q (a : Value × Value) => .single (.append q a.1 a.2)) appended q)
      (yields_paged _ p)

/-- The parameters of a request do nothing to a query that changes do not do. -/
theorem yields_follow (q : Query) (p : RequestParams) : q.Yields (q.follow p) :=
  ensures_bind fun _ => ensures_bind fun parsed =>
    (yields_filterAll q parsed.filters).followed fun q =>
    ensures_bind fun keys => ensures_bind fun paths => ensures_bind fun choice =>
      yields_of_changes
        ((changes_sortAll q keys).trans
          (changes_foldl (fun q path => .single (.includePath q path)) paths _))
        ((yields_selectChoice _ choice).followed fun q => yields_finish q p)

theorem changes_of_draft {e : Entity} {s : Settings} {p : RequestParams} {d : Draft}
    (h : draft e s p = .ok d) : Changes { entity := e, settings := s } d.query := by
  rw [draft_eq] at h
  obtain ⟨warnings, -, h⟩ := bind_eq_ok.mp h
  have hfollow := Draft.core_addAll { query := { entity := e, settings := s, warnings } } p
  rw [h] at hfollow
  exact (yields_follow _ p d.core hfollow.symm).tail (.rewarn d.core d.query.warnings)

theorem changes_of_ofRequest {e : Entity} {s : Settings} {p : RequestParams}
    (h : ofRequest e s p = .ok q) : Changes { entity := e, settings := s } q := by
  obtain ⟨d, hd, h⟩ := bind_eq_ok.mp h
  split at h
  · cases h
  · cases h
    exact changes_of_draft hd

end Query

-- ---------------------------------------------------------------------------
-- Steps by name
-- ---------------------------------------------------------------------------

namespace NamedStep

open Query

/-- The step does nothing to a query that changes do not do. -/
def IsSound (step : NamedStep) : Prop :=
  ∀ (q : Query) (args : List Value), q.Yields (step.run q args)

theorem yields_onField {q : Query} {field : Value} {step : String → Except Failure Query}
    (h : ∀ name, q.Yields (step name)) : q.Yields (onField q field step) := by
  refine ensures_bind fun found => ?_
  cases found with
  | some name => exact h name
  | none => exact ensures_ok .refl

theorem isSound_plain {name : String} {f : Query → Query} (h : ∀ q, Changes q (f q)) :
    (plain name f).IsSound := fun q _ => ensures_ok (h q)

theorem isSound_unary {name : String} {f : Query → Value → Except Failure Query}
    (h : ∀ (q : Query) v, q.Yields (f q v)) : (unary name f).IsSound := fun q _ => h q _

theorem isSound_binary {name : String} {f : Query → Value → Value → Except Failure Query}
    (h : ∀ (q : Query) v w, q.Yields (f q v w)) : (binary name f).IsSound := fun q _ => h q _ _

theorem isSound_comparison (op : Operator) : (comparison op).IsSound :=
  isSound_binary fun q _ _ => yields_onField fun _ => yields_filter q _

theorem isSound_membership (name : String) (op : Operator) : (membership name op).IsSound :=
  isSound_binary fun q _ _ => ensures_bind fun _ => yields_onField fun _ => yields_filter q _

theorem isSound_nullTest (name : String) (op : Operator) : (nullTest name op).IsSound :=
  isSound_unary fun q _ => yields_onField fun _ => yields_filter q _

theorem isSound_between : between.IsSound := fun q _ => yields_onField fun _ => yields_filter q _

theorem yields_orWhere (q : Query) (field spelling : String) (raw : Value) :
    q.Yields (q.orWhere field spelling raw) := by
  unfold orWhere
  split
  · exact yields_filter q _
  · exact ensures_ok .refl

theorem isSound_alternative : alternative.IsSound := by
  refine fun q args => ensures_bind fun spelling => ?_
  cases Operator.parse? spelling with
  | none => exact ensures_ok .refl
  | some op => exact yields_onField fun name => yields_orWhere q name spelling _

theorem isSound_search : search.IsSound :=
  isSound_unary fun q _ => ensures_map fun term => .single (.searchFor q term)

theorem isSound_filterSteps : ∀ step ∈ filterSteps, step.IsSound := by
  refine List.forall_mem_append.mpr ⟨?_, ?_⟩
  · intro step hstep
    obtain ⟨op, -, rfl⟩ := List.mem_map.mp hstep
    exact isSound_comparison op
  · simp only [List.forall_mem_cons]
    exact ⟨isSound_membership _ _, isSound_membership _ _, isSound_nullTest _ _,
      isSound_nullTest _ _, isSound_between, isSound_alternative, isSound_search,
      List.forall_mem_nil _⟩

theorem yields_sortBy (q : Query) (field : Value) (direction : Option Value) :
    q.Yields (sortBy q field direction) := by
  refine yields_onField fun name => ?_
  split
  case isFalse => exact ensures_ok .refl
  case isTrue =>
    cases direction with
    | none => exact ensures_ok (.single (.sort q _))
    | some v => exact ensures_bind fun _ => ensures_ok (.single (.sort q _))

theorem isSound_order (name : String) (d : Direction) : (order name d).IsSound :=
  isSound_unary fun q _ => yields_onField fun _ => ensures_ok (.single (.sort q _))

theorem isSound_sortSteps : ∀ step ∈ sortSteps, step.IsSound := by
  have hsort : sort.IsSound := fun q _ => yields_sortBy q _ _
  have hsorts : sorts.IsSound := isSound_unary fun q _ => ensures_bind fun _ => ensures_bind fun keys =>
    yields_foldlM (fun q key => yields_sortBy q key.1 key.2) keys q
  simp only [sortSteps, List.forall_mem_cons]
  exact ⟨hsort, hsorts, isSound_order _ _, isSound_order _ _,
    isSound_unary fun q _ => ensures_map fun s => changes_sortAll q _, List.forall_mem_nil _⟩

theorem isSound_projectionSteps : ∀ step ∈ projectionSteps, step.IsSound := by
  have happend : ∀ (q : Query) (key v : Value),
      q.Yields (if key.isKey then .ok (q.append key v) else .error .wrongKind) := by
    intro q key v
    split
    · exact ensures_ok (.single (.append q key v))
    · exact ensures_error _
  have harguments : includeArguments.IsSound := fun q _ => ensures_map fun names =>
    changes_includeAll q names
  simp only [projectionSteps, List.forall_mem_cons]
  exact ⟨isSound_unary fun q _ => ensures_map fun s => changes_includeAll q [s],
    isSound_unary fun q _ => ensures_map fun names => changes_includeAll q names, harguments,
    isSound_unary fun q _ => ensures_map fun names => .single (.select q names),
    isSound_unary fun q _ => ensures_bind fun choices => yields_selectByTable q choices,
    isSound_binary happend, List.forall_mem_nil _⟩

theorem isSound_pageSteps : ∀ step ∈ pageSteps, step.IsSound := by
  have hnumbered : numbered.IsSound := fun q _ => yields_paginateByNumber q _ _
  have hcursor : byCursor.IsSound := fun q _ => yields_paginateByCursor q _ _
  simp only [pageSteps, List.forall_mem_cons]
  exact ⟨hnumbered, hcursor,
    isSound_unary fun q _ => ensures_map fun _ =>
      .single (.paginate q (Page.isBounded_withPerPage _ _)),
    isSound_unary yields_withNumber,
    isSound_unary fun q v => ensures_ok (changes_withToken q v), List.forall_mem_nil _⟩

theorem isSound_plainSteps : ∀ step ∈ plainSteps, step.IsSound := by
  simp only [plainSteps, List.forall_mem_cons]
  exact ⟨isSound_plain fun q => .single (.withTrashed q),
    isSound_plain fun q => .single (.onlyTrashed q),
    isSound_plain fun q => .single (.clearFilters q),
    isSound_plain fun q => .single (.clearSorts q),
    isSound_plain fun q => .single (.clearIncludes q), isSound_plain fun q => .single (.reset q),
    isSound_plain fun _ => .refl, isSound_plain changes_applyDefaultSort,
    isSound_plain fun q => .single (.applyDefaultFields q), List.forall_mem_nil _⟩

/-- No step does to a query what changes do not do. -/
theorem isSound_all : ∀ step ∈ all, step.IsSound := by
  simp only [all, List.forall_mem_append]
  exact ⟨⟨⟨⟨isSound_filterSteps, isSound_sortSteps⟩, isSound_projectionSteps⟩, isSound_pageSteps⟩,
    isSound_plainSteps⟩

end NamedStep

-- ---------------------------------------------------------------------------
-- Queries that can be reached
-- ---------------------------------------------------------------------------

namespace Query

/-- The queries to which a client can get: a fresh one or that of a request, and whatever the steps
make of it. -/
inductive Reachable : Query → Prop
  | fresh (e : Entity) (s : Settings) : Reachable { entity := e, settings := s }
  | ofRequest {e : Entity} {s : Settings} {p : RequestParams} {q : Query}
      (h : Query.ofRequest e s p = .ok q) : Reachable q
  | call {q q' : Query} {name : String} {args : List Value} (hq : Reachable q)
      (h : q.call name args = .ok q') : Reachable q'
  | filter {q q' : Query} {f : Filter} (hq : Reachable q) (h : q.filter f = .ok q') : Reachable q'
  | filterAll {q q' : Query} {fs : List Filter} (hq : Reachable q) (h : q.filterAll fs = .ok q') :
      Reachable q'
  | sortAll {q : Query} (ss : List SortKey) (hq : Reachable q) : Reachable (q.sortAll ss)
  | includePath {q : Query} (path : String) (hq : Reachable q) : Reachable (q.includePath path)
  | paginate {q : Query} {p : Page} (hp : p.IsBounded) (hq : Reachable q) :
      Reachable (q.paginate (some p))

theorem yields_call (q : Query) (name : String) (args : List Value) :
    q.Yields (q.call name args) := by
  unfold call
  split
  case h_1 => exact ensures_error _
  case h_2 step hstep =>
    split
    · exact NamedStep.isSound_all step (List.mem_of_find?_eq_some hstep) q args
    · exact ensures_error _

theorem Reachable.exists_changes {q : Query} (h : q.Reachable) :
    ∃ e s, Changes { entity := e, settings := s } q := by
  induction h with
  | fresh e s => exact ⟨e, s, .refl⟩
  | ofRequest h => exact ⟨_, _, changes_of_ofRequest h⟩
  | call _ h ih =>
    obtain ⟨e, s, ih⟩ := ih
    exact ⟨e, s, ih.trans (yields_call _ _ _ _ h)⟩
  | filter _ h ih =>
    obtain ⟨e, s, ih⟩ := ih
    exact ⟨e, s, ih.trans (yields_filter _ _ _ h)⟩
  | filterAll _ h ih =>
    obtain ⟨e, s, ih⟩ := ih
    exact ⟨e, s, ih.trans (yields_filterAll _ _ _ h)⟩
  | sortAll ss _ ih =>
    obtain ⟨e, s, ih⟩ := ih
    exact ⟨e, s, ih.trans (changes_sortAll _ ss)⟩
  | includePath path _ ih =>
    obtain ⟨e, s, ih⟩ := ih
    exact ⟨e, s, ih.tail (.includePath _ path)⟩
  | paginate hp _ ih =>
    obtain ⟨e, s, ih⟩ := ih
    exact ⟨e, s, ih.tail (.paginate _ hp)⟩

/-- What holds of a fresh query and is preserved by the changes holds of every query that can be
reached. -/
theorem Reachable.induction {P : Query → Prop} {q : Query} (h : q.Reachable)
    (fresh : ∀ e s, P { entity := e, settings := s })
    (change : ∀ q q', Change q q' → P q → P q') : P q := by
  obtain ⟨e, s, hchanges⟩ := h.exists_changes
  clear h
  induction hchanges with
  | refl => exact fresh e s
  | tail _ hchange ih => exact change _ _ hchange ih

/-- Every change leaves the entity and the settings. -/
theorem Change.entity_settings_eq {q q' : Query} (h : Change q q') :
    q'.entity = q.entity ∧ q'.settings = q.settings := by
  cases h with
  | sort s => unfold Query.sort; split <;> exact ⟨rfl, rfl⟩
  | includePath path => unfold Query.includePath; split <;> exact ⟨rfl, rfl⟩
  | select names => unfold Query.select; split <;> exact ⟨rfl, rfl⟩
  | _ => exact ⟨rfl, rfl⟩

-- ---------------------------------------------------------------------------
-- Filters of a query
-- ---------------------------------------------------------------------------

/-- Each filter of the query was accepted. -/
def HasAcceptedFilters (q : Query) : Prop := ∀ f ∈ q.filters, ∃ raw, q.accept raw = .ok f

theorem Change.hasAcceptedFilters {q q' : Query} (h : Change q q') (hq : q.HasAcceptedFilters) :
    q'.HasAcceptedFilters := by
  -- acceptance looks at the entity and the settings only, which no change touches
  cases h with
  | @addFilter f accepted h =>
    intro g hg
    rcases List.mem_append.mp hg with hg | hg
    · exact hq g hg
    · exact ⟨f, List.mem_singleton.mp hg ▸ h⟩
  | sort s => unfold Query.sort; split <;> exact hq
  | includePath path => unfold Query.includePath; split <;> exact hq
  | select names => unfold Query.select; split <;> exact hq
  | clearFilters => exact List.forall_mem_nil _
  | reset => exact List.forall_mem_nil _
  | _ => exact hq

theorem Reachable.hasAcceptedFilters {q : Query} (h : q.Reachable) : q.HasAcceptedFilters :=
  h.induction (fun _ _ => List.forall_mem_nil _) fun _ _ hchange => hchange.hasAcceptedFilters

end Query

end ListQuery
