import ListQuery.Proofs.Query.Outcome

/-!
# Requests of items

The parameters that items spell have kinds of their own, so nothing but a filter can fail their
request, and under strict rules what is left out of it. Its page is told from the parameters and the
settings alone.

* `asked_toRequest`, `ownWarnings_toRequest` — what the parameters ask for and bring along;
* `paged_toRequest`, `effectivePage_ofRequest` — the page;
* `exists_ofRequest_iff` — the requests that succeed.
-/

namespace ListQuery

/-- The page of a kind, by number or after a cursor. -/
def Page.ofKind (kind : PagingKind) (number : Int) (token : Option String) (n : Int) : Page :=
  match kind with
  | .offset => .ofNumber number n
  | .cursor => .ofCursor (.optional .text token) n

namespace ItemParams

variable (s : Settings) (p : ItemParams)

/-- The kind of page: as it is spelled, else by which of cursor and number is there. -/
def kindFor (s : Settings) (paging cursor : Option String) (page : Option Int) : PagingKind :=
  match paging, cursor, page with
  | some mode, _,      _      => if mode = PagingKind.offset.name then .offset else .cursor
  | none,      some _, _      => .cursor
  | none,      none,   some _ => .offset
  | none,      none,   none   => s.defaultPaging

theorem pagingOf_toRequest :
    Draft.pagingOf s p.toRequest = kindFor s p.paging p.cursor p.page := by
  unfold Draft.pagingOf toRequest
  cases p.paging with
  | some mode => rfl
  | none => cases p.cursor <;> cases p.page <;> rfl

/-- The size of the page, within the cap of the settings. -/
def sizeFor : Int := Page.clampPerPage (p.perPage.getD s.defaultPerPage) s.maxPerPage

/-- The page that is asked for under the settings. -/
def pageFor : Page :=
  .ofKind (kindFor s p.paging p.cursor p.page) (p.page.getD 1) p.cursor (p.sizeFor s)

end ItemParams

namespace Query

variable {s : Settings} {p : ItemParams}

theorem asked_toRequest (p : ItemParams) {parsed : ParsedFilters}
    (h : p.toRequest.parsedFilters = .ok parsed) (table : String) :
    p.toRequest.asked table = .ok ⟨parsed, p.sortList, p.includeList, p.fieldList table⟩ := by
  have hnames : RequestParams.chosenNames (.optional .text (p.fields.get? table)) =
      .ok (p.fieldList table) := by
    unfold ItemParams.fieldList RequestParams.chosenNames
    cases p.fields.get? table with
    | none => rfl
    | some list =>
      by_cases hlist : list = ""
      · subst hlist
        rfl
      · have hvoid : (Value.text list).isVoid = false := beq_eq_false_iff_ne.mpr hlist
        show (if (Value.text list).isVoid then _ else _) = _
        rw [hvoid]
        rfl
  unfold RequestParams.asked
  rw [h, p.sortKeys_toRequest, p.includePaths_toRequest, p.fieldChoice_toRequest]
  show RequestParams.chosenNames _ >>= _ = _
  rw [hnames]
  rfl

theorem ownWarnings_toRequest (p : ItemParams) :
    p.toRequest.ownWarnings = .ok (p.warnings.map .text) := by
  unfold RequestParams.ownWarnings ItemParams.toRequest
  cases p.warnings <;> rfl

theorem append_toRequest (p : ItemParams) : p.toRequest.append.asMapping =
    .ok (p.append.map fun a => (Value.text a.1, Value.text a.2)) := by
  show Except.ok (List.map _ (p.append.map _)) = _
  rw [List.map_map]
  rfl

theorem exists_foldl_append_eq (q : Query) (es : Mapping) :
    ∃ appends, es.foldl (fun q a => q.append a.1 a.2) q = { q with appends } := by
  induction es generalizing q with
  | nil => exact ⟨q.appends, rfl⟩
  | cons a es ih =>
    obtain ⟨appends, hrest⟩ := ih (q.append a.1 a.2)
    exact ⟨appends, hrest⟩

-- ---------------------------------------------------------------------------
-- The page
-- ---------------------------------------------------------------------------

theorem paged_toRequest (q : Query) (p : ItemParams) :
    q.paged p.toRequest = .ok (q.paginate (some (p.pageFor q.settings))) := by
  have hsize : q.sizeOf p.toRequest.perPage = .ok (p.sizeFor q.settings) := by
    unfold ItemParams.toRequest ItemParams.sizeFor
    cases p.perPage <;> rfl
  -- zero says nothing, and asks for the first page like a number below one
  have hnumber : ∃ n, (if p.toRequest.page.isVoid then Value.int 1
      else p.toRequest.page).toInteger = .ok n ∧
        Page.ofNumber n = Page.ofNumber (p.page.getD 1) := by
    unfold ItemParams.toRequest
    cases p.page with
    | none => exact ⟨1, rfl, rfl⟩
    | some n =>
      by_cases hn : n = 0
      · subst hn
        exact ⟨1, rfl, rfl⟩
      · have hvoid : (Value.optional .int (some n)).isVoid = false := beq_eq_false_iff_ne.mpr hn
        refine ⟨n, ?_, rfl⟩
        dsimp only
        rw [hvoid]
        rfl
  obtain ⟨n, hn, hpage⟩ := hnumber
  unfold paged paginateByNumber paginateByCursor ItemParams.pageFor Page.ofKind
  rw [hsize, hn, ← hpage, ItemParams.pagingOf_toRequest]
  cases ItemParams.kindFor q.settings p.paging p.cursor p.page <;> rfl

/-- The steps that look up no name do not fail. -/
theorem finish_toRequest (q : Query) (p : ItemParams) :
    ∃ r, q.finish p.toRequest = .ok r ∧ r.settings = q.settings ∧
      r.page = some (p.pageFor q.settings) := by
  obtain ⟨search, hsearch⟩ : ∃ search,
      q.searchForAny p.toRequest.search = .ok { q with search } := by
    unfold searchForAny ItemParams.toRequest
    rw [ItemParams.asTextIfAny_optional]
    cases p.search.filter (· ≠ "") <;> exact ⟨_, rfl⟩
  obtain ⟨appends, happends⟩ := exists_foldl_append_eq { q with search }
    (p.append.map fun a => (Value.text a.1, Value.text a.2))
  refine ⟨({ q with search, appends } : Query).paginate (some (p.pageFor q.settings)), ?_, rfl, rfl⟩
  unfold finish
  rw [hsearch, append_toRequest]
  show paged (List.foldl _ { q with search } _) _ = _
  rw [happends, paged_toRequest]

variable {e : Entity} {q : Query}

/-- The page of a request is the one that its parameters ask for. -/
theorem effectivePage_ofRequest (h : ofRequest e s p.toRequest = .ok q) :
    q.effectivePage = p.pageFor s := by
  obtain ⟨-, -, -, -, hfollow, -, -⟩ := ofRequest_eq_ok.mp h
  have hsettings : q.settings = s := congrArg Query.settings (reset_follow hfollow)
  obtain ⟨asked, -, q₁, -, hfinish⟩ := follow_eq_ok.mp hfollow
  obtain ⟨r, hr, hkept, hpage⟩ := finish_toRequest (q₁.project asked) p
  obtain rfl := Except.ok.inj (hfinish.symm.trans hr)
  have hpage' : q.page = some (p.pageFor s) := by
    rw [← hsettings]
    exact hpage.trans (congrArg (fun s => some (p.pageFor s)) hkept.symm)
  unfold effectivePage
  rw [hpage']

-- ---------------------------------------------------------------------------
-- Requests that succeed
-- ---------------------------------------------------------------------------

/-- A request of items comes to a query if no filter fails it and, under strict rules, nothing is
left out of it. -/
theorem exists_ofRequest_iff {parsed : ParsedFilters}
    (hparsed : p.toRequest.parsedFilters = .ok parsed) :
    (∃ q, ofRequest e s p.toRequest = .ok q) ↔ (∀ f ∈ parsed.filters, (fresh e s).Admits f) ∧
      (s.strict = true → (fresh e s).omissions
        ⟨parsed, p.sortList, p.includeList, p.fieldList e.table⟩ = []) := by
  have hasked := asked_toRequest p hparsed e.table
  constructor
  · rintro ⟨q, hq⟩
    obtain ⟨-, asked, -, hasked', hfollow, -, hnone⟩ := ofRequest_eq_ok.mp hq
    obtain rfl := Except.ok.inj (hasked.symm.trans hasked')
    obtain ⟨asked, hasked'', q₁, hq₁, -⟩ := follow_eq_ok.mp hfollow
    obtain rfl := Except.ok.inj (hasked.symm.trans hasked'')
    exact ⟨(filterAll_eq_ok.mp hq₁).1, hnone⟩
  · rintro ⟨hadmits, hnone⟩
    obtain ⟨r, hr, -⟩ := finish_toRequest (({ fresh e s with
      filters := parsed.filters.filterMap (fresh e s).accepted? } : Query).project
        ⟨parsed, p.sortList, p.includeList, p.fieldList e.table⟩) p
    have hfollow : (fresh e s).follow p.toRequest = .ok r :=
      follow_eq_ok.mpr ⟨_, hasked, _, filterAll_eq_ok.mpr ⟨hadmits, rfl⟩, hr⟩
    have hown := ownWarnings_toRequest p
    obtain ⟨d, -, rfl⟩ := map_eq_ok.mp ((map_core_draft hown).trans hfollow)
    let warnings := p.warnings.map Value.text ++ ((fresh e s).omissions
      ⟨parsed, p.sortList, p.includeList, p.fieldList e.table⟩).warnings
    exact ⟨{ d.core with warnings }, ofRequest_eq_ok.mpr
      ⟨_, _, hown, hasked, hfollow, rfl, hnone⟩⟩

end Query

end ListQuery
