import ListQuery.Execution.Script
import ListQuery.Proofs.Execution.CursorPage
import ListQuery.Proofs.Paging.PageCount
import ListQuery.Proofs.Query.Respelled
import ListQuery.Service

/-!
# Links that keep the kind of page

The links of a response lead to pages of the kind and size of the page that carries them, at the
number or the cursor that they name. Only the link to the first cursor page can change the kind: it
names neither a number nor a cursor, so without a kind of its own it gets the one that the settings
choose.

* `pageFor_linking_offset`, `pageFor_linking_cursor` — the page that a link asks for;
* `runPage_info` — where a delivered page stands;
* `Service.index_links` — the links of a response.
-/

namespace ListQuery

open Number

-- ---------------------------------------------------------------------------
-- The page that a link asks for
-- ---------------------------------------------------------------------------

/-- A page size that is within the bounds of the settings, and of pages as such. -/
def Settings.KeepsSize (s : Settings) (n : Int) : Prop :=
  Page.clampPerPage (Page.clampPerPage n s.maxPerPage) Page.maxPerPage = n

theorem Settings.keepsSize_clamped (s : Settings) (n : Int) :
    s.KeepsSize (Page.clampPerPage (Page.clampPerPage n s.maxPerPage) Page.maxPerPage) := by
  have hmax := s.one_le_max
  unfold KeepsSize Page.clampPerPage Page.maxPerPage
  omega

theorem Settings.KeepsSize.digitCount_le {s : Settings} {n : Int} (h : s.KeepsSize n) :
    digitCount n.natAbs ≤ maxIntegerDigits := by
  have hbounds : n.natAbs ≤ 100 := by
    unfold KeepsSize Page.clampPerPage Page.maxPerPage at h
    omega
  exact (digitCount_mono hbounds).trans (by decide)

namespace ItemParams

variable {s : Settings} {p : ItemParams} {number n : Int}

/-- A page by number is one within the bounds that was asked for by number. -/
theorem pageFor_eq_offset (h : p.pageFor s = .offset number n) :
    kindFor s p.paging p.cursor p.page = .offset ∧ number = max 1 (p.page.getD 1) ∧
      s.KeepsSize n := by
  unfold pageFor Page.ofKind at h
  split at h
  case h_1 hkind =>
    obtain ⟨hnumber, hn⟩ := Page.offset.inj h
    rw [← hn]
    exact ⟨hkind, hnumber.symm, s.keepsSize_clamped _⟩
  case h_2 => cases h

theorem pageFor_eq_cursor {token : Value} (h : p.pageFor s = .cursor token n) :
    kindFor s p.paging p.cursor p.page = .cursor ∧ token = .optional .text p.cursor ∧
      s.KeepsSize n := by
  unfold pageFor Page.ofKind at h
  split at h
  case h_1 => cases h
  case h_2 hkind =>
    obtain ⟨htoken, hn⟩ := Page.cursor.inj h
    rw [← hn]
    exact ⟨hkind, htoken.symm, s.keepsSize_clamped _⟩

/-- A link by number leads to that number: it has no cursor, and a request for a page by number
does not ask for cursors by name. -/
theorem pageFor_linking_offset (h : kindFor s p.paging p.cursor p.page = .offset)
    (hnumber : 1 ≤ number) (hn : s.KeepsSize n) :
    (p.linking (.offset number n)).pageFor s = .offset number n := by
  have hkind : kindFor s p.paging none (some number) = .offset := by
    cases hpaging : p.paging with
    | none => rfl
    | some mode =>
      rw [hpaging] at h
      exact h
  show Page.ofKind (kindFor s p.paging none (some number)) number none
    (Page.clampPerPage n s.maxPerPage) = _
  rw [hkind]
  show Page.offset (max 1 number) _ = _
  rw [hn, max_eq_right hnumber]

/-- A link with a cursor, or without one, leads to the kind of page that comes of it. -/
theorem pageFor_linking_cursor (token : Option String) (hn : s.KeepsSize n) :
    (p.linking (.cursor (.optional .text token) n)).pageFor s =
      if kindFor s p.paging token none = .offset then .offset 1 n
      else .cursor (.optional .text token) n := by
  have htoken : (p.linking (.cursor (.optional .text token) n)).cursor = token :=
    Value.text?_optional token
  unfold pageFor
  rw [htoken]
  show Page.ofKind (kindFor s p.paging token none) 1 token (Page.clampPerPage n s.maxPerPage) = _
  cases kindFor s p.paging token none with
  | offset => exact congrArg (Page.offset 1) hn
  | cursor => exact congrArg (Page.cursor _) hn

section
variable {paging cursor : Option String} {page : Option Int}
  (h : kindFor s paging cursor page = .cursor)
include h

/-- Without the number a cursor page is one still. -/
theorem kindFor_self : kindFor s paging cursor none = .cursor := by
  match paging, cursor, page with
  | some _, _,      _    => exact h
  | none,   some _, _    => rfl
  | none,   none,   none => exact h

theorem kindFor_next (token : String) : kindFor s paging (some token) none = .cursor := by
  match paging with
  | some _ => exact h
  | none   => rfl

/-- Without the cursor, the settings choose where the request does not. -/
theorem kindFor_first :
    kindFor s paging none none =
      if paging = none ∧ s.defaultPaging = .offset then .offset else .cursor := by
  match paging with
  | some _ => exact h
  | none   =>
    show s.defaultPaging = _
    cases s.defaultPaging <;> rfl

end

/-- The page to which the link to the first one leads from a cursor page. -/
def firstPage (s : Settings) (p : ItemParams) (n : Int) : Page :=
  if p.paging = none ∧ s.defaultPaging = .offset then .offset 1 n else .cursor .null n

theorem pageFor_linking_first (h : kindFor s p.paging p.cursor p.page = .cursor)
    (hn : s.KeepsSize n) : (p.linking (.cursor .null n)).pageFor s = p.firstPage s n := by
  have hfirst := pageFor_linking_cursor (p := p) none hn
  rw [kindFor_first h] at hfirst
  refine hfirst.trans ?_
  unfold firstPage
  by_cases hdefault : p.paging = none ∧ s.defaultPaging = .offset
  · rw [if_pos hdefault, if_pos hdefault, if_pos rfl]
  · rw [if_neg hdefault, if_neg hdefault]
    rfl

end ItemParams

-- ---------------------------------------------------------------------------
-- Where a delivered page stands
-- ---------------------------------------------------------------------------

section
variable {σ : Type} {db : Database σ} {schema : Schema} {q : Query} {st st' : σ}
  {page : PageOf Row}

/-- What is said about where a page stands. -/
inductive Standing : Page → PageInfo → Prop
  | offset {number n total : Int} {count : Nat} {info : PageInfo}
      (h : PageInfo.ofNumber number n total count = .ok info) : Standing (.offset number n) info
  | cursor (token : Value) (n : Int) (next : Option String) :
      Standing (.cursor token n) (.ofTokens token.text? n next)

/-- A delivered page stands where the query has it. -/
theorem runPage_info (h : q.runPage db schema st = (.ok page, st')) :
    Standing q.effectivePage page.info := by
  obtain ⟨c, read, st₁, st₂, st₃, hc, hopens, -⟩ := runPage_parts h
  rw [← Query.page_compile hc]
  cases hopens with
  | numbered hpage _ hinfo =>
    rw [hpage]
    exact .offset hinfo
  | byCursor hpage _ hinfo =>
    rw [hpage, hinfo]
    exact .cursor _ _ _

end

-- ---------------------------------------------------------------------------
-- The links of a response
-- ---------------------------------------------------------------------------

namespace Service

variable {σ : Type} (service : Service) {db : Database σ} {items : List (String × String)}
  {path : String} {st st' : σ} {response : Response Row}

/-- What the response was made of. -/
theorem index_eq_ok {p : RequestParams}
    (h : service.index db p path st = (.ok response, st')) :
    ∃ q query page, service.query p = .ok q ∧ p.toItems = .ok query ∧
      q.runPage db service.schema st = (.ok page, st') ∧
      response = Response.answer q (page.withPath path query) path query := by
  unfold index running at h
  split at h
  case h_2 => cases congrArg Prod.fst h
  case h_1 q hq =>
    dsimp only at h
    split at h
    case h_1 => cases congrArg Prod.fst h
    case h_2 query hquery =>
      generalize hrun : q.runPage db service.schema st = r at h
      obtain ⟨result, st₁⟩ := r
      obtain ⟨hresponse, rfl⟩ := Prod.mk.inj h
      obtain ⟨page, rfl, rfl⟩ := map_eq_ok.mp hresponse
      exact ⟨q, query, page, hq, hquery, hrun, rfl⟩

/-- The link leads to the page: it is the path with a query string that is read as a request for
that page. -/
def LeadsTo (path : String) (link : Link) (page : Page) : Prop :=
  ∃ s q, link.href = path ++ "?" ++ s ∧
    service.query (.ofItems (Codec.decodeQuery s)) = .ok q ∧ q.effectivePage = page

variable {service}

/-- The link to a page leads to the one that its parameters ask for. -/
theorem leadsTo_link {q : Query} (hq : service.query (.ofItems items) = .ok q) {query : QueryItems}
    (hquery : (RequestParams.ofItems items).toItems = .ok query) {page : Page}
    (hpage : page.IsLinkable) (path title : String) :
    service.LeadsTo path ⟨page.url path query, title⟩
      (((ItemParams.ofItems items).linking page).pageFor service.settings) := by
  obtain ⟨s, hurl, hitems⟩ := ItemParams.ofItems_link hquery hpage path
  obtain ⟨q', hq'⟩ :=
    Query.exists_ofRequest_linking (ItemParams.isCollected_ofItems items) hq page
  refine ⟨s, q', hurl, ?_, Query.effectivePage_ofRequest hq'⟩
  rw [RequestParams.ofItems, hitems]
  exact hq'

/-- The pages to which the links of a numbered page lead. -/
structure NumberedLinks (leadsTo : Link → Page → Prop) (number n pages : Int) (links : Links) :
    Prop where
  self  : leadsTo links.self (.offset number n)
  first : ∃ link, links.first = some link ∧ leadsTo link (.offset 1 n)
  prev  : ∀ link ∈ links.prev, leadsTo link (.offset (number - 1) n)
  next  : ∀ link ∈ links.next, leadsTo link (.offset (number + 1) n)
  last  : ∃ link, links.last = some link ∧ leadsTo link (.offset (max pages 1) n)

/-- The pages to which the links of a cursor page lead. -/
structure CursorLinks (leadsTo : Link → Page → Prop) (token : Value) (n : Int)
    (next : Option String) (first : Page) (links : Links) : Prop where
  self  : leadsTo links.self (.cursor token n)
  first : ∃ link, links.first = some link ∧ leadsTo link first
  prev  : links.prev = none
  next  : ∀ link ∈ links.next, ∃ tk, next = some tk ∧ leadsTo link (.cursor (.text tk) n)
  last  : links.last = none

theorem numberedLinks {number n pages : Int} {query : QueryItems} {q : Query}
    (hq : service.query (.ofItems items) = .ok q)
    (hquery : (RequestParams.ofItems items).toItems = .ok query)
    (hp : q.effectivePage = .offset number n)
    (hpages : digitCount pages.natAbs ≤ maxIntegerDigits) (path : String) :
    NumberedLinks (service.LeadsTo path) number n pages (.ofNumber path number pages n query) := by
  have hpage : (ItemParams.ofItems items).pageFor service.settings = .offset number n :=
    (Query.effectivePage_ofRequest hq).symm.trans hp
  obtain ⟨hkind, hnumber, hn⟩ := ItemParams.pageFor_eq_offset hpage
  have hlink : ∀ (m : Int) (title : String), 1 ≤ m → digitCount m.natAbs ≤ maxIntegerDigits →
      service.LeadsTo path ⟨pageUrl path query m n, title⟩ (.offset m n) := by
    intro m title hm hdigits
    have hleads := leadsTo_link hq hquery (.offset hdigits hn.digitCount_le) path title
    rwa [ItemParams.pageFor_linking_offset hkind hm hn] at hleads
  have hfirst : 1 ≤ number := hnumber ▸ le_max_left _ _
  have hmax : ∀ m m' : Int, digitCount m.natAbs ≤ maxIntegerDigits →
      digitCount m'.natAbs ≤ maxIntegerDigits →
      digitCount (max m m').natAbs ≤ maxIntegerDigits := by
    intro m m' hm hm'
    rcases max_choice m m' with h | h
    · rwa [h]
    · rwa [h]
  have hone : digitCount (1 : Int).natAbs ≤ maxIntegerDigits := by decide
  have hself : digitCount number.natAbs ≤ maxIntegerDigits := by
    rw [hnumber]
    refine hmax _ _ hone ?_
    cases hasked : (ItemParams.ofItems items).page with
    | none => exact hone
    | some m => exact (ItemParams.isCollected_ofItems items).choice.1 m hasked
  refine ⟨hlink _ _ hfirst hself, ⟨_, rfl, hlink _ _ le_rfl hone⟩, fun link hprev => ?_,
    fun link hnext => ?_, ⟨_, rfl, hlink _ _ (le_max_right _ _) (hmax _ _ hpages hone)⟩⟩
  · obtain ⟨hless, hprev⟩ := Option.ite_none_right_eq_some.mp hprev
    obtain rfl := Option.some.inj hprev
    exact hlink _ _ (by omega) ((digitCount_mono (by omega)).trans hself)
  · obtain ⟨hless, hnext⟩ := Option.ite_none_right_eq_some.mp hnext
    obtain rfl := Option.some.inj hnext
    exact hlink _ _ (by omega) ((digitCount_mono (by omega)).trans hpages)

theorem cursorLinks {token : Value} {n : Int} {next : Option String} {query : QueryItems}
    {q : Query} (hq : service.query (.ofItems items) = .ok q)
    (hquery : (RequestParams.ofItems items).toItems = .ok query)
    (hp : q.effectivePage = .cursor token n) (path : String) :
    CursorLinks (service.LeadsTo path) token n next
      ((ItemParams.ofItems items).firstPage service.settings n)
      (.ofCursor path n (.optional .text token.text?) (.optional .text next) query) := by
  have hpage : (ItemParams.ofItems items).pageFor service.settings = .cursor token n :=
    (Query.effectivePage_ofRequest hq).symm.trans hp
  obtain ⟨hkind, rfl, hn⟩ := ItemParams.pageFor_eq_cursor hpage
  have hlink : ∀ (tk : Option String) (title : String), tk ≠ some "" →
      ItemParams.kindFor service.settings (ItemParams.ofItems items).paging tk none = .cursor →
      service.LeadsTo path ⟨cursorUrl path query (.optional .text tk) n, title⟩
        (.cursor (.optional .text tk) n) := by
    intro tk title htk hcursor
    have hleads := leadsTo_link hq hquery (.cursor htk hn.digitCount_le) path title
    rwa [ItemParams.pageFor_linking_cursor tk hn, hcursor] at hleads
  rw [Value.text?_optional]
  refine ⟨hlink _ _ (ItemParams.isCollected_ofItems items).choice.2 (ItemParams.kindFor_self hkind),
    ⟨_, rfl, ?_⟩, rfl, fun link hnext => ?_, rfl⟩
  · have hnone : (Page.cursor (.optional .text none) n).IsLinkable :=
      .cursor (by simp) hn.digitCount_le
    rw [← ItemParams.pageFor_linking_first hkind hn]
    exact leadsTo_link hq hquery hnone path "First page"
  · obtain ⟨hsome, hnext⟩ := Option.ite_none_left_eq_some.mp hnext
    obtain rfl := Option.some.inj hnext
    cases next with
    | none => exact absurd rfl hsome
    | some tk =>
      have htk : tk ≠ "" := fun hblank => hsome (beq_iff_eq.mpr hblank)
      exact ⟨tk, rfl, hlink (some tk) _ (by simpa using htk) (ItemParams.kindFor_next hkind tk)⟩

/-- The links of a response lead to pages of the kind and size of the page that carries them; but
the link from a cursor page to the first one does so only if the request names the kind, or the
settings choose cursor pages. -/
theorem index_links (h : service.index db (.ofItems items) path st = (.ok response, st')) :
    ∃ q links, service.query (.ofItems items) = .ok q ∧ response.links = some links ∧
      response.info.kind = q.effectivePage.kind ∧ response.info.perPage = q.effectivePage.perPage ∧
      match q.effectivePage with
      | .offset number n =>
        NumberedLinks (service.LeadsTo path) number n (response.info.totalPages.getD 0) links
      | .cursor token n  =>
        CursorLinks (service.LeadsTo path) token n response.info.nextCursor
          ((ItemParams.ofItems items).firstPage service.settings n) links := by
  obtain ⟨q, query, page, hq, hquery, hrun, rfl⟩ := index_eq_ok service h
  obtain ⟨data, info, included, warnings⟩ := page
  have hstanding : Standing q.effectivePage info := runPage_info hrun
  clear hrun
  refine ⟨q, _, hq, rfl, ?_⟩
  generalize hpage : q.effectivePage = p at hstanding
  cases hstanding with
  | @offset number n total count info hinfo =>
    obtain ⟨pages, hpages, hinfo⟩ := bind_eq_ok.mp hinfo
    obtain rfl := Except.ok.inj hinfo
    have hlinks := numberedLinks hq hquery hpage (digitCount_pageCount hpages) path
    obtain ⟨-, hnumber, -⟩ :=
      ItemParams.pageFor_eq_offset ((Query.effectivePage_ofRequest hq).symm.trans hpage)
    have hne : number ≠ 0 := by omega
    refine ⟨rfl, rfl, ?_⟩
    show NumberedLinks _ number n pages
      (.ofNumber path (if number = 0 then 1 else number) pages n query)
    rwa [if_neg hne]
  | cursor token n next =>
    exact ⟨rfl, rfl, cursorLinks hq hquery hpage path⟩

end Service

-- ---------------------------------------------------------------------------
-- A cursor page of a list in numbered pages
-- ---------------------------------------------------------------------------

/-- Invoices, in pages by number unless a request has it otherwise. -/
def Service.invoices : Service where
  schema   := []
  entity   :=
    { table            := "invoices"
      filterFields     := []
      sortFields       := []
      selectFields     := ["id"]
      includePaths     := []
      defaultSort      := none
      defaultSelection := none
      searchFields     := []
      primaryKey       := "id"
      softDelete       := none
      types            := [("id", .integer)]
      relations        := [] }
  settings := { Settings.standard with defaultPaging := .offset }

/-- A request for the invoices after a cursor. -/
def laterInvoices : List (String × String) := [("cursor", "!"), ("per_page", "2")]

set_option maxRecDepth 4000 in
/-- The page itself can be asked for again; the link to the first page leads to another kind. -/
theorem Service.index_links_invoices :
    ∃ response st' links first,
      Service.invoices.index Script.database (.ofItems laterInvoices) "/invoices" ⟨[], []⟩ =
        (.ok response, st') ∧
      response.links = some links ∧ links.first = some first ∧
      Service.invoices.LeadsTo "/invoices" links.self (.cursor (.text "!") 2) ∧
      Service.invoices.LeadsTo "/invoices" first (.offset 1 2) := by
  obtain ⟨response, st', hindex⟩ : ∃ response st',
      Service.invoices.index Script.database (.ofItems laterInvoices) "/invoices" ⟨[], []⟩ =
        (.ok response, st') := by
    have hok : (Service.invoices.index Script.database (.ofItems laterInvoices) "/invoices"
        ⟨[], []⟩).1.isOk = true := by decide +kernel
    generalize Service.invoices.index Script.database (.ofItems laterInvoices) "/invoices"
      ⟨[], []⟩ = r at hok
    obtain ⟨result, st'⟩ := r
    cases result with
    | ok response => exact ⟨response, st', rfl⟩
    | error fail => cases hok
  obtain ⟨q, links, hq, hlinks, -, -, hpages⟩ := Service.index_links hindex
  have hpage : q.effectivePage = .cursor (.text "!") 2 :=
    Query.effectivePage_ofRequest hq
  rw [hpage] at hpages
  obtain ⟨hself, ⟨first, hsome, hfirst⟩, -, -, -⟩ := hpages
  exact ⟨response, st', links, first, hindex, hlinks, hsome, hself, hfirst⟩

end ListQuery
