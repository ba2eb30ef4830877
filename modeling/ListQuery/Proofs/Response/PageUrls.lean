import ListQuery.Proofs.Codec.QueryString
import ListQuery.Proofs.Execution.Resume
import ListQuery.Proofs.Paging.PageCount
import ListQuery.Proofs.Query.Change
import ListQuery.Response.Basic

/-!
# URLs and links of a page

A page that is put on a path names other pages by URL, and the response that carries it names them
again by link. The URLs come from what the page says of the pages next to it, the links from its own
number and the number of all pages, or from its cursors. Both name the same pages, also on a list
without rows and beyond the last page: where one is missing the other one is, and where both are
there they repeat the request and choose the same page.

* `RepeatsQuery` — what a URL repeats;
* `SameUrl` — a URL and a link to one page;
* `Page.urls_agree` — all URLs and links of a page.
-/

namespace ListQuery

open Number

variable {path : String} {query : QueryItems} {number n pages : Int} {info : PageInfo}

-- ---------------------------------------------------------------------------
-- What a URL repeats
-- ---------------------------------------------------------------------------

/-- The URL is the path, and behind it a query string that is read as the items of the request in
their order, less those that choose a page, and then those that choose this one. -/
def RepeatsQuery (path : String) (query : QueryItems) (choice : List (String × String))
    (url : String) : Prop :=
  ∃ s, url = path ++ "?" ++ s ∧
    Codec.decodeQuery s =
      (query.filter fun i => i.1 ∉ navigationKeys).map (fun i => (i.1, i.2.display)) ++ choice

/-- The items that choose a page by number. -/
def numberChoice (number n : Int) : List (String × String) :=
  [("page", intText number), ("per_page", intText n)]

/-- The items that choose the page after a cursor. -/
def tokenChoice (n : Int) (token : String) : List (String × String) :=
  [("cursor", token), ("per_page", intText n)]

theorem repeats_navigationUrl (path : String) (query navigation : QueryItems)
    (hnull : ∀ i ∈ navigation, i.2.isNull = false) :
    RepeatsQuery path query (navigation.map fun i => (i.1, i.2.display))
      (navigationUrl path query navigation) := by
  refine ⟨_, rfl, ?_⟩
  have hall : navigation.filter (fun i => !i.2.isNull) = navigation :=
    List.filter_eq_self.mpr fun i hi => by simp [hnull i hi]
  rw [Codec.decodeQuery_encodeQuery, navigationItems, hall, List.map_append]
  simp

theorem repeats_pageUrl (path : String) (query : QueryItems) (number n : Int) :
    RepeatsQuery path query (numberChoice number n) (pageUrl path query number n) :=
  repeats_navigationUrl path query _ (by simp [Value.isNull])

theorem repeats_cursorUrl (path : String) (query : QueryItems) (token : String) (n : Int) :
    RepeatsQuery path query (tokenChoice n token) (cursorUrl path query (.text token) n) :=
  repeats_navigationUrl path query _ (by simp [Value.isNull])

-- ---------------------------------------------------------------------------
-- A URL and a link to one page
-- ---------------------------------------------------------------------------

/-- The URL that a page has for another one, and the link that the response has for it: neither is
there, or both are the same URL, which repeats the request and chooses that page. -/
inductive SameUrl (path : String) (query : QueryItems) :
    Option (List (String × String)) → Option String → Option Link → Prop
  | absent : SameUrl path query none none none
  | present {choice : List (String × String)} {url : String} {link : Link}
      (hlink : link.href = url) (hurl : RepeatsQuery path query choice url) :
      SameUrl path query (some choice) (some url) (some link)

/-- The URLs of a page by number. -/
structure SameNumberedUrls (path : String) (query : QueryItems) (number n pages : Int)
    (info : PageInfo) (links : Links) : Prop where
  first : SameUrl path query (some (numberChoice 1 n)) info.firstUrl links.first
  prev  : SameUrl path query (if 1 < number then some (numberChoice (number - 1) n) else none)
    info.prevUrl links.prev
  next  : SameUrl path query (if number < pages then some (numberChoice (number + 1) n) else none)
    info.nextUrl links.next
  last  : SameUrl path query (some (numberChoice (max pages 1) n)) info.lastUrl links.last

/-- The URLs of a cursor page. The one before it is the page itself, which was asked for with the
cursor. -/
structure SameCursorUrls (path : String) (query : QueryItems) (token next : Option String) (n : Int)
    (info : PageInfo) (links : Links) : Prop where
  next : SameUrl path query ((PageInfo.nonEmpty? next).map (tokenChoice n)) info.nextUrl links.next
  prev : SameUrl path query ((PageInfo.nonEmpty? token).map (tokenChoice n)) info.prevUrl
    ((PageInfo.nonEmpty? token).map fun _ => links.self)

/-- The URL that is made for a neighbour of a page by number, and the link to it. -/
theorem sameUrl_neighbour (there : Prop) [Decidable there] (number n : Int) (old title : String) :
    SameUrl path query (if there then some (numberChoice number n) else none)
      (match if there then some number else none with
        | some m => some (pageUrl path query m n)
        | none   => if there then some old else none)
      (if there then some ⟨pageUrl path query number n, title⟩ else none) := by
  by_cases hthere : there
  · simp only [if_pos hthere]
    exact .present rfl (repeats_pageUrl path query number n)
  · simp only [if_neg hthere]
    exact .absent

/-- A cursor names a page, or it counts as none. -/
theorem namesPage_or_isVoid (token : Option String) :
    (∃ tk, token = some tk ∧ PageInfo.nonEmpty? token = some tk ∧
        (Value.optional .text token).isVoid = false) ∨
      PageInfo.nonEmpty? token = none ∧ (Value.optional .text token).isVoid = true := by
  cases token with
  | none => exact .inr ⟨rfl, rfl⟩
  | some tk =>
    by_cases hempty : tk = ""
    · exact .inr (by simp [PageInfo.nonEmpty?, Value.optional, Value.isVoid, hempty])
    · exact .inl ⟨tk, by simp [PageInfo.nonEmpty?, Value.optional, Value.isVoid, hempty]⟩

-- ---------------------------------------------------------------------------
-- All URLs and links
-- ---------------------------------------------------------------------------

/-- The URLs of a page by number are its links. -/
theorem sameNumberedUrls {total : Int} {count : Nat} (hnumber : 1 ≤ number) (htotal : 0 ≤ total)
    (hpages : pageCount total n = .ok pages)
    (hinfo : PageInfo.ofNumber number n total count = .ok info) :
    SameNumberedUrls path query number n pages (info.rebase path query)
      (.ofPage path (info.rebase path query) query) := by
  have hpos := pageCount_nonneg htotal hpages
  rw [PageInfo.ofNumber, hpages] at hinfo
  obtain rfl := Except.ok.inj hinfo
  have hself : (if number = 0 then 1 else number) = number := if_neg (by omega)
  have hlast : (if pages = 0 then 1 else pages) = max pages 1 := by
    split <;> omega
  constructor
  case first => exact .present rfl (repeats_pageUrl path query 1 n)
  case last =>
    simp only [PageInfo.rebase, Links.ofPage, Links.ofNumber, hlast]
    exact .present rfl (repeats_pageUrl path query (max pages 1) n)
  case prev =>
    simp only [PageInfo.rebase, Links.ofPage, Links.ofNumber, hself]
    exact sameUrl_neighbour (1 < number) (number - 1) n _ _
  case next =>
    simp only [PageInfo.rebase, Links.ofPage, Links.ofNumber, hself, decide_eq_true_eq]
    exact sameUrl_neighbour (number < pages) (number + 1) n _ _

/-- The URLs of a cursor page are its links. -/
theorem sameCursorUrls (token next : Option String) :
    SameCursorUrls path query token next n ((PageInfo.ofTokens token n next).rebase path query)
      (.ofPage path ((PageInfo.ofTokens token n next).rebase path query) query) := by
  constructor
  case next =>
    simp only [PageInfo.rebase, PageInfo.ofTokens, Links.ofPage, Links.ofCursor]
    obtain ⟨tk, rfl, hnext, hvoid⟩ | ⟨hnext, hvoid⟩ := namesPage_or_isVoid next
    · simp only [hnext, hvoid]
      exact .present rfl (repeats_cursorUrl path query tk n)
    · simp only [hnext, hvoid]
      exact .absent
  case prev =>
    simp only [PageInfo.rebase, PageInfo.ofTokens, Links.ofPage, Links.ofCursor]
    obtain ⟨tk, rfl, htoken, -⟩ | ⟨htoken, -⟩ := namesPage_or_isVoid token
    · simp only [htoken]
      exact .present rfl (repeats_cursorUrl path query tk n)
    · simp only [htoken]
      exact .absent

/-- A page of rows, of the kind that was asked for. -/
def Page.deliver {α : Type} (p : Page) (total : Int) (data : List α) (next : Value) :
    Except Failure (PageOf α) :=
  match p with
  | .offset number n => PageOf.ofNumber number n total data
  | .cursor token n  => PageOf.ofCursor token n data next

/-- The URLs and links of a page on a path that repeat the parameters of the request. -/
def Page.SameUrls (path : String) (query : QueryItems) (total : Int) (next : Value)
    (info : PageInfo) (links : Links) : Page → Prop
  | .offset number n =>
    ∃ pages, pageCount total n = .ok pages ∧ SameNumberedUrls path query number n pages info links
  | .cursor token n  => SameCursorUrls path query token.text? next.text? n info links

/-- The response that carries a delivered page on a path has, for every URL of the page, a link with
that URL, and no other links to pages next to it; all of them repeat the request. -/
theorem Page.urls_agree {α : Type} {p : Page} {total : Int} {data : List α} {next : Value}
    {page : PageOf α} (hp : p.IsBounded) (htotal : 0 ≤ total)
    (h : p.deliver total data next = .ok page) (path : String) (query : QueryItems) (q : Query) :
    ∃ links, (Response.answer q (page.withPath path query) path query).links = some links ∧
      p.SameUrls path query total next (page.withPath path query).info links := by
  refine ⟨_, rfl, ?_⟩
  cases p with
  | offset number n =>
    obtain ⟨info, hinfo, hpage⟩ := bind_eq_ok.mp h
    obtain rfl := Except.ok.inj hpage
    obtain ⟨pages, hpages, -⟩ := bind_eq_ok.mp hinfo
    exact ⟨pages, hpages, sameNumberedUrls hp.1 htotal hpages hinfo⟩
  | cursor token n =>
    obtain ⟨info, hinfo, hpage⟩ := bind_eq_ok.mp h
    obtain rfl := Except.ok.inj hpage
    rw [PageInfo.ofCursor] at hinfo
    split at hinfo
    case h_1 =>
      obtain rfl := Except.ok.inj hinfo
      exact sameCursorUrls token.text? next.text?
    case h_2 => cases hinfo

/-- Page seven of a list that ends on page two, where there is no next page, and a cursor page that is
the last one. -/
theorem Page.urls_agree_atEnd :
    (∃ page : PageOf Row, (Page.offset 7 15).deliver 30 [] .null = .ok page ∧
      ∃ links, (Response.answer .numbered
          (page.withPath "/items" [("filter[id]", .int 3), ("page", .int 7)]) "/items"
          [("filter[id]", .int 3), ("page", .int 7)]).links = some links ∧
        (Page.offset 7 15).SameUrls "/items" [("filter[id]", .int 3), ("page", .int 7)] 30 .null
          (page.withPath "/items" [("filter[id]", .int 3), ("page", .int 7)]).info links) ∧
    ∃ page : PageOf Row, (Page.cursor (.text "abc") 2).deliver 0 [] .null = .ok page ∧
      ∃ links, (Response.answer .numbered (page.withPath "/items" [("sort", .text "id")]) "/items"
          [("sort", .text "id")]).links = some links ∧
        (Page.cursor (.text "abc") 2).SameUrls "/items" [("sort", .text "id")] 0 .null
          (page.withPath "/items" [("sort", .text "id")]).info links :=
  ⟨⟨_, rfl, Page.urls_agree (by simp [IsBounded, maxPerPage]) (by decide) rfl _ _ _⟩,
    ⟨_, rfl, Page.urls_agree (by simp [IsBounded, maxPerPage]) (by decide) rfl _ _ _⟩⟩

end ListQuery
