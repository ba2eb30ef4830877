import ListQuery.Execution.Script
import ListQuery.Proofs.Execution.CursorPage
import ListQuery.Proofs.Execution.Resume
import ListQuery.Proofs.Query.OfItems
import ListQuery.Proofs.Query.PageSize

/-!
# Requests within the cap

However a request spells the size of a page, it is within the cap of the settings and that of pages
as such. The statement of the page is cut to that size, with one row more when the page is found by
cursor, and what is delivered of the answer is a page of that size, with a cursor only if there was
that one row more.

* `Page.Cuts`, `cuts_compile` — the cut of the compiled statement;
* `answers_of_opens` — what the database answered;
* `ofRequest_capped` — a request, its statement and its page.
-/

namespace ListQuery

open Sql Database

/-- A page counted from one, of a size within the cap. -/
def Settings.Caps (s : Settings) : Page → Prop
  | .offset number n => 1 ≤ number ∧ s.Within n
  | .cursor _ n      => s.Within n

/-- The cut of a statement that reads a page: the rows of the page after those before it, or the
rows of the page and one more. -/
def Page.Cuts (st : Statement) : Page → Prop
  | .offset number n => st.limit = some n ∧ st.offset = some ((number - 1) * n)
  | .cursor _ n      => st.limit = some (n + 1) ∧ st.offset = none

theorem ItemParams.caps_pageFor (s : Settings) (p : ItemParams) : s.Caps (p.pageFor s) := by
  have hsize := s.within_clamped (p.perPage.getD s.defaultPerPage)
  unfold pageFor Page.ofKind
  cases kindFor s p.paging p.cursor p.page with
  | offset => exact ⟨le_max_left 1 _, hsize⟩
  | cursor => exact hsize

namespace Query

variable {σ : Type} {db : Database σ} {schema : Schema} {q : Query} {st st' : σ}
  {page : PageOf Row} {c : Compiled}

/-- The statement of a page is cut as the page has it. -/
theorem cuts_compile (h : q.compile schema true = .ok c) : q.effectivePage.Cuts c.select := by
  cases hp : q.effectivePage with
  | offset number n =>
    obtain ⟨tables, conditions, -, -, rfl⟩ := compile_numbered_eq_ok hp |>.mp h
    exact ⟨rfl, rfl⟩
  | cursor token n =>
    obtain ⟨tables, conditions, after, warnings, -, -, -, rfl⟩ := compile_cursor_eq_ok hp |>.mp h
    refine ⟨rfl, ?_⟩
    show (after.foldl Statement.restrict _).offset = none
    rw [foldl_restrict]
    rfl

-- ---------------------------------------------------------------------------
-- What the database answers
-- ---------------------------------------------------------------------------

theorem rows_of_run_readRows {s : Statement} {answer : List Row}
    (h : (db.readRows s).run st = (.ok answer, st')) : db.rows s st = (.ok answer, st') := by
  rw [run_readRows] at h
  cases hcheck : s.check with
  | error e =>
    rw [hcheck] at h
    cases (Prod.mk.inj h).1
  | ok => simpa [hcheck] using h

theorem number_of_run_readNumber {s : Statement} {n : Int}
    (h : (db.readNumber s).run st = (.ok n, st')) : db.number s st = (.ok n, st') := by
  rw [run_readNumber] at h
  cases hcheck : s.check with
  | error e =>
    rw [hcheck] at h
    cases (Prod.mk.inj h).1
  | ok => simpa [hcheck] using h

/-- The rows that are fetched are those of the answer, each with its joined columns folded. -/
theorem exists_answer_of_fetch {joins : List (String × EagerJoin)} {s : Statement}
    {read : List Row} (h : (fetch db joins s).run st = (.ok read, st')) :
    ∃ answer, db.rows s st = (.ok answer, st') ∧ answer.mapM (Row.fold joins) = .ok read := by
  rw [fetch, run_bind_eq_ok] at h
  obtain ⟨answer, st₁, hanswer, hfold⟩ := h
  obtain ⟨hread, rfl⟩ := Prod.mk.inj hfold
  exact ⟨answer, rows_of_run_readRows hanswer, hread⟩

/-- What the database answers to the statement of a page. Pages by number have their total read
first. -/
inductive Answers (db : Database σ) (st : σ) (c : Compiled) (answer : List Row) : Prop
  | numbered {number n total : Int} {st₁ st₂ : σ} (hpage : c.page = .offset number n)
      (htotal : db.number c.count (db.connect st) = (.ok total, st₁))
      (hrows : db.rows c.select st₁ = (.ok answer, st₂))
  | byCursor {token : Value} {n : Int} {st₁ : σ} (hpage : c.page = .cursor token n)
      (hrows : db.rows c.select (db.connect st) = (.ok answer, st₁))

/-- The statement of a page that was delivered was answered, and the rows of the answer folded. -/
theorem answers_of_opens {read : List Row} {st₁ st₂ : σ}
    (hopens : Opens db c (db.connect st) read page st₁)
    (hread : (fetch db c.joins c.select).run st₁ = (.ok read, st₂)) :
    ∃ answer, Answers db st c answer ∧ answer.mapM (Row.fold c.joins) = .ok read := by
  obtain ⟨answer, hanswer, hfold⟩ := exists_answer_of_fetch hread
  refine ⟨answer, ?_, hfold⟩
  cases hopens with
  | numbered hpage htotal => exact .numbered hpage (number_of_run_readNumber htotal) hanswer
  | byCursor hpage => exact .byCursor hpage hanswer

-- ---------------------------------------------------------------------------
-- Pages within their size
-- ---------------------------------------------------------------------------

/-- The page has no more rows than its size, if the answer is within the limit of its statement,
and a cursor exactly if the answer has more. The cursor has the key values of the last row. -/
structure KeepsToSize (p : Page) (keys : List SortKey) (c : Compiled) (answer : List Row)
    (page : PageOf Row) : Prop where
  size : (∀ limit ∈ c.select.limit, (answer.length : Int) ≤ limit) →
    (page.data.length : Int) ≤ p.perPage
  next : page.info.nextCursor.isSome = true ↔ p.isCursor = true ∧ p.perPage < answer.length
  last : ∀ token ∈ page.info.nextCursor, ∃ answered row,
    (answer.take p.perPage.toNat).getLast? = some answered ∧
      Row.fold c.joins answered = .ok row ∧
      page.data.getLast? = some (row.stripHidden c.hidden) ∧
      Cursor.encode (.record (Keyset.valuesOf keys row.at)) = .ok token

theorem exists_getLast?_of_forall₂ {α β : Type} {R : α → β → Prop} {as : List α} {bs : List β}
    {b : β} (h : List.Forall₂ R as bs) (hb : bs.getLast? = some b) :
    ∃ a, as.getLast? = some a ∧ R a b := by
  rw [List.getLast?_eq_head?_reverse] at hb ⊢
  have hreverse := List.forall₂_reverse_iff.mpr h
  generalize as.reverse = as' at hreverse ⊢
  generalize bs.reverse = bs' at hreverse hb
  cases hreverse with
  | nil => cases hb
  | cons hab _ =>
    obtain rfl := Option.some.inj hb
    exact ⟨_, rfl, hab⟩

/-- A page by number has no cursor. -/
theorem nextCursor_ofNumber {number n total : Int} {count : Nat} {info : PageInfo}
    (h : PageInfo.ofNumber number n total count = .ok info) : info.nextCursor = none := by
  obtain ⟨pages, -, hinfo⟩ := bind_eq_ok.mp h
  obtain rfl := Except.ok.inj hinfo
  rfl

theorem keepsToSize_numbered {number n : Int} {answer read : List Row}
    (hcut : (Page.offset number n).Cuts c.select)
    (hfold : answer.mapM (Row.fold c.joins) = .ok read)
    (hdata : page.data = read.map (Row.stripHidden c.hidden))
    (hnext : page.info.nextCursor = none) :
    KeepsToSize (.offset number n) q.keys c answer page where
  size hlimit := by
    rw [hdata, List.length_map, ← (mapM_eq_ok.mp hfold).length_eq]
    exact hlimit n hcut.1
  next := by simp [hnext, Page.isCursor, Page.kind]
  last := by simp [hnext]

theorem keepsToSize_cursor {token : Value} {n : Int} {answer read : List Row} (hn : 1 ≤ n)
    (hkeys : c.keyColumns = q.keys.map (·.field))
    (hfold : answer.mapM (Row.fold c.joins) = .ok read)
    (hcut : CursorPage c.hidden c.keyColumns n read page) :
    KeepsToSize (.cursor token n) q.keys c answer page := by
  have hlength := (mapM_eq_ok.mp hfold).length_eq
  obtain ⟨hdata, hnext⟩ := hcut
  rw [hkeys] at hnext
  have hsize : (page.data.length : Int) ≤ n := by
    rw [hdata, List.length_map, List.length_take]
    omega
  by_cases hmore : n < read.length
  · rw [if_pos hmore] at hnext
    have hlong : 0 < (read.take n.toNat).length := by
      rw [List.length_take]
      omega
    have hrow := List.getLast?_eq_some_getLast (List.ne_nil_of_length_pos hlong)
    generalize (read.take n.toNat).getLast _ = row at hrow
    obtain ⟨answered, hanswered, hjoined⟩ :=
      exists_getLast?_of_forall₂ (List.forall₂_take n.toNat (mapM_eq_ok.mp hfold)) hrow
    obtain ⟨text, htext, hencode⟩ := nextCursor_eq_ok hrow hnext
    refine ⟨fun _ => hsize, ?_, ?_⟩
    · rw [htext]
      exact iff_of_true rfl ⟨rfl, hlength ▸ hmore⟩
    · intro t ht
      obtain rfl : t = text := Option.some.inj (ht.symm.trans htext)
      refine ⟨answered, row, hanswered, hjoined, ?_, hencode⟩
      rw [hdata, List.getLast?_map, hrow]
      rfl
  · rw [if_neg hmore] at hnext
    have hnone : page.info.nextCursor = none := (Except.ok.inj hnext).symm
    refine ⟨fun _ => hsize, ?_, by simp [hnone]⟩
    rw [hnone]
    exact iff_of_false Bool.false_ne_true fun h => hmore (hlength ▸ h.2)

/-- A request that is within the rules, whatever it asks for: its page is within the cap, the
statement of the page is cut to that size, and so is what is delivered. -/
theorem ofRequest_capped {e : Entity} {s : Settings} {items : List (String × String)}
    (h : ofRequest e s (RequestParams.ofItems items) = .ok q) :
    s.Caps q.effectivePage ∧
      (∀ schema c, q.compile schema true = .ok c → q.effectivePage.Cuts c.select) ∧
      ∀ {σ : Type} (db : Database σ) (schema : Schema) (st : σ) (page : PageOf Row) (st' : σ),
        q.runPage db schema st = (.ok page, st') →
          ∃ c answer, q.compile schema true = .ok c ∧ Answers db st c answer ∧
            KeepsToSize q.effectivePage q.keys c answer page := by
  have hcaps : s.Caps q.effectivePage := by
    rw [effectivePage_ofRequest (p := .ofItems items) h]
    exact ItemParams.caps_pageFor s _
  refine ⟨hcaps, fun schema c hc => cuts_compile hc, ?_⟩
  intro σ db schema st page st' hrun
  obtain ⟨c, read, st₁, st₂, st₃, hc, hopens, hread, -, hdata, -⟩ := runPage_parts hrun
  obtain ⟨answer, hanswer, hfold⟩ := answers_of_opens hopens hread
  have hpage := page_compile hc
  have hcut := cuts_compile hc
  refine ⟨c, answer, hc, hanswer, ?_⟩
  rw [← hpage] at hcut hcaps ⊢
  cases hopens with
  | numbered hnumbered _ hinfo =>
    rw [hnumbered] at hcut hdata ⊢
    exact keepsToSize_numbered hcut hfold hdata (nextCursor_ofNumber hinfo)
  | byCursor hcursor hnext hinfo =>
    have hp := hpage.symm.trans hcursor
    obtain ⟨tables, conditions, after, warnings, -, -, -, hcompiled⟩ :=
      compile_cursor_eq_ok hp |>.mp hc
    rw [hcursor] at hcaps hdata ⊢
    refine keepsToSize_cursor hcaps.1 (by rw [hcompiled]; rfl) hfold ⟨hdata, ?_⟩
    rw [hnext, hinfo]
    rfl

end Query

-- ---------------------------------------------------------------------------
-- A request for more than there is to have
-- ---------------------------------------------------------------------------

/-- A request for the page before the first one, with five hundred rows, and by cursor. -/
def greedyItems : List (String × String) :=
  [("page", "-3"), ("per_page", "500"), ("pagination_type", "cursor")]

set_option maxRecDepth 4000 in
/-- One row is delivered of two that were read, with a cursor to the second one. -/
theorem Query.ofRequest_capped_greedy :
    ∃ q page st' c answer,
      ofRequest .numbered { maxPerPage := 1 } (RequestParams.ofItems greedyItems) = .ok q ∧
      q.runPage Script.database [] .numbered = (.ok page, st') ∧
      page.info.nextCursor = some "eyJpZCI6MX0" ∧ q.effectivePage.perPage = 1 ∧
      q.compile [] true = .ok c ∧ q.effectivePage.Cuts c.select ∧
      Answers Script.database .numbered c answer ∧
      KeepsToSize q.effectivePage q.keys c answer page := by
  obtain ⟨q, hq, hsize, hrun⟩ : ∃ q, ofRequest .numbered { maxPerPage := 1 }
      (RequestParams.ofItems greedyItems) = .ok q ∧ q.effectivePage.perPage = 1 ∧
      (q.runPage Script.database [] .numbered).1.toOption.any
        (·.info.nextCursor == some "eyJpZCI6MX0") = true :=
    ⟨_, rfl, rfl, by decide +kernel⟩
  obtain ⟨hcaps, hcuts, hkeeps⟩ := Query.ofRequest_capped hq
  generalize hresult : q.runPage Script.database [] .numbered = result at hrun
  obtain ⟨_ | page, st'⟩ := result
  · cases hrun
  · obtain ⟨c, answer, hc, hanswer, hkept⟩ := hkeeps Script.database [] .numbered page st' hresult
    exact ⟨q, page, st', c, answer, hq, hresult, eq_of_beq hrun, hsize, hc, hcuts [] c hc, hanswer,
      hkept⟩

end ListQuery
