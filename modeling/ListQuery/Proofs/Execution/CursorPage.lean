import ListQuery.Execution.Run
import ListQuery.Proofs.Compiled
import ListQuery.Proofs.Condition.Keyset
import ListQuery.Proofs.Execution.Session

/-!
# What a page is made of

A page is compiled and read, and what is loaded for its rows is put next to them. A page by cursor
leaves out the last row if it is beyond the page, and has a cursor with the key values of the last
row that stays. In a run over rows what is loaded is put on them.

* `runPage_parts`, `runPage_cursor` — the parts of a page;
* `rowsWork_parts` — the parts of a run over rows;
* `nextCursor_eq_ok` — the key values that a cursor is made of.
-/

namespace ListQuery

open Sql Database

variable {σ : Type} {db : Database σ} {schema : Schema} {q : Query} {st st' : σ}
  {page : PageOf Row} {token : Value} {n : Int}

-- ---------------------------------------------------------------------------
-- Parts of a page
-- ---------------------------------------------------------------------------

/-- The rows of a page, of those that were read. -/
def Page.kept : Page → List Row → List Row
  | .offset _ _, rows => rows
  | .cursor _ n, rows => rows.take n.toNat

/-- How the rows of a page come to be read, and where the page stands. A page by number has its
total read first; a page by cursor ends with a cursor if more rows were read than it holds. -/
inductive Opens (db : Database σ) (c : Compiled) (st : σ) (read : List Row) (page : PageOf Row) :
    σ → Prop
  | numbered {number n total : Int} {st₁ : σ} (hpage : c.page = .offset number n)
      (htotal : (db.readNumber c.count).run st = (.ok total, st₁))
      (hinfo : PageInfo.ofNumber number n total page.data.length = .ok page.info) :
    Opens db c st read page st₁
  | byCursor {token : Value} {n : Int} {next : Option String} (hpage : c.page = .cursor token n)
      (hnext : (if n < read.length then nextCursor c.keyColumns (read.take n.toNat) else .ok none) =
        .ok next)
      (hinfo : page.info = .ofTokens token.text? n next) :
    Opens db c st read page st

theorem PageInfo.ofCursor_eq_ok {next : Option String} {info : PageInfo}
    (h : PageInfo.ofCursor token n (.optional .text next) = .ok info) :
    info = .ofTokens token.text? n next := by
  rw [ofCursor] at h
  split at h
  case h_1 =>
    obtain rfl := Except.ok.inj h
    rw [Value.text?_optional]
  case h_2 => cases h

/-- A page that was delivered was compiled, read and cut, and its includes were loaded. -/
theorem runPage_parts (h : q.runPage db schema st = (.ok page, st')) :
    ∃ c read st₁ st₂ st₃, q.compile schema true = .ok c ∧
      Opens db c (db.connect st) read page st₁ ∧
      (Query.fetch db c.joins c.select).run st₁ = (.ok read, st₂) ∧
      (q.loadIncluded db schema (c.page.kept read)).run st₂ = (.ok page.included, st₃) ∧
      page.data = (c.page.kept read).map (Row.stripHidden c.hidden) ∧
      page.warnings = c.warnings := by
  obtain ⟨st₄, hwork, -⟩ := withConnection_eq_ok db |>.mp h
  rw [Query.pageWork, run_pureStep_bind_eq_ok] at hwork
  obtain ⟨c, hc, hwork⟩ := hwork
  cases hpage : c.page with
  | offset number n =>
    rw [hpage] at hwork
    dsimp only at hwork
    rw [Query.numberedPage, run_bind_eq_ok] at hwork
    obtain ⟨total, st₁, htotal, hwork⟩ := hwork
    rw [run_bind_eq_ok] at hwork
    obtain ⟨read, st₂, hread, hwork⟩ := hwork
    rw [run_bind_eq_ok] at hwork
    obtain ⟨included, st₃, hincluded, hwork⟩ := hwork
    rw [run_pureStep_bind_eq_ok] at hwork
    obtain ⟨made, hmade, hwork⟩ := hwork
    obtain ⟨info, hinfo, hmade⟩ := bind_eq_ok.mp hmade
    obtain rfl := Except.ok.inj hmade
    obtain rfl := Except.ok.inj (Prod.mk.inj hwork).1
    refine ⟨c, read, st₁, st₂, st₃, hc, .numbered hpage htotal hinfo, hread, ?_⟩
    rw [hpage]
    exact ⟨hincluded, rfl, rfl⟩
  | cursor token n =>
    rw [hpage] at hwork
    dsimp only at hwork
    rw [Query.cursorPage, run_bind_eq_ok] at hwork
    obtain ⟨read, st₂, hread, hwork⟩ := hwork
    rw [run_pureStep_bind_eq_ok] at hwork
    obtain ⟨next, hnext, hwork⟩ := hwork
    rw [run_bind_eq_ok] at hwork
    obtain ⟨included, st₃, hincluded, hwork⟩ := hwork
    rw [run_pureStep_bind_eq_ok] at hwork
    obtain ⟨made, hmade, hwork⟩ := hwork
    obtain ⟨info, hinfo, hmade⟩ := bind_eq_ok.mp hmade
    obtain rfl := Except.ok.inj hmade
    obtain rfl := Except.ok.inj (Prod.mk.inj hwork).1
    refine ⟨c, read, _, st₂, st₃, hc,
      .byCursor hpage hnext (PageInfo.ofCursor_eq_ok hinfo), hread, ?_⟩
    rw [hpage]
    exact ⟨hincluded, rfl, rfl⟩

-- ---------------------------------------------------------------------------
-- Parts of a run over rows
-- ---------------------------------------------------------------------------

/-- The statement of all rows, or of the first ones up to a limit. -/
def Compiled.upTo (c : Compiled) (limit : Option Int) : Statement :=
  match limit with
  | some n => { c.select with limit := some n }
  | none   => c.select

theorem Compiled.projection_upTo (c : Compiled) (limit : Option Int) :
    (c.upTo limit).projection = c.select.projection := by
  cases limit <;> rfl

/-- The parts of a run over rows. -/
theorem rowsWork_parts {limit : Option Int} {all : List Row}
    (h : (q.rowsWork db schema limit).run st = (.ok all, st')) :
    ∃ c read st₁ included rows, q.compile schema false = .ok c ∧
      (Query.fetch db c.joins (c.upTo limit)).run st = (.ok read, st₁) ∧
      (q.loadIncluded db schema read).run st₁ = (.ok included, st') ∧
      read.mapM (Row.attach q.entity.primaryKey included) = .ok rows ∧
      all = rows.map (Row.stripHidden c.hidden) := by
  rw [Query.rowsWork, run_pureStep_bind_eq_ok] at h
  obtain ⟨c, hc, h⟩ := h
  rw [run_bind_eq_ok] at h
  obtain ⟨read, st₁, hread, h⟩ := h
  rw [run_bind_eq_ok] at h
  obtain ⟨included, st₂, hincluded, h⟩ := h
  rw [run_pureStep_bind_eq_ok] at h
  obtain ⟨rows, hrows, h⟩ := h
  obtain ⟨hall, rfl⟩ := Prod.mk.inj h
  exact ⟨c, read, st₁, included, rows, hc, hread, hincluded, hrows, (Except.ok.inj hall).symm⟩

-- ---------------------------------------------------------------------------
-- Pages by cursor
-- ---------------------------------------------------------------------------

/-- A page by cursor, from the rows that were read for it. -/
structure CursorPage (hidden keyColumns : List String) (n : Int) (read : List Row)
    (page : PageOf Row) : Prop where
  data : page.data = (read.take n.toNat).map (Row.stripHidden hidden)
  next : (if n < read.length then nextCursor keyColumns (read.take n.toNat) else .ok none) =
    .ok page.info.nextCursor

/-- A page that was delivered was compiled, read and cut. -/
theorem runPage_cursor (hp : q.effectivePage = .cursor token n)
    (h : q.runPage db schema st = (.ok page, st')) :
    ∃ c read st₁, q.compile schema true = .ok c ∧
      (Query.fetch db c.joins c.select).run (db.connect st) = (.ok read, st₁) ∧
      CursorPage c.hidden c.keyColumns n read page ∧ page.warnings = c.warnings := by
  obtain ⟨c, read, st₁, st₂, st₃, hc, hopens, hread, -, hdata, hwarnings⟩ := runPage_parts h
  have hpage : c.page = .cursor token n := (Query.page_compile hc).trans hp
  cases hopens with
  | numbered hnumbered => cases hnumbered.symm.trans hpage
  | byCursor hcursor hnext hinfo =>
    obtain ⟨rfl, rfl⟩ := Page.cursor.inj (hcursor.symm.trans hpage)
    rw [hpage] at hdata
    refine ⟨c, read, st₂, hc, hread, ⟨hdata, ?_⟩, hwarnings⟩
    rw [hnext, hinfo]
    rfl

theorem exists_ofCursor (data : List Row) (next : Option String)
    (htoken : token.isOptionalText = true) :
    ∃ page, PageOf.ofCursor token n data (.optional .text next) = .ok page ∧
      page.info.nextCursor = next := by
  have hnext : (Value.optional Value.text next).isOptionalText = true := by
    cases next <;> rfl
  refine ⟨⟨data, .ofTokens token.text? n next, [], []⟩, ?_, rfl⟩
  rw [PageOf.ofCursor, PageInfo.ofCursor, PageInfo.invalidCursors, htoken, hnext,
    Value.text?_optional]
  rfl

/-- A query without includes that is compiled, read and given a cursor delivers its page. -/
theorem exists_runPage_cursor {c : Compiled} {read : List Row} {st₁ : σ} {next : Option String}
    (hp : q.effectivePage = .cursor token n) (hincludes : q.includes = [])
    (hc : q.compile schema true = .ok c)
    (hread : (Query.fetch db c.joins c.select).run (db.connect st) = (.ok read, st₁))
    (hnext : (if n < read.length then nextCursor c.keyColumns (read.take n.toNat) else .ok none) =
      .ok next) (htoken : token.isOptionalText = true) :
    ∃ page, q.runPage db schema st = (.ok page, db.close st₁) ∧ page.info.nextCursor = next := by
  have hpage : c.page = .cursor token n := (Query.page_compile hc).trans hp
  obtain ⟨page, hdelivered, hcursor⟩ := exists_ofCursor (n := n)
    ((read.take n.toNat).map (Row.stripHidden c.hidden)) next htoken
  have hincluded : (q.loadIncluded db schema (read.take n.toNat)).run st₁ = (.ok [], st₁) := by
    rw [Query.loadIncluded, hincludes]
    rfl
  refine ⟨{ page with included := [], warnings := c.warnings }, ?_, hcursor⟩
  refine withConnection_eq_ok db |>.mpr ⟨st₁, ?_, rfl⟩
  rw [Query.pageWork, run_pureStep_bind_eq_ok]
  refine ⟨c, hc, ?_⟩
  rw [hpage]
  show (q.cursorPage db schema c token n).run _ = _
  rw [Query.cursorPage, run_bind_eq_ok]
  refine ⟨read, st₁, hread, ?_⟩
  rw [run_pureStep_bind_eq_ok]
  refine ⟨next, hnext, ?_⟩
  rw [run_bind_eq_ok]
  refine ⟨[], st₁, hincluded, ?_⟩
  rw [run_pureStep_bind_eq_ok]
  exact ⟨page, hdelivered, rfl⟩

-- ---------------------------------------------------------------------------
-- The cursor of a row
-- ---------------------------------------------------------------------------

theorem Row.value_eq_ok {row : Row} {column : String} {v : Value} (h : row.value column = .ok v) :
    row.at column = v := by
  rw [Row.value] at h
  rw [Row.at]
  split at h
  case h_1 w heq =>
    obtain rfl := Except.ok.inj h
    rw [heq]
    rfl
  case h_2 => cases h

/-- The cursor of rows is the token of the key values of the last one. -/
theorem nextCursor_eq_ok {keys : List SortKey} {rows : List Row} {last : Row} {next : Option String}
    (hlast : rows.getLast? = some last) (h : nextCursor (keys.map (·.field)) rows = .ok next) :
    ∃ text, next = some text ∧ Cursor.encode (.record (Keyset.valuesOf keys last.at)) = .ok text := by
  rw [nextCursor, hlast] at h
  obtain ⟨values, hvalues, h⟩ := bind_eq_ok.mp h
  obtain ⟨text, htext, rfl⟩ := map_eq_ok.mp h
  refine ⟨text, rfl, ?_⟩
  have hrow : values = keys.map fun key => (key.field, last.at key.field) := by
    have hall := List.forall₂_map_left_iff.mp (mapM_eq_ok.mp hvalues)
    have hall' : List.Forall₂ (fun key x => x = (key.field, last.at key.field)) keys values := by
      refine hall.imp fun key x hx => ?_
      obtain ⟨v, hv, rfl⟩ := map_eq_ok.mp hx
      rw [Row.value_eq_ok hv]
    rw [← List.forall₂_eq_eq_eq, List.forall₂_map_right_iff]
    exact hall'.flip
  rw [← htext, hrow]
  rfl

/-- Only rows have a cursor. -/
theorem nextCursor_eq_some {keys : List SortKey} {rows : List Row} {text : String}
    (h : nextCursor (keys.map (·.field)) rows = .ok (some text)) :
    ∃ last, rows.getLast? = some last ∧
      Cursor.encode (.record (Keyset.valuesOf keys last.at)) = .ok text := by
  cases hlast : rows.getLast? with
  | none =>
    rw [nextCursor, hlast] at h
    cases Except.ok.inj h
  | some last =>
    obtain ⟨text', htext, hencode⟩ := nextCursor_eq_ok hlast h
    obtain rfl := Option.some.inj htext
    exact ⟨last, rfl, hencode⟩

end ListQuery
