import Mathlib.Data.Rat.Floor
import ListQuery.Proofs.Paging.PageCount

/-!
# Numbered pages of a list

The rows of a list are cut into pages, and what a page says of itself is exact for lists of up to
`2 ^ 53` rows: how many pages there are, whether another one follows, and which rows it holds. Who
starts at the first page and follows the number of the next one gets every row once. The walk ends on
the last page, which is the first one for a list without rows, although such a list has no pages.

* `pageCount_ceil` — the number of pages as a ceiling;
* `exists_isPageOf` — what a page says of itself;
* `Walks`, `exists_walk`, `Walks.covers` — walks along the numbers;
* `numbered_pages` — all pages of a list.
-/

namespace ListQuery.Numbered

variable {α : Type} {l : List α} {perPage number : Int} {p : PageOf α}

-- ---------------------------------------------------------------------------
-- One page
-- ---------------------------------------------------------------------------

/-- How many rows come before the page. -/
def skipped (perPage number : Int) : Nat := ((number - 1) * perPage).toNat

/-- The rows of the page. -/
def rows (l : List α) (perPage number : Int) : List α :=
  (l.drop (skipped perPage number)).take perPage.toNat

/-- The page as it is delivered. -/
def page (l : List α) (perPage number : Int) : Except Failure (PageOf α) :=
  PageOf.ofNumber number perPage l.length (rows l perPage number)

/-- The page holds the rows from one position of the list to another, counted from one. -/
structure Spans (l : List α) (p : PageOf α) (first last : Int) : Prop where
  firstRow : p.info.firstRow = some first
  lastRow  : p.info.lastRow = some last
  bounds   : 1 ≤ first ∧ first ≤ last ∧ last ≤ l.length
  data     : p.data = (l.take last.toNat).drop (first - 1).toNat

/-- What the page says of itself. -/
structure IsPageOf (l : List α) (perPage number : Int) (p : PageOf α) : Prop where
  data        : p.data = rows l perPage number
  currentPage : p.info.currentPage = some number
  totalPages  : p.info.totalPages = some ⌈(l.length : ℚ) / perPage⌉
  hasMore     : p.info.hasMore = true ↔ number * perPage < l.length
  nextPage    : p.info.nextPage = if number * perPage < l.length then some (number + 1) else none
  empty       : p.data = [] → p.info.firstRow = none ∧ p.info.lastRow = none
  spans       : p.data ≠ [] → ∃ first last, Spans l p first last

/-- The number of pages is the ceiling of the exact quotient. -/
theorem pageCount_ceil {total : Nat} (htotal : total ≤ 2 ^ 53) (hpos : 1 ≤ perPage)
    (hsize : perPage ≤ 2 ^ 53) : pageCount total perPage = .ok ⌈(total : ℚ) / perPage⌉ := by
  obtain ⟨n, rfl⟩ := Int.eq_ofNat_of_zero_le (show 0 ≤ perPage by omega)
  have hn : 0 < n := by omega
  have hquotient : 0 ≤ (total : ℚ) / n := by positivity
  have hceil : (total + n - 1) / n = ⌈(total : ℚ) / n⌉₊ :=
    ceil_div_eq hn (Nat.le_ceil _) (Nat.ceil_lt_add_one hquotient)
  rw [pageCount_eq htotal hn (by exact_mod_cast hsize), hceil, Int.natCast_ceil_eq_ceil hquotient,
    Int.cast_natCast]

/-- A page has another one behind it as long as it does not reach the end of the list. -/
theorem lt_ceil_iff {total : Nat} (hpos : 1 ≤ perPage) :
    number < ⌈(total : ℚ) / perPage⌉ ↔ number * perPage < total := by
  have hpos' : (0 : ℚ) < perPage := by exact_mod_cast hpos
  rw [Int.lt_ceil, lt_div_iff₀ hpos']
  exact_mod_cast Iff.rfl

theorem cast_skipped (hpos : 1 ≤ perPage) (hnumber : 1 ≤ number) :
    (skipped perPage number : Int) = (number - 1) * perPage :=
  Int.toNat_of_nonneg (mul_nonneg (by omega) (by omega))

theorem length_rows (l : List α) (perPage number : Int) : (rows l perPage number).length =
    min perPage.toNat (l.length - skipped perPage number) := by
  simp [rows]

/-- Where the rows of a page stand in the list. -/
theorem rows_eq_drop_take (l : List α) (perPage number : Int) : rows l perPage number =
    (l.take (skipped perPage number + (rows l perPage number).length)).drop
      (skipped perPage number) := by
  have hlength := length_rows l perPage number
  rw [List.drop_take, Nat.add_sub_cancel_left, hlength, rows]
  rcases Nat.le_total perPage.toNat (l.length - skipped perPage number) with hle | hle
  · rw [min_eq_left hle]
  · rw [min_eq_right hle, List.take_of_length_le (by simpa using hle),
      List.take_of_length_le (by simp)]

/-- Each page of the list is delivered, and what it says of itself is exact. -/
theorem exists_isPageOf (htotal : l.length ≤ 2 ^ 53) (hpos : 1 ≤ perPage) (hsize : perPage ≤ 2 ^ 53)
    (hnumber : 1 ≤ number) : ∃ p, page l perPage number = .ok p ∧ IsPageOf l perPage number p := by
  have hcount := pageCount_ceil htotal hpos hsize
  have hmore : number < ⌈(l.length : ℚ) / perPage⌉ ↔ number * perPage < l.length := lt_ceil_iff hpos
  have hskipped := cast_skipped hpos hnumber
  refine ⟨_, by simp only [page, PageOf.ofNumber, PageInfo.ofNumber, hcount]; rfl, ?_⟩
  constructor
  case data | currentPage | totalPages => rfl
  case hasMore => simpa using hmore
  case nextPage => simp [hmore]
  case empty =>
    intro (hempty : rows l perPage number = [])
    simp [hempty]
  case spans =>
    intro (hrows : rows l perPage number ≠ [])
    have hlength := length_rows l perPage number
    have hsome : 0 < (rows l perPage number).length := List.length_pos_iff.mpr hrows
    have hfits : skipped perPage number + (rows l perPage number).length ≤ l.length := by omega
    have hrow : 0 < l.length := by omega
    refine ⟨skipped perPage number + 1,
      skipped perPage number + (rows l perPage number).length, ?_⟩
    constructor
    case firstRow => simp [hrows, hskipped, hrow]
    case lastRow => simp [hrows, ← hskipped, hrow]; omega
    case bounds => omega
    case data =>
      have hlast : ((skipped perPage number : Int) + (rows l perPage number).length).toNat =
          skipped perPage number + (rows l perPage number).length := by omega
      simpa [hlast] using rows_eq_drop_take l perPage number

-- ---------------------------------------------------------------------------
-- Following the numbers
-- ---------------------------------------------------------------------------

/-- The pages that are delivered to someone who starts at a number and follows the next one until
there is none. -/
inductive Walks (l : List α) (perPage : Int) : Int → List (PageOf α) → Prop
  | last {number : Int} {p : PageOf α} (hpage : page l perPage number = .ok p)
      (hnext : p.info.nextPage = none) : Walks l perPage number [p]
  | more {number next : Int} {p : PageOf α} {ps : List (PageOf α)}
      (hpage : page l perPage number = .ok p) (hnext : p.info.nextPage = some next)
      (hrest : Walks l perPage next ps) : Walks l perPage number (p :: ps)

theorem skipped_succ (hpos : 1 ≤ perPage) (hnumber : 1 ≤ number) :
    skipped perPage (number + 1) = skipped perPage number + perPage.toNat := by
  have hskipped := cast_skipped hpos hnumber
  have hnext : (skipped perPage (number + 1) : Int) = (number + 1 - 1) * perPage :=
    cast_skipped hpos (by omega)
  have hproduct : (number + 1 - 1) * perPage = (number - 1) * perPage + perPage := by ring
  omega

section
variable (htotal : l.length ≤ 2 ^ 53) (hpos : 1 ≤ perPage) (hsize : perPage ≤ 2 ^ 53)
include htotal hpos hsize

/-- A delivered page is what it says it is. -/
theorem isPageOf_of_page (hnumber : 1 ≤ number) (h : page l perPage number = .ok p) :
    IsPageOf l perPage number p := by
  obtain ⟨p', hp', hpage⟩ := exists_isPageOf htotal hpos hsize hnumber
  exact Except.ok.inj (h.symm.trans hp') ▸ hpage

/-- Who follows the numbers comes to an end. -/
theorem exists_walk (hnumber : 1 ≤ number) : ∃ ps, Walks l perPage number ps := by
  -- the pages that are left become fewer with each step
  induction hleft : (⌈(l.length : ℚ) / perPage⌉ - number).toNat generalizing number with
  | zero =>
    obtain ⟨p, hpage, hp⟩ := exists_isPageOf htotal hpos hsize hnumber
    have hend : ¬number * perPage < l.length := by
      rw [← lt_ceil_iff hpos]
      omega
    exact ⟨[p], .last hpage (by rw [hp.nextPage, if_neg hend])⟩
  | succ left ih =>
    obtain ⟨p, hpage, hp⟩ := exists_isPageOf htotal hpos hsize hnumber
    have hmore : number * perPage < l.length := by
      rw [← lt_ceil_iff hpos]
      omega
    obtain ⟨ps, hps⟩ := ih (show 1 ≤ number + 1 by omega) (by omega)
    exact ⟨p :: ps, .more hpage (by rw [hp.nextPage, if_pos hmore]) hps⟩

/-- A walk delivers the rows from its first page on, each once and in order, and ends on the last
page of the list. -/
theorem Walks.covers (hnumber : 1 ≤ number) {ps : List (PageOf α)} (h : Walks l perPage number ps) :
    ps.flatMap (·.data) = l.drop (skipped perPage number) ∧
      ∃ last, ps.getLast? = some last ∧
        last.info.currentPage = some (max number ⌈(l.length : ℚ) / perPage⌉) := by
  induction h with
  | @last number p hpage hnext =>
    have hp := isPageOf_of_page htotal hpos hsize hnumber hpage
    rw [hp.nextPage, ite_eq_right_iff] at hnext
    have hend : (l.length : Int) ≤ number * perPage := by
      by_contra hmore
      cases hnext (by omega)
    constructor
    · have hskipped := cast_skipped hpos hnumber
      have hproduct : number * perPage = (number - 1) * perPage + perPage := by ring
      rw [List.flatMap_singleton, hp.data, rows, List.take_of_length_le]
      rw [List.length_drop]
      omega
    · have hlast : ⌈(l.length : ℚ) / perPage⌉ ≤ number := by
        rw [← not_lt, lt_ceil_iff hpos]
        omega
      exact ⟨p, rfl, by rw [hp.currentPage, max_eq_left hlast]⟩
  | @more number next p ps hpage hnext hrest ih =>
    have hp := isPageOf_of_page htotal hpos hsize hnumber hpage
    rw [hp.nextPage, Option.ite_none_right_eq_some] at hnext
    obtain ⟨hmore, hnext⟩ := hnext
    obtain rfl := Option.some.inj hnext
    obtain ⟨hdata, last, hlast, hcurrent⟩ := ih (by omega)
    constructor
    · rw [List.flatMap_cons, hdata, hp.data, rows, skipped_succ hpos hnumber, ← List.drop_drop,
        List.take_append_drop]
    · have hbefore := (lt_ceil_iff hpos).mpr hmore
      refine ⟨last, by rw [List.getLast?_cons, hlast]; rfl, ?_⟩
      rw [hcurrent, max_eq_right (show number + 1 ≤ _ by omega), max_eq_right (by omega)]

end

-- ---------------------------------------------------------------------------
-- All pages
-- ---------------------------------------------------------------------------

/-- Every page of a list of up to `2 ^ 53` rows is delivered, and says what it is: the number of pages
is the exact ceiling, another page follows as long as this one does not reach the end, and a page
with rows names the positions of the first and the last one. Following the next page from the first
one delivers every row once and in order, and ends on the last page, which is the first one if there
are no rows. -/
theorem numbered_pages (l : List α) (htotal : l.length ≤ 2 ^ 53) {perPage : Int}
    (hpos : 1 ≤ perPage) (hsize : perPage ≤ 100) :
    (∀ number : Int, 1 ≤ number →
      ∃ p, page l perPage number = .ok p ∧ IsPageOf l perPage number p) ∧
    (∃ ps, Walks l perPage 1 ps) ∧
    ∀ ps, Walks l perPage 1 ps → ps.flatMap (·.data) = l ∧
      ∃ last, ps.getLast? = some last ∧
        last.info.currentPage = some (max 1 ⌈(l.length : ℚ) / perPage⌉) := by
  have hsize' : perPage ≤ 2 ^ 53 := by omega
  refine ⟨fun number => exists_isPageOf htotal hpos hsize', exists_walk htotal hpos hsize' le_rfl,
    fun ps hps => ?_⟩
  have hcovers := hps.covers htotal hpos hsize' le_rfl
  rwa [show skipped perPage 1 = 0 by simp [skipped], List.drop_zero] at hcovers

/-- Seven rows on pages of three: three pages, of which the last one holds the seventh row. -/
theorem numbered_pages_seven :
    (∃ p, page [1, 2, 3, 4, 5, 6, 7] 3 3 = .ok p ∧ p.info.totalPages = some 3 ∧ p.data = [7] ∧
      p.info.nextPage = none ∧ Spans [1, 2, 3, 4, 5, 6, 7] p 7 7) ∧
    ∃ ps, Walks [1, 2, 3, 4, 5, 6, 7] 3 1 ps ∧ ps.flatMap (·.data) = [1, 2, 3, 4, 5, 6, 7] := by
  obtain ⟨hpages, ⟨ps, hps⟩, hcovers⟩ :=
    numbered_pages [1, 2, 3, 4, 5, 6, 7] (by simp) (show 1 ≤ (3 : Int) by decide) (by decide)
  refine ⟨?_, ps, hps, (hcovers ps hps).1⟩
  obtain ⟨p, hpage, hp⟩ := hpages 3 (by decide)
  have hdata : p.data = [7] := hp.data
  have hceil : ⌈(7 : ℚ) / 3⌉ = 3 := by norm_num [Int.ceil_eq_iff]
  refine ⟨p, hpage, by simpa [hceil] using hp.totalPages, hdata, by simpa using hp.nextPage, ?_⟩
  have hrows : p.info.firstRow = some 7 ∧ p.info.lastRow = some 7 := by
    obtain rfl := Except.ok.inj (hpage.symm.trans rfl)
    exact ⟨rfl, rfl⟩
  exact ⟨hrows.1, hrows.2, by decide, by simp [hdata]⟩

/-- A list without rows has no pages, yet a walk ends on its first one. -/
theorem walk_without_rows :
    ∃ p, page ([] : List Nat) 15 1 = .ok p ∧ p.info.totalPages = some 0 ∧
      (∃ ps, Walks ([] : List Nat) 15 1 ps) ∧
      ∀ ps, Walks ([] : List Nat) 15 1 ps →
        ∃ last, ps.getLast? = some last ∧ last.info.currentPage ≠ p.info.totalPages := by
  have htotal : ([] : List Nat).length ≤ 2 ^ 53 := by simp
  obtain ⟨p, hpage, hp⟩ :=
    exists_isPageOf htotal (show 1 ≤ (15 : Int) by decide) (by decide) (le_refl 1)
  have hnone : p.info.totalPages = some 0 := by simpa using hp.totalPages
  refine ⟨p, hpage, hnone, exists_walk htotal (by decide) (by decide) le_rfl, fun ps hps => ?_⟩
  obtain ⟨-, last, hlast, hcurrent⟩ := hps.covers htotal (by decide) (by decide) le_rfl
  exact ⟨last, hlast, by simp [hcurrent, hnone]⟩

end ListQuery.Numbered
