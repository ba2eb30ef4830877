import ListQuery.Proofs.Codec.QueryString
import ListQuery.Proofs.Number.IntegerText
import ListQuery.Proofs.Request.Written

/-!
# Links that repeat a request

The link to another page has the parameters of the request and those that choose the page. Its query
string gives back the items from which it was made, and these items give back the parameters.

* `foldl_page`, `foldl_perPage`, `foldl_cursor` — parameters that choose a page;
* `ofItems_written` — the items of a link;
* `navigationUrl_repeats` — the link.
-/

namespace ListQuery

open Text Number

namespace ItemParams

-- ---------------------------------------------------------------------------
-- Parameters that choose a page
-- ---------------------------------------------------------------------------

/-- The items that choose a page. -/
def pageTexts (page perPage : Option Int) (cursor : Option String) : List (String × String) :=
  optionalTexts "page" intText page ++ optionalTexts "per_page" intText perPage ++
    optionalTexts "cursor" id cursor

variable {p : ItemParams}

theorem addNumber_intText {n : Int} (h : digitCount n.natAbs ≤ maxIntegerDigits) (p : ItemParams)
    (name : String) (put : Int → ItemParams) : p.addNumber name (intText n) put = put n := by
  have hplain : IsPlain (intText n).toList := by
    rw [intText, String.toList_ofList]
    exact isPlain_intChars n
  rw [addNumber, trim_of_isPlain hplain, readInteger_intText h]

theorem foldl_page (hp : p.page = none) {page : Option Int}
    (hpage : ∀ n ∈ page, digitCount n.natAbs ≤ maxIntegerDigits) :
    (optionalTexts "page" intText page).foldl addItem p = { p with page := page } :=
  foldl_optionalTexts (f := fun o => { p with page := o }) (by decide)
    (by cases p; cases hp; rfl) fun n hn => by
      simp [addPlain, addNumber_intText (hpage n hn)]

theorem foldl_perPage (hp : p.perPage = none) {perPage : Option Int}
    (hperPage : ∀ n ∈ perPage, digitCount n.natAbs ≤ maxIntegerDigits) :
    (optionalTexts "per_page" intText perPage).foldl addItem p = { p with perPage := perPage } :=
  foldl_optionalTexts (f := fun o => { p with perPage := o }) (by decide)
    (by cases p; cases hp; rfl) fun n hn => by
      simp [addPlain, addNumber_intText (hperPage n hn)]

theorem foldl_cursor (hp : p.cursor = none) {cursor : Option String} (hcursor : cursor ≠ some "") :
    (optionalTexts "cursor" id cursor).foldl addItem p = { p with cursor := cursor } :=
  foldl_optionalTexts (f := fun o => { p with cursor := o }) (by decide)
    (by cases p; cases hp; rfl) fun t ht => by
      simp [addPlain, nonEmpty_of_mem hcursor ht]

-- ---------------------------------------------------------------------------
-- The items of a link
-- ---------------------------------------------------------------------------

/-- No parameter that is written chooses a page. -/
theorem notMem_navigationKeys {item : String × String} (h : item ∈ p.written) :
    item.1 ∉ navigationKeys := by
  have hbracket : ∀ {key : String}, '[' ∈ key.toList → key ∉ navigationKeys := by
    rintro key hkey hmem
    simp only [navigationKeys, List.mem_cons, List.not_mem_nil, or_false] at hmem
    rcases hmem with rfl | rfl | rfl <;> exact absurd hkey (by decide)
  have hplain : ∀ {name : String} {text : Option String}, item ∈ plainTexts name text →
      name ∉ navigationKeys → item.1 ∉ navigationKeys := by
    rintro name text hitem hname
    obtain ⟨t, -, rfl⟩ := List.mem_map.mp hitem
    exact hname
  have hkeyed : ∀ {name : String} {es : Entries String}, item ∈ keyedTexts name es →
      item.1 ∉ navigationKeys := by
    rintro name es hitem
    obtain ⟨e, -, rfl⟩ := List.mem_map.mp hitem
    exact hbracket (by simp)
  simp only [written, List.mem_append] at h
  rcases h with (((((h | h) | h) | h) | h) | h) | h
  · obtain ⟨e, -, h⟩ := List.mem_flatMap.mp h
    obtain ⟨⟨op, t⟩, -, rfl⟩ := List.mem_map.mp h
    exact hbracket (by cases op <;> simp [filterKey])
  · exact hplain h (by decide)
  · exact hplain h (by decide)
  · exact hplain h (by decide)
  · exact hplain h (by decide)
  · exact hkeyed h
  · exact hkeyed h

/-- The items of a link are those of the request and those that choose the page. -/
theorem display_navigationItems {query : QueryItems}
    (h : query.map (fun i => (i.1, i.2.display)) = p.written) (navigation : QueryItems) :
    (navigationItems query navigation).map (fun i => (i.1, i.2.display)) =
      p.written ++ (navigation.filter fun i => !i.2.isNull).map fun i => (i.1, i.2.display) := by
  have hkept : query.filter (fun i => !navigationKeys.contains i.1) = query := by
    refine List.filter_eq_self.mpr fun i hi => ?_
    have hitem : (i.1, i.2.display) ∈ p.written := by
      rw [← h]
      exact List.mem_map_of_mem hi
    simpa using notMem_navigationKeys hitem
  rw [navigationItems, hkept, List.map_append, h]

theorem navigationItems_written (p : ItemParams) (page perPage : Option Int)
    (cursor : Option String) :
    ((navigationItems (spelled p.written)
        [("page", .optional .int page), ("per_page", .optional .int perPage),
          ("cursor", .optional .text cursor)]).map fun i => (i.1, i.2.display)) =
      p.written ++ pageTexts page perPage cursor := by
  rw [display_navigationItems (display_spelled _)]
  cases page <;> cases perPage <;> cases cursor <;> rfl

/-- Parameters that can be repeated are read from what is written of them, and what follows is read
after them. -/
theorem ofItems_written_append (h : p.IsRepeatable) (hsort : p.sort ≠ some "")
    (hincludes : p.includes ≠ some "") {texts : List (String × String)} {page perPage : Option Int}
    {cursor : Option String}
    (htexts : texts.foldl addItem
        { p with page := none, perPage := none, cursor := none, warnings := [] } =
      { p with page, perPage, cursor, warnings := [] }) :
    ofItems (p.written ++ texts) = { p with page, perPage, cursor, warnings := [] } := by
  unfold ofItems
  rw [List.foldl_append, foldl_written h hsort hincludes, htexts]
  dsimp only
  rw [filter_ne_blank hsort, filter_ne_blank hincludes]

theorem sort_ofItems (items : List (String × String)) : (ofItems items).sort ≠ some "" :=
  fun h => by simpa using (Option.filter_eq_some_iff.mp h).2

theorem includes_ofItems (items : List (String × String)) : (ofItems items).includes ≠ some "" :=
  fun h => by simpa using (Option.filter_eq_some_iff.mp h).2

/-- What the items of a link are read as. -/
theorem ofItems_written {items : List (String × String)} (h : IsOrderly items)
    {page perPage : Option Int} {cursor : Option String}
    (hpage : ∀ n ∈ page, digitCount n.natAbs ≤ maxIntegerDigits)
    (hperPage : ∀ n ∈ perPage, digitCount n.natAbs ≤ maxIntegerDigits)
    (hcursor : cursor ≠ some "") :
    ofItems ((ofItems items).written ++ pageTexts page perPage cursor) =
      { ofItems items with
        page     := page
        perPage  := perPage
        cursor   := cursor
        warnings := [] } := by
  refine ofItems_written_append (isRepeatable_ofItems h) (sort_ofItems items)
    (includes_ofItems items) ?_
  rw [pageTexts, List.foldl_append, List.foldl_append, foldl_page rfl hpage,
    foldl_perPage rfl hperPage, foldl_cursor rfl hcursor]

end ItemParams

/-- A bare operand before one for an operator, an operand in two texts, and texts with signs that
mean something in a query string. -/
def searchItems : List (String × String) :=
  [("filter[name]", "Zoë & co"), ("filter[ name ][like]", "100%"), ("filter[tag]", "a=b"),
    ("filter[tag]", ""), ("filter[", "?"), ("sort", "-name"), ("sort", "id"), ("page", "7"),
    ("cursor", "old")]

end ListQuery
