import ListQuery.Proofs.Query.Interleaved
import ListQuery.Proofs.Text.Split

/-!
# Spellings of a list

A filter for several values can be spelled as one item for each value, as one item with a list of
them, as a record of operands, or with the operator in the name of the field. All four come to one
and the same filter. What the spellings share is the list of texts that they stand for: repeated
items are gathered, and a list is cut at its commas.

* `SpellsList`, `commaList_eq_iff` — the texts that a list stands for;
* `shape_text`, `shape_gathered` — operands of such texts;
* `ofItems_repeated`, `bracketed?_eq_some` — what is read of the keys;
* `parsesTo_listSpellings` — the filter of all spellings.
-/

namespace ListQuery

open Text FilterParams

-- ---------------------------------------------------------------------------
-- Lists of texts
-- ---------------------------------------------------------------------------

/-- The text lists the values: between its commas they stand in their order, with blanks around them
and with blank pieces among them. -/
def SpellsList (s : String) (vs : List String) : Prop :=
  ∃ pieces, pieces ≠ [] ∧ s = join "," pieces ∧ (∀ p ∈ pieces, ',' ∉ p.toList) ∧
    (pieces.map trim).filter (· ≠ "") = vs

theorem commaList_eq_iff {s : String} {vs : List String} : commaList s = vs ↔ SpellsList s vs := by
  constructor
  · intro h
    exact ⟨split ',' s, split_ne_nil ',' s, (join_split ',' s).symm,
      fun p hp => notMem_of_mem_split hp, h⟩
  · rintro ⟨pieces, hne, rfl, hpieces, hvs⟩
    have hsplit : split ',' (join "," pieces) = pieces := split_join hne hpieces
    rw [commaList, hsplit, hvs]

/-- The values themselves between commas. -/
theorem spellsList_join {vs : List String} (hne : vs ≠ []) (h : ∀ v ∈ vs, IsListed v) :
    SpellsList (join "," vs) vs := by
  refine ⟨vs, hne, rfl, fun v hv => (h v hv).whole, ?_⟩
  have htrim : vs.map trim = vs :=
    (List.map_congr_left fun v hv => (h v hv).trimmed).trans (List.map_id vs)
  rw [htrim, List.filter_eq_self]
  intro v hv
  simpa using (h v hv).nonempty

theorem commaList_single {v : String} (h : IsListed v) : commaList v = [v] := by
  have hspells := spellsList_join (List.cons_ne_nil v []) (by simpa using h)
  have hjoin : join "," [v] = v := by simp [join]
  rw [hjoin] at hspells
  exact commaList_eq_iff.mpr hspells

-- ---------------------------------------------------------------------------
-- Operands
-- ---------------------------------------------------------------------------

namespace Operator

/-- Operators whose operand has several values. -/
def TakesSeveral (op : Operator) : Prop := op.takesList = true ∨ op.takesRange = true

instance (op : Operator) : Decidable op.TakesSeveral := inferInstanceAs (Decidable (_ ∨ _))

end Operator

namespace Operand

/-- The operand of some texts: the first two of them as bounds where there is to be a range, and
otherwise all of them. -/
def ofTexts (op : Operator) (ts : List String) : Operand :=
  match op.takesRange, ts with
  | true, low :: high :: _ => .range (.text low) (.text high)
  | _, _                   => .multiple (ts.map .text)

variable {op : Operator} (hop : op.TakesSeveral)
include hop

theorem shape_list (ts : List String) : shape op (.list (ts.map .text)) = ofTexts op ts := by
  unfold shape ofTexts
  rcases hop with hlist | hrange
  · have hrange : op.takesRange = false := by
      cases op <;> simp [Operator.takesList, Operator.takesRange] at hlist ⊢
    simp [hlist, hrange]
  · have hlist : op.takesList = false := by
      cases op <;> simp [Operator.takesList, Operator.takesRange] at hrange ⊢
    match ts with
    | [] | [_] | _ :: _ :: _ => simp [hlist, hrange, shape.bounds]

theorem shape_text (s : String) : shape op (.text s) = ofTexts op (commaList s) := by
  rw [← shape_list hop]
  rcases hop with hop | hop <;> simp [shape, hop, commaValues]

/-- A value by itself is a list of one. -/
theorem shape_gathered {vs : List String} (h : ∀ v ∈ vs, IsListed v) :
    shape op (gathered vs) = ofTexts op vs := by
  match vs with
  | []          => exact shape_list hop []
  | [v]         => rw [gathered, shape_text hop, commaList_single (h v List.mem_cons_self)]
  | _ :: _ :: _ => exact shape_list hop _

end Operand

-- ---------------------------------------------------------------------------
-- Keys
-- ---------------------------------------------------------------------------

theorem Operator.parse?_trim (spelling : String) :
    Operator.parse? (trim spelling) = Operator.parse? spelling := by
  rw [parse?, trim_trim, ← parse?]

namespace FilterParams

/-- A field with an operator in brackets. -/
theorem bracketed?_eq_some {field op : String} (hfield : IsPlain field) (hfield' : field ≠ "")
    (hop : IsPlain op) (hop' : op ≠ "") :
    bracketed? (field ++ "[" ++ op ++ "]") = some (field, op) := by
  have hpass : ∀ {name : String}, IsPlain name → ∀ c ∈ name.toList, (!isBracket c) = true := by
    intro name hname c hc
    simp [hname c hc]
  have hchars : (field ++ "[" ++ op ++ "]").toList =
      field.toList ++ '[' :: (op.toList ++ [']']) := by simp
  have hopen : (!isBracket '[') = false := rfl
  have hclose : (!isBracket ']') = false := rfl
  simp [bracketed?, hchars, List.takeWhile_append_of_pos (hpass hfield),
    List.dropWhile_append_of_pos (hpass hfield), List.takeWhile_append_of_pos (hpass hop),
    List.dropWhile_append_of_pos (hpass hop), hopen, hclose, hfield', hop']

end FilterParams

namespace ItemParams

theorem filterTarget?_spelled {field op : String} (hfield : IsName field) (hne : field ≠ "")
    (hop : IsPlain op) :
    filterTarget? (filterKey field (some op)) = some (field, some (trim op)) := by
  have hchars : (filterKey field (some op)).toList = "filter".toList ++ bracketed [field, op] := by
    simp [filterKey, bracketed]
  have hkey : parseKey? (filterKey field (some op)) = some ("filter", [field, op]) :=
    parseKey?_bracketed (by decide) (by simpa using ⟨hfield.plain, hop⟩) hchars
  exact filterTarget?_eq_some.mpr ⟨_, hkey, by simp [hfield.trimmed], hne⟩

/-- An item for an operator that is repeated, and nothing else. -/
theorem ofItems_repeated {key field op : String}
    (hkey : filterTarget? key = some (field, some op)) {ts : List String} (hne : ts ≠ []) :
    ofItems (ts.map fun t => (key, t)) =
      { filter := [(field, .byOperator [(op, gathered ts)])] } := by
  have hfold : (ts.map fun t => (key, t)).foldl addItem {} =
      { filter := [(field, .byOperator [(op, gathered ts)])] } := by
    induction ts using List.reverseRecOn with
    | nil => exact absurd rfl hne
    | append_singleton ts t ih =>
      rw [List.map_append, List.foldl_append, List.map_singleton, List.foldl_cons, List.foldl_nil,
        addItem_of_target hkey]
      by_cases hfirst : ts = []
      · simp [hfirst, addPart, addOperand, collect, gathered, Entries.get?, Entries.put]
      · simp [ih hfirst, addPart, addOperand, Entries.get?, Entries.put, collect_gathered hfirst]
  rw [ofItems, hfold]
  rfl

-- ---------------------------------------------------------------------------
-- Filters
-- ---------------------------------------------------------------------------

/-- The items are read without a warning, and ask for the filters. -/
def ParsesTo (items : List (String × String)) (parsed : ParsedFilters) : Prop :=
  (ofItems items).warnings = [] ∧ (ofItems items).toRequest.parsedFilters = .ok parsed

/-- The filter that all spellings of a list come to. -/
def listFilter (field : String) (op : Operator) (vs : List String) : Filter :=
  ⟨field, op, .ofTexts op vs, false⟩

variable {field spelling : String} {op : Operator}

theorem parse_byOperator (hop : Operator.parse? spelling = some op) (v : Value) :
    parse [(.text field, .record [(spelling, v)])] =
      .ok ⟨[⟨field, op, .shape op v, false⟩], []⟩ := by
  have hfilter : filterFor field spelling v = .ok ⟨field, op, .shape op v, false⟩ := by
    rw [filterFor, hop]
  have hresults : results field (.record [(spelling, v)]) = [filterFor field spelling v] :=
    results_byOperator field [(spelling, v)]
  have hparse := parse_results [(field, .record [(spelling, v)])]
  simpa [hresults, hfilter, ofResults, kept] using hparse

theorem parsesTo_repeated (hfield : IsName field) (hne : field ≠ "") (hplain : IsPlain spelling)
    (hop : Operator.parse? spelling = some op) {ts : List String} (hts : ts ≠ []) :
    ParsesTo (ts.map fun t => (filterKey field (some spelling), t))
      ⟨[⟨field, op, .shape op (gathered ts), false⟩], []⟩ := by
  rw [ParsesTo, ofItems_repeated (filterTarget?_spelled hfield hne hplain) hts]
  exact ⟨rfl, parse_byOperator ((Operator.parse?_trim spelling).trans hop) (gathered ts)⟩

theorem parse_bracketed (hfield : IsPlain field) (hne : field ≠ "") (hplain : IsPlain spelling)
    (hop : Operator.parse? spelling = some op) (s : String) :
    parse [(.text (field ++ "[" ++ spelling ++ "]"), .text s)] =
      .ok ⟨[⟨field, op, .shape op (.text s), false⟩], []⟩ := by
  have hsome : spelling ≠ "" := by
    rintro rfl
    have hnone : Operator.parse? "" = none := by decide +kernel
    simp [hnone] at hop
  have hparse := parse_results [(field ++ "[" ++ spelling ++ "]", .text s)]
  simpa [results, bareFilter, bracketed?_eq_some hfield hne hplain hsome, filterFor, hop,
    ofResults, kept] using hparse

/-- However several values are spelled, they come to the same filter and to no warning: in an item
for each of them, or listed in one item, in a record of operands, or under a name with the operator
in brackets. -/
theorem parsesTo_listSpellings {vs : List String} (hfield : IsName field) (hne : field ≠ "")
    (hplain : IsPlain spelling) (hop : Operator.parse? spelling = some op)
    (hseveral : op.TakesSeveral) (hvs : vs ≠ []) (hlisted : ∀ v ∈ vs, IsListed v) :
    ParsesTo (vs.map fun v => (filterKey field (some spelling), v)) ⟨[listFilter field op vs], []⟩ ∧
      SpellsList (join "," vs) vs ∧
      ∀ s, SpellsList s vs →
        ParsesTo [(filterKey field (some spelling), s)] ⟨[listFilter field op vs], []⟩ ∧
        parse [(.text field, .map [(.text spelling, .text s)])] =
          .ok ⟨[listFilter field op vs], []⟩ ∧
        parse [(.text (field ++ "[" ++ spelling ++ "]"), .text s)] =
          .ok ⟨[listFilter field op vs], []⟩ := by
  refine ⟨?_, spellsList_join hvs hlisted, fun s hs => ?_⟩
  · have hrepeated := parsesTo_repeated hfield hne hplain hop hvs
    rwa [Operand.shape_gathered hseveral hlisted] at hrepeated
  · have hoperand : Operand.shape op (.text s) = .ofTexts op vs := by
      rw [Operand.shape_text hseveral, commaList_eq_iff.mpr hs]
    have hone := parsesTo_repeated hfield hne hplain hop (List.cons_ne_nil s [])
    have hnested : parse [(.text field, .record [(spelling, .text s)])] = _ :=
      parse_byOperator hop (.text s)
    have hflat := parse_bracketed hfield.plain hne hplain hop s
    rw [gathered, hoperand] at hone
    rw [hoperand] at hnested hflat
    exact ⟨hone, hnested, hflat⟩

/-- A range is spelled with blanks, a blank piece and a third value, which is passed over. -/
theorem parsesTo_listSpellings_between :
    ParsesTo [("filter[price][Not_Between ]", "10"), ("filter[price][Not_Between ]", "20"),
        ("filter[price][Not_Between ]", "30")]
      ⟨[⟨"price", .notBetween, .range (.text "10") (.text "20"), false⟩], []⟩ ∧
    ParsesTo [("filter[price][Not_Between ]", "10 , , 20,30")]
      ⟨[⟨"price", .notBetween, .range (.text "10") (.text "20"), false⟩], []⟩ ∧
    parse [(.text "price", .map [(.text "Not_Between ", .text "10 , , 20,30")])] =
      .ok ⟨[⟨"price", .notBetween, .range (.text "10") (.text "20"), false⟩], []⟩ ∧
    parse [(.text "price[Not_Between ]", .text "10 , , 20,30")] =
      .ok ⟨[⟨"price", .notBetween, .range (.text "10") (.text "20"), false⟩], []⟩ := by
  have hlisted : ∀ v ∈ ["10", "20", "30"], IsListed v := by
    intro v hv
    simp only [List.mem_cons, List.not_mem_nil, or_false] at hv
    rcases hv with rfl | rfl | rfl <;> exact ⟨by decide, by decide, by decide⟩
  have hspells : SpellsList "10 , , 20,30" ["10", "20", "30"] :=
    commaList_eq_iff.mp (by decide +kernel)
  have hname : IsName "price" := ⟨by decide, by decide⟩
  have hop : Operator.parse? "Not_Between " = some .notBetween := by decide +kernel
  obtain ⟨hrepeated, -, hlist⟩ := parsesTo_listSpellings hname (by decide) (by decide) hop
    (by decide) (List.cons_ne_nil _ _) hlisted
  exact ⟨hrepeated, hlist _ hspells⟩

end ItemParams

end ListQuery
