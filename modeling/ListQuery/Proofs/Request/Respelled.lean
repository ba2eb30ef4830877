import ListQuery.Paging.Page
import ListQuery.Proofs.Request.Navigation

/-!
# Parameters that are spelled out

A link spells the parameters of a request text by text, whatever items they come from. A bare
operand after one for an operator has made a list of a record and a text; the record comes back as
the text that displays it, and everything else as it was.

* `isCollected_ofItems` — what items leave behind;
* `isRepeatable_respelled`, `display_toItems` — the parameters as a link spells them;
* `ofItems_link` — what the link to a page is read as.
-/

namespace ListQuery

open Text Number FilterParams

-- ---------------------------------------------------------------------------
-- Operands
-- ---------------------------------------------------------------------------

/-- A text, or a record of operands. -/
def Value.IsPiece : Value → Prop
  | .text _ | .map _ => True
  | _                => False

/-- What items leave for one operand: a text, or several pieces in a list. -/
inductive IsCollected : Value → Prop
  | single (t : String) : IsCollected (.text t)
  | several {vs : List Value} (hlength : 2 ≤ vs.length) (hpieces : ∀ v ∈ vs, v.IsPiece) :
      IsCollected (.list vs)

theorem isCollected_collect {existing : Option Value}
    (h : ∀ v ∈ existing, IsCollected v ∨ ∃ es, v = .map es) (t : String) :
    IsCollected (ItemParams.collect existing (.text t)) := by
  cases existing with
  | none => exact .single t
  | some v =>
    rcases h v rfl with hv | ⟨es, rfl⟩
    · cases hv with
      | single s => exact .several le_rfl (by simp [Value.IsPiece])
      | @several vs hlength hpieces =>
        have hmore : 2 ≤ (vs ++ [Value.text t]).length := by
          rw [List.length_append]
          omega
        refine .several hmore fun v hv => ?_
        rcases List.mem_append.mp hv with hv | hv
        · exact hpieces v hv
        · rw [List.mem_singleton.mp hv]
          trivial
    · exact .several le_rfl (by simp [Value.IsPiece])

theorem IsCollected.ne_map {v : Value} (h : IsCollected v) (es : Mapping) : v ≠ .map es := by
  rintro rfl
  cases h

theorem IsCollected.operandTexts_ne_nil {v : Value} (h : IsCollected v) : operandTexts v ≠ [] := by
  cases h with
  | single t => exact List.cons_ne_nil _ _
  | several hlength =>
    intro hnil
    rw [List.map_eq_nil_iff.mp hnil] at hlength
    exact absurd hlength (by decide)

/-- A piece as a text. -/
def Value.respelled : Value → Value
  | .map es => .text (Value.map es).display
  | v       => v

/-- An operand text by text. -/
def respelledOperand (v : Value) : Value := gathered (operandTexts v)

theorem respelledOperand_text (t : String) : respelledOperand (.text t) = .text t := rfl

theorem respelledOperand_gathered {v : Value} (h : IsGathered v) : respelledOperand v = v := by
  obtain ⟨ts, -, rfl⟩ := h
  rw [respelledOperand, operandTexts_gathered]

theorem respelledOperand_list {vs : List Value} (hlength : 2 ≤ vs.length)
    (hpieces : ∀ v ∈ vs, v.IsPiece) : respelledOperand (.list vs) = .list (vs.map .respelled) := by
  have hrespelled : vs.map (fun v => Value.text v.display) = vs.map .respelled := by
    refine List.map_congr_left fun v hv => ?_
    have hpiece := hpieces v hv
    cases v with
    | text t => rfl
    | map es => rfl
    | _ => exact hpiece.elim
  rw [respelledOperand, operandTexts, ← hrespelled]
  cases vs with
  | nil => exact absurd hlength (by decide)
  | cons v vs =>
    cases vs with
    | nil => exact absurd hlength (by simp)
    | cons w vs => simp [gathered]

-- ---------------------------------------------------------------------------
-- Filters
-- ---------------------------------------------------------------------------

namespace FieldFilter

/-- What items leave of one field. Only the operand for equality can have a record in it: it is the
one that a bare operand becomes. -/
def IsCollected : FieldFilter → Prop
  | .byOperator os => os ≠ [] ∧
      os.Each fun op v => IsName op ∧ ListQuery.IsCollected v ∧ (op ≠ "eq" → IsGathered v)
  | .bare v        => ListQuery.IsCollected v

def respelled : FieldFilter → FieldFilter
  | .byOperator os => .byOperator (os.map fun o => (o.1, respelledOperand o.2))
  | .bare v        => .bare (respelledOperand v)

theorem parts_respelled (f : FieldFilter) : f.respelled.parts = f.parts := by
  cases f with
  | byOperator os =>
    simp only [respelled, parts, respelledOperand, List.flatMap_map, operandTexts_gathered]
  | bare v => simp only [respelled, parts, respelledOperand, operandTexts_gathered]

theorem isRepeatable_respelled {f : FieldFilter} (h : f.IsCollected) :
    f.respelled.IsRepeatable := by
  cases f with
  | byOperator os =>
    obtain ⟨hne, hnodup, hos⟩ := h
    refine ⟨fun hnil => hne (List.map_eq_nil_iff.mp hnil), ?_, fun o ho => ?_⟩
    · rw [Entries.keys_map]
      exact hnodup
    · obtain ⟨o, hmem, rfl⟩ := List.mem_map.mp ho
      exact ⟨(hos o hmem).1, _, (hos o hmem).2.1.operandTexts_ne_nil, rfl⟩
  | bare v => exact ⟨_, IsCollected.operandTexts_ne_nil h, rfl⟩

/-- A bare operand, or one for equality: what is there already may be a record. -/
theorem isCollected_addBare {existing : Option FieldFilter} (h : ∀ f ∈ existing, f.IsCollected)
    (t : String) : (ItemParams.addBare existing t).IsCollected := by
  refine isCollected_collect (fun v hv => ?_) t
  match existing with
  | none                  => cases hv
  | some (.byOperator os) =>
    obtain rfl := Option.some.inj hv
    exact .inr ⟨_, rfl⟩
  | some (.bare w)        =>
    obtain rfl := Option.some.inj hv
    exact .inl (h _ rfl)

theorem isCollected_addOperand {existing : Option FieldFilter} (h : ∀ f ∈ existing, f.IsCollected)
    {op : String} (hop : IsName op) (t : String) :
    (ItemParams.addOperand existing op t).IsCollected := by
  have hput : ∀ os : Entries Value,
      os.Each (fun op v => IsName op ∧ ListQuery.IsCollected v ∧ (op ≠ "eq" → IsGathered v)) →
      (os.put op (ItemParams.collect (os.get? op) (.text t))).Each fun op v =>
        IsName op ∧ ListQuery.IsCollected v ∧ (op ≠ "eq" → IsGathered v) := by
    intro os hos
    refine Entries.Each.put hos ⟨hop, ?_, fun hne => ?_⟩
    · exact isCollected_collect (fun v hv => .inl (Entries.Each.get? hos hv).2.1) t
    · exact isGathered_collect (fun v hv => (Entries.Each.get? hos hv).2.2 hne) t
  refine ⟨Entries.put_ne_nil _, hput _ ?_⟩
  match existing with
  | none                  => exact Entries.each_nil
  | some (.byOperator os) => exact (h _ rfl).2
  | some (.bare w)        =>
    exact Entries.Each.put Entries.each_nil
      ⟨ItemParams.isName_eq, h _ rfl, fun hne => absurd rfl hne⟩

end FieldFilter

-- ---------------------------------------------------------------------------
-- All parameters
-- ---------------------------------------------------------------------------

namespace ItemParams

/-- A page number or a cursor that items give can be written. -/
def ChoosesWritably (p : ItemParams) : Prop :=
  (∀ n ∈ p.page, digitCount n.natAbs ≤ maxIntegerDigits) ∧ p.cursor ≠ some ""

/-- Parameters that items have left behind, whatever the items. -/
structure IsCollected (p : ItemParams) : Prop where
  filter : p.filter.Each fun field f => IsName field ∧ field ≠ "" ∧ f.IsCollected
  others : IsRepeatable { p with filter := [] }
  choice : p.ChoosesWritably

/-- The parameters as a link spells them, but for those that choose a page. -/
def respelled (p : ItemParams) : ItemParams :=
  { p with filter := p.filter.map fun e => (e.1, e.2.respelled) }

variable {p : ItemParams}

theorem isRepeatable_respelled (h : p.IsCollected) : p.respelled.IsRepeatable := by
  refine { h.others with filter := ⟨?_, fun e he => ?_⟩ }
  · unfold respelled
    rw [Entries.keys_map]
    exact h.filter.1
  · obtain ⟨e, hmem, rfl⟩ := List.mem_map.mp he
    obtain ⟨hname, hne, hf⟩ := h.filter.2 e hmem
    exact ⟨hname, hne, FieldFilter.isRepeatable_respelled hf⟩

theorem written_respelled (p : ItemParams) : p.respelled.written = p.written := by
  have hfilters : filterTexts p.respelled.filter = filterTexts p.filter := by
    unfold filterTexts respelled
    rw [List.flatMap_map]
    simp only [FieldFilter.parts_respelled]
  unfold written
  rw [hfilters]
  rfl

-- ---------------------------------------------------------------------------
-- One item
-- ---------------------------------------------------------------------------

theorem addNumber_cases {P : ItemParams → Prop} {name v : String} {put : Int → ItemParams}
    (hread : ∀ n, digitCount n.natAbs ≤ maxIntegerDigits → P (put n))
    (hwarned : ∀ message, P (p.warn message)) : P (p.addNumber name v put) := by
  unfold addNumber
  split
  case h_1 n hn => exact hread n (digitCount_of_readInteger hn)
  case h_2 => exact hwarned _

theorem choosesWritably_addPlain (h : p.ChoosesWritably) (name v : String) :
    (p.addPlain name v).ChoosesWritably := by
  unfold addPlain
  dsimp only
  split_ifs
  · exact h
  · exact h
  · refine addNumber_cases (fun n hn => ⟨fun m hm => ?_, h.2⟩) fun _ => h
    obtain rfl := Option.some.inj hm
    exact hn
  · exact addNumber_cases (fun _ _ => h) fun _ => h
  · exact h
  · exact h
  · exact ⟨h.1, nonEmpty_ne_blank v⟩
  · exact h
  · exact h

theorem Added.choosesWritably {q : ItemParams} {key v : String} (hadded : Added p key v q)
    (h : p.ChoosesWritably) : q.ChoosesWritably := by
  cases hadded with
  | plain _ name => exact choosesWritably_addPlain h name v
  | filtered | warned | fields | append => exact h

theorem Added.isCollected {q : ItemParams} {key v : String} (hadded : Added p key v q)
    (h : p.IsCollected) : q.IsCollected where
  filter := hadded.each_filter h.filter
    (fun _ _ hexisting => FieldFilter.isCollected_addBare hexisting v)
    fun _ _ hop hexisting => FieldFilter.isCollected_addOperand hexisting hop v
  others := hadded.others h.others
  choice := hadded.choosesWritably h.choice

/-- The parameters of any items. -/
theorem isCollected_ofItems (items : List (String × String)) : (ofItems items).IsCollected := by
  have hempty : IsCollected {} := ⟨Entries.each_nil, isRepeatable_empty, by simp [ChoosesWritably]⟩
  have hfold : (items.foldl addItem {}).IsCollected :=
    List.foldlRecOn items addItem hempty fun p hp _ _ => (added_addItem p _ _).isCollected hp
  exact { hfold with others := { hfold.others with } }

-- ---------------------------------------------------------------------------
-- Writing
-- ---------------------------------------------------------------------------

theorem display_operandItems (key : String) (v : Value) :
    (RequestParams.operandItems key v).map (fun i => (i.1, i.2.display)) =
      (operandTexts v).map fun t => (key, t) := by
  cases v <;> simp [RequestParams.operandItems, operandTexts, Function.comp_def]

theorem display_filterItems {f : FieldFilter} (h : f.IsCollected) (field : String) :
    (RequestParams.filterItems (.text field, f.toValue)).map (fun i => (i.1, i.2.display)) =
      f.parts.map fun part => (filterKey field part.1, part.2) := by
  cases f with
  | byOperator os =>
    simp only [filterItems_byOperator, FieldFilter.parts, List.map_flatMap, List.map_map,
      display_operandItems]
    rfl
  | bare v =>
    rw [filterItems_bare (IsCollected.ne_map h), display_operandItems]
    simp [FieldFilter.parts, Function.comp_def]

/-- A link can be made from the parameters of any items, and it spells them text by text. -/
theorem display_toItems (h : p.IsCollected) : ∃ query, p.toRequest.toItems = .ok query ∧
    query.map (fun i => (i.1, i.2.display)) = p.written := by
  have hfilters : (p.filter.flatMap fun e => RequestParams.filterItems (.text e.1, e.2.toValue)).map
      (fun i => (i.1, i.2.display)) = filterTexts p.filter := by
    rw [List.map_flatMap, filterTexts]
    exact List.flatMap_congr fun e he => display_filterItems (h.filter.2 e he).2.2 e.1
  refine ⟨_, toItems_eq p, ?_⟩
  rw [List.map_append, hfilters, display_spelled, ← written_eq]

-- ---------------------------------------------------------------------------
-- Links
-- ---------------------------------------------------------------------------

end ItemParams

/-- The URL of a page. -/
def Page.url (path : String) (query : QueryItems) : Page → String
  | offset number n => pageUrl path query number n
  | cursor token n  => cursorUrl path query token n

/-- A page that a link can name: the runtime writes and reads its numbers, and its cursor is a text
that says something, or there is none. -/
inductive Page.IsLinkable : Page → Prop
  | offset {number n : Int} (hnumber : digitCount number.natAbs ≤ maxIntegerDigits)
      (hn : digitCount n.natAbs ≤ maxIntegerDigits) : IsLinkable (.offset number n)
  | cursor {token : Option String} (htoken : token ≠ some "") {n : Int}
      (hn : digitCount n.natAbs ≤ maxIntegerDigits) : IsLinkable (.cursor (.optional .text token) n)

namespace ItemParams

/-- The parameters of the link to a page. -/
def linking (p : ItemParams) : Page → ItemParams
  | .offset number n =>
    { p.respelled with page := some number, perPage := some n, cursor := none, warnings := [] }
  | .cursor token n  =>
    { p.respelled with page := none, perPage := some n, cursor := token.text?, warnings := [] }

/-- The link to a page is read as the parameters of the request, spelled out, and the page. -/
theorem ofItems_link {items : List (String × String)} {query : QueryItems}
    (hquery : (ofItems items).toRequest.toItems = .ok query) {page : Page}
    (hpage : page.IsLinkable) (path : String) :
    ∃ s, page.url path query = path ++ "?" ++ s ∧
      ofItems (Codec.decodeQuery s) = (ofItems items).linking page := by
  have hcollected := isCollected_ofItems items
  obtain ⟨query', hquery', hdisplay⟩ := display_toItems hcollected
  obtain rfl := Except.ok.inj (hquery.symm.trans hquery')
  have hrepeatable := isRepeatable_respelled hcollected
  have hsort : (ofItems items).respelled.sort ≠ some "" := sort_ofItems items
  have hincludes : (ofItems items).respelled.includes ≠ some "" := includes_ofItems items
  cases hpage with
  | @offset number n hnumber hn =>
    refine ⟨_, rfl, ?_⟩
    rw [display_navigationItems hdisplay, Codec.decodeQuery_encodeQuery, ← written_respelled]
    refine ofItems_written_append hrepeatable hsort hincludes ?_
    show (optionalTexts "page" intText (some number) ++
      optionalTexts "per_page" intText (some n)).foldl addItem _ = _
    rw [List.foldl_append, foldl_page rfl (by simpa using hnumber),
      foldl_perPage rfl (by simpa using hn)]
  | @cursor token htoken n hn =>
    refine ⟨_, rfl, ?_⟩
    have htexts : ([("cursor", .optional .text token), ("per_page", .int n)].filter
        fun i : String × Value => !i.2.isNull).map (fun i => (i.1, i.2.display)) =
          optionalTexts "cursor" id token ++ optionalTexts "per_page" intText (some n) := by
      cases token <;> rfl
    rw [display_navigationItems hdisplay, Codec.decodeQuery_encodeQuery, ← written_respelled,
      htexts, linking, Value.text?_optional]
    refine ofItems_written_append hrepeatable hsort hincludes ?_
    rw [List.foldl_append, foldl_cursor rfl htoken, foldl_perPage rfl (by simpa using hn)]

end ItemParams

end ListQuery
