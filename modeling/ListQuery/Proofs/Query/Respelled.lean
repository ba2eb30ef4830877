import ListQuery.Proofs.Query.OfItems
import ListQuery.Proofs.Request.Respelled
import ListQuery.Proofs.Schema.Coercion

/-!
# Requests that are spelled out

The request of a link has the filters of the one that it repeats, but for records among the operands
of an equality, which have become texts. No type tells a record from the text that displays it, so
the link is taken where the request was.

* `parsedFilters_linking` — the filters of a link;
* `accept_respelled` — a filter and what a link makes of it;
* `exists_ofRequest_linking` — the request of a link.
-/

namespace ListQuery

open Text FilterParams

-- ---------------------------------------------------------------------------
-- Filters
-- ---------------------------------------------------------------------------

namespace Operand

/-- The operand text by text. -/
def respelled : Operand → Operand
  | single v       => single v.respelled
  | multiple vs    => multiple (vs.map Value.respelled)
  | range low high => range low.respelled high.respelled

theorem bounds_respelled (vs : List Value) :
    shape.bounds (vs.map Value.respelled) = (shape.bounds vs).respelled := by
  match vs with
  | []          => rfl
  | [_]         => rfl
  | _ :: _ :: _ => rfl

theorem map_respelled_commaValues (s : String) :
    (commaValues s).map Value.respelled = commaValues s := by
  simp [commaValues, Value.respelled, Function.comp_def]

/-- An operand can be spelled out before or after it is shaped for its operator. -/
theorem shape_respelled (op : Operator) {v : Value} (h : IsCollected v) :
    shape op (respelledOperand v) = (shape op v).respelled := by
  cases h with
  | single t =>
    rw [respelledOperand_text]
    unfold shape
    split_ifs
    · exact congrArg multiple (map_respelled_commaValues t).symm
    · have hbounds := bounds_respelled (commaValues t)
      rwa [map_respelled_commaValues] at hbounds
    · rfl
  | several hlength hpieces =>
    rw [respelledOperand_list hlength hpieces]
    unfold shape
    split_ifs
    · rfl
    · exact bounds_respelled _
    · rfl

end Operand

/-- The filter text by text. -/
def Filter.respelled (f : Filter) : Filter := { f with operand := f.operand.respelled }

def ParsedFilters.respelled (parsed : ParsedFilters) : ParsedFilters :=
  { parsed with filters := parsed.filters.map Filter.respelled }

namespace FilterParams

theorem filterFor_respelled (field spelling : String) {v : Value} (h : IsCollected v) :
    filterFor field spelling (respelledOperand v) =
      (filterFor field spelling v).map Filter.respelled := by
  unfold filterFor
  cases Operator.parse? spelling with
  | none => rfl
  | some op =>
    dsimp only
    rw [Operand.shape_respelled op h]
    rfl

theorem results_byOperator (name : String) (os : Entries Value) :
    results name (FieldFilter.byOperator os).toValue = os.map fun o => filterFor name o.1 o.2 := by
  simp only [FieldFilter.toValue, Value.record, results, List.map_map, Function.comp_def,
    Value.display]

theorem results_bare {name : String} (hname : IsPlain name) {v : Value} (h : IsCollected v) :
    results name v = [.ok ⟨name, .eq, .shape .eq v, false⟩] := by
  unfold results
  split
  · exact absurd rfl (h.ne_map _)
  · rw [bareFilter, bracketed?_of_isPlain hname]

theorem isCollected_respelledOperand {v : Value} (h : IsCollected v) :
    IsCollected (respelledOperand v) := by
  cases h with
  | single t => exact .single t
  | @several vs hlength hpieces =>
    rw [respelledOperand_list hlength hpieces]
    refine .several (by rwa [List.length_map]) fun w hw => ?_
    obtain ⟨v, hv, rfl⟩ := List.mem_map.mp hw
    have hpiece := hpieces v hv
    cases v with
    | text t => trivial
    | map es => trivial
    | _ => exact hpiece.elim

theorem results_respelled {name : String} (hname : IsPlain name) {f : FieldFilter}
    (h : f.IsCollected) :
    results name f.respelled.toValue =
      (results name f.toValue).map (Except.map Filter.respelled) := by
  cases f with
  | byOperator os =>
    obtain ⟨-, -, hos⟩ := h
    rw [FieldFilter.respelled, results_byOperator, results_byOperator, List.map_map, List.map_map]
    refine List.map_congr_left fun o ho => ?_
    have hoperand : IsCollected o.2 := (hos o ho).2.1
    simp only [Function.comp_apply, filterFor_respelled name o.1 hoperand]
  | bare v =>
    show results name (respelledOperand v) = (results name v).map _
    rw [results_bare hname h, results_bare hname (isCollected_respelledOperand h),
      Operand.shape_respelled .eq h]
    rfl

theorem ofResults_respelled (rs : List (Except String Filter)) :
    ofResults (rs.map (Except.map Filter.respelled)) = (ofResults rs).respelled := by
  unfold ofResults ParsedFilters.respelled kept
  rw [List.filterMap_map, List.filterMap_map, List.map_filterMap]
  refine congrArg₂ ParsedFilters.mk (List.filterMap_congr fun r _ => ?_)
    (List.filterMap_congr fun r _ => ?_)
  · cases r <;> rfl
  · cases r <;> rfl

/-- Only the operand of an equality can have a record in it. -/
theorem eq_or_respelled_eq {name : String} (hname : IsPlain name) {f : FieldFilter}
    (h : f.IsCollected) {g : Filter} (hg : g ∈ kept (results name f.toValue)) :
    g.operator = .eq ∨ g.respelled = g := by
  obtain ⟨r, hr, heq⟩ := List.mem_filterMap.mp hg
  cases r with
  | error w => cases heq
  | ok g' =>
    obtain rfl := Option.some.inj heq
    cases f with
    | bare v =>
      rw [FieldFilter.toValue, results_bare hname h, List.mem_singleton] at hr
      rw [Except.ok.inj hr]
      exact .inl rfl
    | byOperator os =>
      rw [results_byOperator] at hr
      obtain ⟨⟨op, v⟩, ho, hfor⟩ := List.mem_map.mp hr
      replace hfor : filterFor name op v = .ok g' := hfor
      by_cases hop : op = "eq"
      · subst hop
        have hparse : Operator.parse? "eq" = some .eq := by decide +kernel
        unfold filterFor at hfor
        rw [hparse] at hfor
        rw [← Except.ok.inj hfor]
        exact .inl rfl
      · have hrespelled := filterFor_respelled name op (h.2.2 _ ho).2.1
        rw [respelledOperand_gathered ((h.2.2 _ ho).2.2 hop), hfor] at hrespelled
        exact .inr (Except.ok.inj hrespelled).symm

end FilterParams

namespace ItemParams

variable {p : ItemParams}

theorem parsedFilters_eq (p : ItemParams) : p.toRequest.parsedFilters =
    .ok (ofResults (p.filter.flatMap fun e => results e.1 e.2.toValue)) := by
  have hparse := parse_results (p.filter.map fun f => (f.1, f.2.toValue))
  rw [List.flatMap_map] at hparse
  exact hparse

/-- A link asks for the filters of the request text by text, and warns of the same ones. -/
theorem parsedFilters_linking (h : p.IsCollected) (page : Page) :
    (p.linking page).toRequest.parsedFilters =
      p.toRequest.parsedFilters.map ParsedFilters.respelled := by
  have hfilter : (p.linking page).filter = p.filter.map fun e => (e.1, e.2.respelled) := by
    cases page <;> rfl
  have hresults : (p.filter.flatMap fun e => results e.1 e.2.respelled.toValue) =
      (p.filter.flatMap fun e => results e.1 e.2.toValue).map (Except.map Filter.respelled) := by
    rw [List.map_flatMap]
    refine List.flatMap_congr fun e he => ?_
    exact results_respelled (h.filter.2 e he).1.plain (h.filter.2 e he).2.2
  rw [parsedFilters_eq, parsedFilters_eq, hfilter, List.flatMap_map, hresults, ofResults_respelled]
  rfl

theorem eq_or_respelled_eq (h : p.IsCollected) {parsed : ParsedFilters}
    (hparsed : p.toRequest.parsedFilters = .ok parsed) {f : Filter} (hf : f ∈ parsed.filters) :
    f.operator = .eq ∨ f.respelled = f := by
  obtain rfl := Except.ok.inj ((parsedFilters_eq p).symm.trans hparsed)
  replace hf : f ∈ kept _ := hf
  unfold kept at hf
  rw [List.filterMap_flatMap] at hf
  obtain ⟨e, he, hf⟩ := List.mem_flatMap.mp hf
  exact FilterParams.eq_or_respelled_eq (h.filter.2 e he).1.plain (h.filter.2 e he).2.2 hf

end ItemParams

-- ---------------------------------------------------------------------------
-- What becomes of a filter
-- ---------------------------------------------------------------------------

namespace Query

/-- Two outcomes of one kind: something is taken, left out, or fails the request. -/
inductive SameFate {α β : Type} : Except Refusal α → Except Refusal β → Prop
  | taken (a : α) (b : β) : SameFate (.ok a) (.ok b)
  | dropped (reason reason' : String) :
      SameFate (.error (.dropped reason)) (.error (.dropped reason'))
  | failed (fail fail' : Failure) : SameFate (.error (.failed fail)) (.error (.failed fail'))

section
variable {α β γ δ : Type}

theorem SameFate.refl (x : Except Refusal α) : SameFate x x := by
  match x with
  | .ok a                => exact .taken a a
  | .error (.dropped r)  => exact .dropped r r
  | .error (.failed f)   => exact .failed f f

theorem SameFate.bind {x : Except Refusal α} {y : Except Refusal β} {k : α → Except Refusal γ}
    {l : β → Except Refusal δ} (h : SameFate x y) (hk : ∀ a b, SameFate (k a) (l b)) :
    SameFate (x >>= k) (y >>= l) := by
  cases h with
  | taken a b => exact hk a b
  | dropped r r' => exact .dropped r r'
  | failed f f' => exact .failed f f'

theorem SameFate.map {x : Except Refusal α} {y : Except Refusal β} (h : SameFate x y)
    (g : α → γ) (g' : β → δ) : SameFate (x.map g) (y.map g') :=
  h.bind fun _ _ => .taken _ _

theorem sameFate_mapM {k : α → Except Refusal γ} {l : β → Except Refusal δ} {g : α → β}
    (h : ∀ a, SameFate (k a) (l (g a))) (as : List α) :
    SameFate (as.mapM k) ((as.map g).mapM l) := by
  induction as with
  | nil => exact .taken _ _
  | cons a as ih =>
    rw [List.map_cons, List.mapM_cons, List.mapM_cons]
    exact (h a).bind fun _ _ => ih.bind fun _ _ => .taken _ _

end

theorem sameFate_operand {k l : Value → Except Refusal Value}
    (h : ∀ v, SameFate (k v) (l v.respelled)) (o : Operand) :
    SameFate (o.mapM k) (o.respelled.mapM l) := by
  cases o with
  | single v => exact (h v).map _ _
  | multiple vs => exact (sameFate_mapM h vs).map _ _
  | range low high => exact (h low).bind fun _ _ => (h high).bind fun _ _ => .taken _ _

variable (q : Query) (f : Filter)

/-- A type reads a record from the text that displays it, and so it does with that text. -/
theorem isOk_coerce_respelled (t : ColumnType) (v : Value) :
    (coerce t v.respelled).isOk = (coerce t v).isOk := by
  cases v with
  | map es =>
    have hread : ∀ {α : Type} (read : String → Option α) (f : α → Value) (fail fail' : Failure),
        ((readText read (Value.map es).respelled fail).map f).isOk =
          ((readText read (.map es) fail').map f).isOk := by
      intro α read f fail fail'
      simp only [readText, Value.respelled, Value.display]
      cases read (trim _) <;> rfl
    unfold coerce
    cases t.native? with
    | some kind =>
      cases kind with
      | boolean | integer | float | decimal => exact hread _ _ _ _
    | none =>
      cases t with
      | dateTime zoned => exact hread _ _ _ _
      | date => exact hread _ _ _ _
      | _ => rfl
  | _ => rfl

theorem convertOperand_respelled (t : ColumnType) (v : Value) :
    SameFate (q.convertOperand f t v) (q.convertOperand f.respelled t v.respelled) := by
  have hok := isOk_coerce_respelled t v
  unfold convertOperand
  cases hv : coerce t v with
  | ok w =>
    rw [hv] at hok
    cases hv' : coerce t v.respelled with
    | ok w' => exact .taken w w'
    | error fail' =>
      rw [hv'] at hok
      cases hok
  | error fail =>
    rw [hv] at hok
    cases hv' : coerce t v.respelled with
    | ok w' =>
      rw [hv'] at hok
      cases hok
    | error fail' =>
      dsimp only
      rw [if_pos (isReading_of_coerce hv), if_pos (isReading_of_coerce hv')]
      cases q.settings.malformedPolicy with
      | reject => exact .failed _ _
      | drop => exact .dropped _ _
      | substitute =>
        cases zero? t with
        | none => exact .dropped _ _
        | some zero => exact .taken zero zero

/-- A filter and what a link makes of it are both taken or both left out, or both fail. -/
theorem accept_respelled (h : f.operator = .eq ∨ f.respelled = f) :
    SameFate (q.accept f) (q.accept f.respelled) := by
  rcases h with hop | hsame
  · have hconvert : ∀ t, SameFate (q.convert f t) (q.convert f.respelled t) := fun t =>
      (sameFate_operand (fun v => convertOperand_respelled q f t v) f.operand).map _ _
    have hop' : f.respelled.operator = .eq := hop
    have hfield : f.respelled.field = f.field := rfl
    unfold accept acceptOnPath acceptOnColumn
    rw [hop, hop', hfield]
    by_cases hallowed : q.entity.allowsFilter f.field = true
    · rw [if_pos hallowed, if_pos hallowed]
      cases q.entity.jsonPath? f.field with
      | some _ => exact .taken _ _
      | none =>
        cases q.entity.column? f.field with
        | some c => exact hconvert c.type
        | none => exact .dropped _ _
    · rw [if_neg hallowed, if_neg hallowed]
      exact .dropped _ _
  · rw [hsame]
    exact .refl _

-- ---------------------------------------------------------------------------
-- Whole requests
-- ---------------------------------------------------------------------------

variable {e : Entity} {s : Settings} {p : ItemParams} {q : Query} {f : Filter}

theorem admits_respelled (h : f.operator = .eq ∨ f.respelled = f) (hadmits : q.Admits f) :
    q.Admits f.respelled := by
  intro fail hfail
  have hfate := accept_respelled q f h
  rw [hfail] at hfate
  generalize hx : q.accept f = x at hfate
  cases hfate with
  | failed fail' => exact hadmits fail' hx

theorem omittedFilter?_respelled (h : f.operator = .eq ∨ f.respelled = f)
    (hnone : q.omittedFilter? f = none) : q.omittedFilter? f.respelled = none := by
  have hfate := accept_respelled q f h
  unfold omittedFilter? at hnone ⊢
  generalize q.accept f = x at hfate hnone
  generalize q.accept f.respelled = y at hfate
  cases hfate with
  | taken => rfl
  | dropped => cases hnone
  | failed => rfl

/-- Where a request of items is taken, so is that of each of its links. -/
theorem exists_ofRequest_linking (hp : p.IsCollected) (h : ofRequest e s p.toRequest = .ok q)
    (page : Page) : ∃ q', ofRequest e s (p.linking page).toRequest = .ok q' := by
  obtain ⟨parsed, hparsed⟩ : ∃ parsed, p.toRequest.parsedFilters = .ok parsed :=
    ⟨_, p.parsedFilters_eq⟩
  have hparsed' : (p.linking page).toRequest.parsedFilters = .ok parsed.respelled := by
    rw [p.parsedFilters_linking hp, hparsed]
    rfl
  have hfilters := fun f hf => p.eq_or_respelled_eq hp hparsed (f := f) hf
  obtain ⟨hadmits, hnone⟩ := (exists_ofRequest_iff hparsed).mp ⟨q, h⟩
  refine (exists_ofRequest_iff hparsed').mpr ⟨fun f hf => ?_, fun hs => ?_⟩
  · obtain ⟨f, hmem, rfl⟩ := List.mem_map.mp hf
    exact admits_respelled (hfilters f hmem) (hadmits f hmem)
  · have hlists : (p.linking page).sortList = p.sortList ∧
        (p.linking page).includeList = p.includeList ∧
        (p.linking page).fieldList e.table = p.fieldList e.table := by
      cases page <;> exact ⟨rfl, rfl, rfl⟩
    rw [hlists.1, hlists.2.1, hlists.2.2]
    have hnone := hnone hs
    unfold omissions at hnone ⊢
    simp only [List.append_eq_nil_iff, List.filterMap_eq_nil_iff] at hnone ⊢
    obtain ⟨⟨⟨⟨hwarnings, hkept⟩, hkeys⟩, hpaths⟩, hnames⟩ := hnone
    refine ⟨⟨⟨⟨hwarnings, fun f hf => ?_⟩, hkeys⟩, hpaths⟩, hnames⟩
    obtain ⟨f, hmem, rfl⟩ := List.mem_map.mp hf
    exact omittedFilter?_respelled (hfilters f hmem) (hkept f hmem)

end Query

end ListQuery
