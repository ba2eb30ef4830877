import ListQuery.Proofs.Query.Respelled
import ListQuery.Proofs.Request.Interleaved

/-!
# Filters of interleaved items

The filters that items ask for are those of the operands that are kept of them. So items of a field
come to the same filters wherever they stand as long as no bare operand comes after one for an
operator, and a bare operand can be written with its operator exactly where that is so.

* `mem_kept_results`, `exists_parsedFilters_ofItems` — filters by the operands that are kept;
* `exists_parsedFilters_repeated` — a key that is repeated;
* `operandFor_ofItems` — the operands of a field, and a bare one that is written with its operator.
-/

namespace ListQuery

open Text FilterParams

namespace FilterParams

theorem mem_kept {rs : List (Except String Filter)} {f : Filter} : f ∈ kept rs ↔ .ok f ∈ rs := by
  unfold kept
  rw [List.mem_filterMap]
  constructor
  · rintro ⟨r, hr, hf⟩
    cases r with
    | ok g => rwa [Option.some.inj hf] at hr
    | error w => cases hf
  · intro h
    exact ⟨.ok f, h, rfl⟩

theorem filterFor_eq (field : String) (v : Value) :
    filterFor field "eq" v = .ok ⟨field, .eq, .shape .eq v, false⟩ := by
  have hparse : Operator.parse? "eq" = some .eq := by decide +kernel
  unfold filterFor
  rw [hparse]

end FilterParams

namespace ItemParams

-- ---------------------------------------------------------------------------
-- Filters and operands
-- ---------------------------------------------------------------------------

/-- The filters of a field are those of its operands. -/
theorem mem_kept_results {f : FieldFilter} (h : f.IsCollected) {field : String}
    (hfield : IsPlain field) (r : Filter) :
    r ∈ kept (results field f.toValue) ↔
      ∃ op v, operandOf (some f) op = some v ∧ filterFor field op v = .ok r := by
  rw [mem_kept]
  cases f with
  | byOperator os =>
    rw [results_byOperator, List.mem_map]
    constructor
    · rintro ⟨o, ho, hr⟩
      exact ⟨o.1, o.2, Entries.get?_eq_some_of_mem h.2.1 ho, hr⟩
    · rintro ⟨op, v, hv, hr⟩
      exact ⟨(op, v), Entries.mem_of_get?_eq_some hv, hr⟩
  | bare w =>
    rw [FieldFilter.toValue, results_bare hfield h, ← filterFor_eq, List.mem_singleton]
    constructor
    · exact fun hr => ⟨"eq", w, rfl, hr.symm⟩
    · rintro ⟨op, v, hv, hr⟩
      obtain ⟨rfl, hw⟩ := Option.ite_none_right_eq_some.mp hv
      obtain rfl := Option.some.inj hw
      exact hr.symm

/-- The filters of items are those of the operands that are kept of them. -/
theorem exists_parsedFilters_ofItems (items : List (String × String)) :
    ∃ parsed, (ofItems items).toRequest.parsedFilters = .ok parsed ∧ ∀ f, f ∈ parsed.filters ↔
      ∃ field op v, (ofItems items).operandFor field op = some v ∧ filterFor field op v = .ok f := by
  have hcollected := (isCollected_ofItems items).filter
  generalize ofItems items = p at hcollected ⊢
  obtain ⟨warnings, hparsed⟩ := parse_record (p.filter.map fun e => (e.1, e.2.toValue))
  refine ⟨_, hparsed, fun f => ?_⟩
  show f ∈ filtersOf _ ↔ _
  unfold filtersOf operandFor
  rw [List.flatMap_map, List.mem_flatMap]
  constructor
  · rintro ⟨⟨field, state⟩, he, hf⟩
    obtain ⟨hname, -, hstate⟩ := hcollected.2 _ he
    obtain ⟨op, v, hv, hr⟩ := (mem_kept_results hstate hname.plain f).mp hf
    have hget : p.filter.get? field = some state := Entries.get?_eq_some_of_mem hcollected.1 he
    exact ⟨field, op, v, hget ▸ hv, hr⟩
  · rintro ⟨field, op, v, hv, hr⟩
    cases hstate : p.filter.get? field with
    | none => rw [hstate] at hv; cases hv
    | some state =>
      rw [hstate] at hv
      have he := Entries.mem_of_get?_eq_some hstate
      obtain ⟨hname, -, hcollected'⟩ := hcollected.2 _ he
      exact ⟨_, he, (mem_kept_results hcollected' hname.plain f).mpr ⟨op, v, hv, hr⟩⟩

-- ---------------------------------------------------------------------------
-- Filters that differ
-- ---------------------------------------------------------------------------

/-- Items that ask for the same filters, in whatever order. -/
def SameFilters (items items' : List (String × String)) : Prop :=
  ∃ parsed parsed', (ofItems items).toRequest.parsedFilters = .ok parsed ∧
    (ofItems items').toRequest.parsedFilters = .ok parsed' ∧
    ∀ f, f ∈ parsed.filters ↔ f ∈ parsed'.filters

theorem SameFilters.symm {items items' : List (String × String)} (h : SameFilters items items') :
    SameFilters items' items := by
  obtain ⟨parsed, parsed', hparsed, hparsed', hsame⟩ := h
  exact ⟨parsed', parsed, hparsed', hparsed, fun f => (hsame f).symm⟩

theorem sameFilters_of_operandFor {items items' : List (String × String)}
    (h : ∀ field op, (ofItems items).operandFor field op = (ofItems items').operandFor field op) :
    SameFilters items items' := by
  obtain ⟨parsed, hparsed, hfilters⟩ := exists_parsedFilters_ofItems items
  obtain ⟨parsed', hparsed', hfilters'⟩ := exists_parsedFilters_ofItems items'
  refine ⟨parsed, parsed', hparsed, hparsed', fun f => ?_⟩
  simp only [hfilters, hfilters', h]

theorem operandFor_ofItems_eq (items : List (String × String)) (field op : String) :
    (ofItems items).operandFor field op = operandOf (stateAfter (partsFor field items)) op := by
  rw [operandFor, get?_ofItems]

/-- A record is in no other operand than that for equality, so it tells items apart. -/
theorem operandFor_of_sameFilters {items items' : List (String × String)} {field : String}
    (h : SameFilters items items') (hrecord : HoldsRecord ((ofItems items).operandFor field "eq")) :
    (ofItems items).operandFor field "eq" = (ofItems items').operandFor field "eq" := by
  obtain ⟨parsed, hparsed, hfilters⟩ := exists_parsedFilters_ofItems items
  obtain ⟨parsed', hparsed', hfilters'⟩ := exists_parsedFilters_ofItems items'
  obtain ⟨_, _, hp, hp', hsame⟩ := h
  obtain rfl := Except.ok.inj (hparsed.symm.trans hp)
  obtain rfl := Except.ok.inj (hparsed'.symm.trans hp')
  obtain ⟨vs, es, hvs, hmem⟩ := hrecord
  have hfilter := (hfilters _).mpr ⟨field, "eq", _, hvs, filterFor_eq field _⟩
  obtain ⟨field', op, v, hv, hfor⟩ := (hfilters' _).mp ((hsame _).mp hfilter)
  obtain rfl : field = field' := field_of_filterFor hfor
  obtain rfl : v = .list vs := by
    unfold filterFor at hfor
    split at hfor
    case h_2 => cases hfor
    case h_1 o _ =>
      obtain ⟨-, rfl, hshape, -⟩ := Filter.mk.inj (Except.ok.inj hfor)
      cases v <;> cases hshape
      rfl
  by_cases hop : op = "eq"
  · rw [hvs, ← hop, hv]
  · rw [operandFor_ofItems_eq, operandOf_stateAfter_of_ne _ hop] at hv
    exact absurd ⟨vs, es, hv, hmem⟩ (not_holdsRecord_gathered? _)

theorem not_sameFilters_of_differ {items items' : List (String × String)} (field : String)
    (h : Differ (stateAfter (partsFor field items)) (stateAfter (partsFor field items'))) :
    ¬SameFilters items items' := by
  intro hsame
  obtain ⟨hne, hrecord⟩ := h
  rw [← operandFor_ofItems_eq, ← operandFor_ofItems_eq] at hne hrecord
  rcases hrecord with hrecord | hrecord
  · exact hne (operandFor_of_sameFilters hsame hrecord)
  · exact hne (operandFor_of_sameFilters hsame.symm hrecord).symm

-- ---------------------------------------------------------------------------
-- Repeated keys
-- ---------------------------------------------------------------------------

/-- Items that repeat one operator of a field ask for one filter of the field, with all of their
texts. -/
theorem exists_parsedFilters_repeated {items : List (String × String)} {field spelling : String}
    {op : Operator} {ts : List String} (hparts : partsFor field items = ts.map (some spelling, ·))
    (hop : Operator.parse? spelling = some op) (hrange : op.takesRange = false)
    (hts : 2 ≤ ts.length) :
    ∃ parsed, (ofItems items).toRequest.parsedFilters = .ok parsed ∧ ∀ f, f.field = field →
      (f ∈ parsed.filters ↔ f = ⟨field, op, .multiple (ts.map .text), false⟩) := by
  obtain ⟨parsed, hparsed, hfilters⟩ := exists_parsedFilters_ofItems items
  have hgathered : gathered? ts = some (.list (ts.map .text)) := by
    match ts with
    | _ :: _ :: _ => rfl
  have hbare : BareFirst (ts.map (some spelling, ·)) :=
    List.pairwise_map.mpr (List.pairwise_of_forall fun _ _ _ => rfl)
  have hoperand (other : String) : (ofItems items).operandFor field other =
      if spelling = other then some (.list (ts.map .text)) else none := by
    rw [operandFor_ofItems_eq, hparts, operandOf_stateAfter hbare]
    by_cases hother : spelling = other
    · simp [valuesFor, List.filter_map, Function.comp_def, hother, hgathered]
    · simp [valuesFor, List.filter_map, Function.comp_def, hother, gathered?]
  have hfilter : filterFor field spelling (.list (ts.map .text)) =
      .ok ⟨field, op, .multiple (ts.map .text), false⟩ := by
    simp only [filterFor, hop, Operand.shape, hrange]
    split <;> rfl
  refine ⟨parsed, hparsed, fun f hfield => ?_⟩
  rw [hfilters]
  constructor
  · rintro ⟨name, other, v, hv, hf⟩
    obtain rfl : field = name := hfield.symm.trans (field_of_filterFor hf)
    rw [hoperand, Option.ite_none_right_eq_some] at hv
    obtain ⟨rfl, hv⟩ := hv
    rw [← Option.some.inj hv, hfilter] at hf
    exact (Except.ok.inj hf).symm
  · rintro rfl
    exact ⟨field, spelling, _, (hoperand spelling).trans (if_pos rfl), hfilter⟩

-- ---------------------------------------------------------------------------
-- All operands of a field
-- ---------------------------------------------------------------------------

/-- The parts of a field with an operand for equality, bare or with the operator, among them. -/
theorem partsFor_item {key field : String} {op : Option String}
    (hkey : filterTarget? key = some (field, op)) (before after : List (String × String))
    (v other : String) :
    partsFor other (before ++ (key, v) :: after) =
      if other = field then partsFor field before ++ (op, v) :: partsFor field after
      else partsFor other before ++ partsFor other after := by
  unfold partsFor
  rw [List.filterMap_append, List.filterMap_cons, partFor?, hkey]
  by_cases hother : field = other
  · simp [hother]
  · simp [hother, Ne.symm hother]

theorem isName_of_mem_partsFor {field : String} {items : List (String × String)}
    {part : Option String × String} (h : part ∈ partsFor field items) : ∀ o ∈ part.1, IsName o := by
  obtain ⟨item, -, hpart⟩ := List.mem_filterMap.mp h
  unfold partFor? at hpart
  split at hpart
  case h_2 => cases hpart
  case h_1 name op htarget =>
    obtain ⟨-, hpart⟩ := Option.ite_none_right_eq_some.mp hpart
    rw [← Option.some.inj hpart]
    exact (isName_of_target htarget).2.2

/-- Writing a bare operand with its operator leaves the filters as they are exactly if neither an
operand for an operator comes right before it nor a bare one right after it. -/
theorem sameFilters_respelled {field key v : String} {before after : List (String × String)}
    (hkey : filterTarget? key = some (field, none)) :
    SameFilters (before ++ (key, v) :: after)
        (before ++ (filterKey field (some "eq"), v) :: after) ↔
      (endsWithOperator (partsFor field before) || beginsBare (partsFor field after)) = false := by
  obtain ⟨hfield, hne, -⟩ := isName_of_target hkey
  have hkey' : filterTarget? (filterKey field (some "eq")) = some (field, some "eq") :=
    filterTarget?_filterKey hfield hne (by simpa using isName_eq)
  have hparts := operandOf_respelled v
    (fun part (hpart : part ∈ partsFor field before) => isName_of_mem_partsFor hpart)
    (fun part (hpart : part ∈ partsFor field after) => isName_of_mem_partsFor hpart)
  constructor
  · intro hsame
    by_contra hdiffer
    rw [Bool.not_eq_false] at hdiffer
    rw [if_pos hdiffer] at hparts
    refine not_sameFilters_of_differ field ?_ hsame
    rw [partsFor_item hkey, partsFor_item hkey', if_pos rfl, if_pos rfl]
    exact hparts
  · intro hsame
    rw [hsame, if_neg Bool.false_ne_true] at hparts
    refine sameFilters_of_operandFor fun other op => ?_
    rw [operandFor_ofItems_eq, operandFor_ofItems_eq, partsFor_item hkey, partsFor_item hkey']
    split
    · exact hparts op
    · rfl

/-- What is kept of the items of a field. The texts that were given for each operator are, if and
only if no bare operand comes after one for an operator. Else a record is among the operands of the
equality, and of another operator is there what comes after the last bare operand. A bare operand is
one for equality if no operand for an operator comes right before it and no bare one right after. -/
theorem operandFor_ofItems (items : List (String × String)) (field : String) :
    ((∀ op, (ofItems items).operandFor field op = gathered? (valuesFor op (partsFor field items))) ↔
        BareFirst (partsFor field items)) ∧
      (¬BareFirst (partsFor field items) → HoldsRecord ((ofItems items).operandFor field "eq")) ∧
      (∀ op ≠ "eq", (ofItems items).operandFor field op =
        gathered? (valuesFor op ((partsFor field items).rtakeWhile fun part => part.1.isSome))) ∧
      ∀ before key v after, items = before ++ (key, v) :: after →
        filterTarget? key = some (field, none) →
        (SameFilters items (before ++ (filterKey field (some "eq"), v) :: after) ↔
          (endsWithOperator (partsFor field before) ||
            beginsBare (partsFor field after)) = false) := by
  simp only [operandFor_ofItems_eq]
  refine ⟨operandOf_stateAfter_iff _, holdsRecord_stateAfter,
    fun op hop => operandOf_stateAfter_of_ne _ hop, ?_⟩
  rintro before key v after rfl hkey
  exact sameFilters_respelled hkey

/-- A bound for the age and then the age itself. -/
def ageItems : List (String × String) := [("filter[age][gte]", "3"), ("filter[age]", "5")]

/-- The bound is in a record among the operands of the equality, and none of the operator. -/
theorem operandFor_ofItems_ages :
    ¬BareFirst (partsFor "age" ageItems) ∧
      HoldsRecord ((ofItems ageItems).operandFor "age" "eq") ∧
      (ofItems ageItems).operandFor "age" "gte" = none ∧
      ¬SameFilters ageItems [("filter[age][gte]", "3"), (filterKey "age" (some "eq"), "5")] := by
  obtain ⟨-, hrecord, hothers, hrespelled⟩ := operandFor_ofItems ageItems "age"
  have hparts : partsFor "age" ageItems = [(some "gte", "3"), (none, "5")] := by decide +kernel
  have hnot : ¬BareFirst (partsFor "age" ageItems) := by
    rw [hparts]
    simp [BareFirst]
  refine ⟨hnot, hrecord hnot, ?_, ?_⟩
  · rw [hothers "gte" (by decide), hparts]
    rfl
  · have hsame := hrespelled [("filter[age][gte]", "3")] "filter[age]" "5" [] rfl (by decide +kernel)
    have hlast : partsFor "age" [("filter[age][gte]", "3")] = [(some "gte", "3")] := by
      decide +kernel
    rw [hlast] at hsame
    exact fun h => Bool.noConfusion (hsame.mp h)

end ItemParams

end ListQuery
