import ListQuery.Filter.Parsing
import ListQuery.Proofs.Failure
import ListQuery.Proofs.Text.Split
import ListQuery.Proofs.Value.Entries
import ListQuery.Request.Params

/-!
# Parameters of a query string

What the parameters that items spell are read as. Their lists are texts with commas, of which pieces
can be left out; where their filters stand under names without brackets, each filter has the field
under whose name it stands.

* `filterMap_split_keepPieces` — lists of which some pieces are left out;
* `isPlain_of_parseKey` — what stands in the brackets of a key;
* `parse_record`, `filtersOf_filter` — filters by the names of their fields;
* `sortKeys_toRequest`, `includePaths_toRequest`, `fieldChoice_toRequest` — the other lists.
-/

namespace ListQuery

-- ---------------------------------------------------------------------------
-- Lists with commas
-- ---------------------------------------------------------------------------

namespace Text

/-- The list without the pieces that are not kept. -/
def keepPieces (keep : String → Bool) (list : String) : String :=
  join "," ((split ',' list).filter keep)

/-- What the pieces of a list are read as when some of them are left out. -/
theorem filterMap_split_keepPieces {α : Type} {f : String → Option α} (hblank : f "" = none)
    (keep : String → Bool) (list : String) :
    (split ',' (keepPieces keep list)).filterMap f =
      ((split ',' list).filter keep).filterMap f := by
  have hpieces : ∀ piece ∈ (split ',' list).filter keep, ',' ∉ piece.toList :=
    fun piece hpiece => notMem_of_mem_split (List.mem_filter.mp hpiece).1
  exact filterMap_split_join hblank hpieces

theorem filterMap_filter_all {α β : Type} (f : α → Option β) (keep : β → Bool) (l : List α) :
    (l.filter fun a => (f a).all keep).filterMap f = (l.filterMap f).filter keep := by
  induction l with
  | nil => rfl
  | cons a l ih =>
    rw [List.filter_cons]
    cases hf : f a with
    | none =>
      show (a :: l.filter _).filterMap f = _
      rw [List.filterMap_cons_none hf, List.filterMap_cons_none hf, ih]
    | some b =>
      rw [List.filterMap_cons_some hf, List.filter_cons, ← ih]
      show (if keep b = true then _ else _ : List α).filterMap f = _
      split
      · rw [List.filterMap_cons_some hf]
      · rfl

end Text

open Text

-- ---------------------------------------------------------------------------
-- Names in the keys of items
-- ---------------------------------------------------------------------------

namespace FilterParams

/-- A name without brackets. -/
def IsPlain (name : String) : Prop := ∀ c ∈ name.toList, isBracket c = false

theorem bracketed?_of_isPlain {name : String} (h : IsPlain name) : bracketed? name = none := by
  have hdrop : name.toList.dropWhile (!isBracket ·) = [] := by
    rw [List.dropWhile_eq_nil_iff]
    intro c hc
    rw [h c hc]
    rfl
  simp only [bracketed?, hdrop]

theorem isPlain_trim {name : String} (h : IsPlain name) : IsPlain (trim name) := by
  intro c hc
  exact h c (mem_of_mem_trim hc)

end FilterParams

namespace ItemParams

open FilterParams

/-- What stands in brackets has none itself. -/
theorem isPlain_of_mem_bracketChars {inside : Bool} {cs : List Char} {path : List (List Char)}
    (h : bracketChars? inside cs = some path) {name : List Char} (hname : name ∈ path) :
    ∀ c ∈ name, isBracket c = false := by
  induction cs generalizing inside path name with
  | nil =>
    unfold bracketChars? at h
    split at h
    · cases h
    · obtain rfl := Option.some.inj h
      exact absurd hname List.not_mem_nil
  | cons c cs ih =>
    unfold bracketChars? at h
    split at h
    case isTrue =>
      split at h
      case isTrue =>
        obtain ⟨rest, hrest, rfl⟩ := Option.map_eq_some_iff.mp h
        rcases List.mem_cons.mp hname with rfl | hname
        · exact List.forall_mem_nil _
        · exact ih hrest hname
      case isFalse hclose =>
        split at h
        case isTrue => cases h
        case isFalse hopen =>
          obtain ⟨rest, hrest, rfl⟩ := Option.map_eq_some_iff.mp h
          cases rest with
          | nil => exact absurd hname List.not_mem_nil
          | cons first rest =>
            rw [List.modifyHead_cons] at hname
            rcases List.mem_cons.mp hname with rfl | hname
            · rw [List.forall_mem_cons]
              refine ⟨?_, ih hrest List.mem_cons_self⟩
              rw [isBracket, beq_eq_false_iff_ne.mpr hopen, beq_eq_false_iff_ne.mpr hclose]
              rfl
            · exact ih hrest (List.mem_cons_of_mem _ hname)
    case isFalse =>
      split at h
      case isTrue => exact ih h hname
      case isFalse =>
        split at h
        · obtain rfl := Option.some.inj h
          exact absurd hname List.not_mem_nil
        · cases h

theorem isPlain_of_parseKey {key name : String} {path : List String}
    (h : parseKey? key = some (name, path)) : ∀ part ∈ path, IsPlain part := by
  unfold parseKey? at h
  dsimp only at h
  split at h
  · cases h
  · obtain ⟨parts, hparts, heq⟩ := Option.map_eq_some_iff.mp h
    obtain ⟨-, rfl⟩ := Prod.mk.inj heq
    intro part hpart
    obtain ⟨cs, hcs, rfl⟩ := List.mem_map.mp hpart
    intro c hc
    rw [String.toList_ofList] at hc
    exact isPlain_of_mem_bracketChars hparts hcs c hc

/-- The names of the fields that are filtered have no brackets. -/
def HasPlainFields (p : ItemParams) : Prop := ∀ name ∈ p.filter.keys, IsPlain name

theorem hasPlainFields_put {p : ItemParams} {name : String} (h : p.HasPlainFields)
    (hname : IsPlain name) (f : FieldFilter) :
    HasPlainFields { p with filter := p.filter.put name f } := by
  intro other hother
  rw [Entries.keys_put] at hother
  split at hother
  · exact h other hother
  · rcases List.mem_append.mp hother with hother | hother
    · exact h other hother
    · rw [List.mem_singleton.mp hother]
      exact hname

theorem filter_addNumber (p : ItemParams) (name v : String) {put : Int → ItemParams}
    (h : ∀ n, (put n).filter = p.filter) : (p.addNumber name v put).filter = p.filter := by
  unfold addNumber
  split
  · exact h _
  · rfl

theorem filter_addPlain (p : ItemParams) (name v : String) :
    (p.addPlain name v).filter = p.filter := by
  simp only [addPlain, apply_ite ItemParams.filter, filter_addNumber, warn, ite_self, implies_true]

end ItemParams

-- ---------------------------------------------------------------------------
-- Filters
-- ---------------------------------------------------------------------------

namespace FilterParams

/-- What is said about the field of a name. -/
def results (name : String) (raw : Value) : List (Except String Filter) :=
  match raw with
  | .map operands => operands.map fun o => filterFor name o.1.display o.2
  | operand       => [bareFilter name operand]

theorem ofField_text (name : String) (raw : Value) :
    ofField (.text name) raw = .ok (results name raw) := by
  cases raw <;> rfl

/-- The filters among some results. -/
def kept (rs : List (Except String Filter)) : List Filter :=
  rs.filterMap fun
    | .ok f    => some f
    | .error _ => none

/-- Some results apart: the filters, and the warnings about what is none. -/
def ofResults (rs : List (Except String Filter)) : ParsedFilters where
  filters  := kept rs
  warnings := rs.filterMap fun
    | .ok _    => none
    | .error w => some w

/-- The filters of the entries, in order. -/
def filtersOf (es : Entries Value) : List Filter := es.flatMap fun e => kept (results e.1 e.2)

theorem parse_results (es : Entries Value) :
    parse (es.map fun e => (.text e.1, e.2)) =
      .ok (ofResults (es.flatMap fun e => results e.1 e.2)) := by
  have hmapM : (es.map fun e => (Value.text e.1, e.2)).mapM (fun p => ofField p.1 p.2) =
      .ok (es.map fun e => results e.1 e.2) := by
    rw [List.mapM_map]
    exact (congrArg (fun f => es.mapM f) (funext fun e => ofField_text e.1 e.2)).trans (mapM_ok _ es)
  unfold parse
  rw [hmapM, List.flatMap_def]
  rfl

theorem parse_record (es : Entries Value) :
    ∃ warnings, parse (es.map fun e => (.text e.1, e.2)) = .ok ⟨filtersOf es, warnings⟩ := by
  have hkept : kept (es.flatMap fun e => results e.1 e.2) = filtersOf es := by
    unfold kept filtersOf
    rw [List.filterMap_flatMap]
    rfl
  rw [parse_results, ← hkept]
  exact ⟨_, rfl⟩

theorem field_of_filterFor {name spelling : String} {operand : Value} {f : Filter}
    (h : filterFor name spelling operand = .ok f) : f.field = name := by
  unfold filterFor at h
  split at h
  · obtain rfl := Except.ok.inj h
    rfl
  · cases h

/-- A filter has the field under whose name it stands, unless the name has brackets. -/
theorem field_of_mem_kept {name : String} (hname : IsPlain name) {raw : Value} {f : Filter}
    (h : f ∈ kept (results name raw)) : f.field = name := by
  obtain ⟨r, hr, heq⟩ := List.mem_filterMap.mp h
  cases r with
  | error w => cases heq
  | ok g =>
    obtain rfl := Option.some.inj heq
    unfold results at hr
    split at hr
    · obtain ⟨o, -, ho⟩ := List.mem_map.mp hr
      exact field_of_filterFor ho
    · have hbare := List.mem_singleton.mp hr
      unfold bareFilter at hbare
      rw [bracketed?_of_isPlain hname] at hbare
      rw [Except.ok.inj hbare]

/-- Entries can be left out before or after they are read as filters. -/
theorem filtersOf_filter {es : Entries Value} (h : ∀ name ∈ es.keys, IsPlain name)
    (keep : String → Bool) :
    filtersOf (es.filter fun e => keep e.1) = (filtersOf es).filter fun f => keep f.field := by
  induction es with
  | nil => rfl
  | cons e es ih =>
    obtain ⟨hname, hnames⟩ := List.forall_mem_cons.mp h
    have hrest := ih hnames
    unfold filtersOf at hrest ⊢
    rw [List.flatMap_cons, List.filter_append, ← hrest, List.filter_cons]
    cases hkeep : keep e.1 with
    | true =>
      have hall : (kept (results e.1 e.2)).filter (fun f => keep f.field) =
          kept (results e.1 e.2) := by
        refine List.filter_eq_self.mpr fun f hf => ?_
        rw [field_of_mem_kept hname hf]
        exact hkeep
      rw [hall]
      rfl
    | false =>
      have hnone : (kept (results e.1 e.2)).filter (fun f => keep f.field) = [] := by
        refine List.filter_eq_nil_iff.mpr fun f hf => ?_
        rw [field_of_mem_kept hname hf, hkeep]
        exact Bool.false_ne_true
      rw [hnone]
      rfl

end FilterParams

-- ---------------------------------------------------------------------------
-- The other parameters
-- ---------------------------------------------------------------------------

namespace ItemParams

variable (p : ItemParams)

theorem asTextIfAny_optional (o : Option String) :
    (Value.optional .text o).asTextIfAny = .ok (o.filter (· ≠ "")) := by
  cases o with
  | none => rfl
  | some s =>
    by_cases hs : s = ""
    · subst hs
      rfl
    · have hvoid : (Value.text s).isVoid = false := beq_eq_false_iff_ne.mpr hs
      have hkeep : (some s).filter (· ≠ "") = some s := by simp [Option.filter, hs]
      rw [hkeep]
      show (if (Value.text s).isVoid then _ else _) = _
      rw [hvoid]
      rfl

/-- An empty list has nothing to read. -/
theorem map_getD_filter {α : Type} {f : String → List α} (h : f "" = []) (o : Option String) :
    ((o.filter (· ≠ "")).map f).getD [] = (o.map f).getD [] := by
  cases o with
  | none => rfl
  | some s =>
    by_cases hs : s = ""
    · subst hs
      exact h.symm
    · simp [Option.filter, hs]

theorem sortKeys_toRequest :
    p.toRequest.sortKeys = .ok ((p.sort.map SortKey.parse).getD []) := by
  unfold RequestParams.sortKeys
  rw [toRequest, asTextIfAny_optional]
  exact congrArg Except.ok (map_getD_filter rfl p.sort)

theorem includePaths_toRequest :
    p.toRequest.includePaths = .ok ((p.includes.map parseIncludes).getD []) := by
  unfold RequestParams.includePaths
  rw [toRequest, asTextIfAny_optional]
  exact congrArg Except.ok (map_getD_filter rfl p.includes)

theorem fieldChoice_toRequest (table : String) :
    p.toRequest.fieldChoice table = .ok (.optional .text (p.fields.get? table)) := by
  have hget : Mapping.get? (.text table)
      ((p.fields.map fun f => (f.1, Value.text f.2)).map fun e => (.text e.1, e.2)) =
        (p.fields.get? table).map .text := by
    rw [Mapping.get?_record, Entries.get?_map]
  exact congrArg (fun o : Option Value => Except.ok (o.getD .null)) hget

end ItemParams

end ListQuery
