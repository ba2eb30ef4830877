import ListQuery.Proofs.Request.Repeatable

/-!
# Parameters written as items

Parameters that can be repeated are written text by text: a filter as one item for each text of each
of its operands. Read again, the texts of an operand gather in the order in which they were written,
the operands of a field under their operators, and the fields under their names.

* `toItems_toRequest` — what is written;
* `assemble_parts`, `foldl_filterTexts` — filters that are read again;
* `foldl_written` — all parameters but those that choose a page.
-/

namespace ListQuery

open Text FilterParams

-- ---------------------------------------------------------------------------
-- Writing
-- ---------------------------------------------------------------------------

/-- The texts of an operand. -/
def operandTexts : Value → List String
  | .list vs => vs.map Value.display
  | v        => [v.display]

theorem operandTexts_gathered (ts : List String) : operandTexts (gathered ts) = ts := by
  match ts with
  | []          => rfl
  | [_]         => rfl
  | _ :: _ :: _ => simp [gathered, operandTexts, Value.display, Function.comp_def]

theorem gathered_ne_map (ts : List String) (es : Mapping) : gathered ts ≠ .map es := by
  unfold gathered
  split <;> simp

/-- What a filter asks of its field, text by text: the operator, if there is one, and an operand. -/
def FieldFilter.parts : FieldFilter → List (Option String × String)
  | .byOperator os => os.flatMap fun o => (operandTexts o.2).map fun t => (some o.1, t)
  | .bare v        => (operandTexts v).map fun t => (none, t)

namespace ItemParams

/-- The item of a parameter, if it is there. -/
def optionalTexts {α : Type} (name : String) (spell : α → String) (x : Option α) :
    List (String × String) :=
  x.toList.map fun a => (name, spell a)

/-- A text that says nothing is left out. -/
def plainTexts (name : String) (text : Option String) : List (String × String) :=
  optionalTexts name id (text.filter (· ≠ ""))

def keyedTexts (name : String) (es : Entries String) : List (String × String) :=
  es.map fun e => (name ++ "[" ++ e.1 ++ "]", e.2)

def filterTexts (es : Entries FieldFilter) : List (String × String) :=
  es.flatMap fun e => e.2.parts.map fun part => (filterKey e.1 part.1, part.2)

/-- The parameters as items, but for those that choose a page. -/
def written (p : ItemParams) : List (String × String) :=
  filterTexts p.filter ++ plainTexts "sort" p.sort ++ plainTexts "include" p.includes ++
    plainTexts "pagination_type" p.paging ++ plainTexts "search" p.search ++
    keyedTexts "fields" p.fields ++ keyedTexts "append" p.append

/-- Texts as values. -/
def spelled (items : List (String × String)) : QueryItems := items.map fun i => (i.1, .text i.2)

theorem display_spelled (items : List (String × String)) :
    (spelled items).map (fun i => (i.1, i.2.display)) = items := by
  simp [spelled, Value.display, Function.comp_def]

theorem operandItems_gathered {v : Value} (h : IsGathered v) (key : String) :
    RequestParams.operandItems key v = (operandTexts v).map fun t => (key, .text t) := by
  obtain ⟨ts, -, rfl⟩ := h
  rw [operandTexts_gathered]
  match ts with
  | []          => rfl
  | [_]         => rfl
  | _ :: _ :: _ => simp [gathered, RequestParams.operandItems, Function.comp_def]

theorem filterItems_byOperator (field : String) (os : Entries Value) :
    RequestParams.filterItems (.text field, (FieldFilter.byOperator os).toValue) =
      os.flatMap fun o => RequestParams.operandItems (filterKey field (some o.1)) o.2 := by
  simp only [FieldFilter.toValue, Value.record, RequestParams.filterItems, List.flatMap_map]
  rfl

theorem filterItems_bare {v : Value} (h : ∀ es, v ≠ .map es) (field : String) :
    RequestParams.filterItems (.text field, (FieldFilter.bare v).toValue) =
      RequestParams.operandItems (filterKey field none) v := by
  rw [FieldFilter.toValue]
  unfold RequestParams.filterItems
  split
  · exact absurd ‹_› (h _)
  · rfl

theorem filterItems_toValue {f : FieldFilter} (h : f.IsRepeatable) (field : String) :
    RequestParams.filterItems (.text field, f.toValue) =
      spelled (f.parts.map fun part => (filterKey field part.1, part.2)) := by
  cases f with
  | byOperator os =>
    simp only [filterItems_byOperator, FieldFilter.parts, spelled, List.map_flatMap, List.map_map]
    refine List.flatMap_congr fun o ho => ?_
    rw [operandItems_gathered (h.2.2 o ho).2]
    rfl
  | bare v =>
    have hmap : ∀ es, v ≠ .map es := by
      obtain ⟨ts, -, rfl⟩ := h
      exact gathered_ne_map ts
    rw [filterItems_bare hmap, operandItems_gathered h]
    simp [spelled, FieldFilter.parts, Function.comp_def]

theorem plainItem_optional (name : String) (text : Option String) :
    RequestParams.plainItem name (.optional .text text) = spelled (plainTexts name text) := by
  cases text with
  | none => rfl
  | some t =>
    by_cases ht : t = ""
    · subst ht
      rfl
    · simp [RequestParams.plainItem, Value.optional, Value.isVoid, ht, plainTexts, optionalTexts,
        spelled, Option.filter]

theorem keyedItems_record (name : String) (es : Entries String) :
    RequestParams.keyedItems name
        ((es.map fun e => (e.1, Value.text e.2)).map fun e => (.text e.1, e.2)) =
      spelled (keyedTexts name es) := by
  simp [RequestParams.keyedItems, keyedTexts, spelled, Value.display, Function.comp_def]

theorem written_eq (p : ItemParams) :
    p.written = filterTexts p.filter ++ { p with filter := [] }.written := by
  simp only [written, filterTexts, List.flatMap_nil, List.nil_append, List.append_assoc]

/-- The parameters as items: the filters, and the others as they are written. -/
theorem toItems_eq (p : ItemParams) :
    p.toRequest.toItems =
      .ok (p.filter.flatMap (fun e => RequestParams.filterItems (.text e.1, e.2.toValue)) ++
        spelled { p with filter := [] }.written) := by
  have hfilters : ((p.filter.map fun f => (f.1, f.2.toValue)).map fun e =>
      (Value.text e.1, e.2)).flatMap RequestParams.filterItems =
        p.filter.flatMap fun e => RequestParams.filterItems (.text e.1, e.2.toValue) := by
    rw [List.map_map, List.flatMap_map]
    rfl
  show Except.ok (List.flatMap RequestParams.filterItems _ ++
      RequestParams.plainItem "sort" (.optional .text p.sort) ++
      RequestParams.plainItem "include" (.optional .text p.includes) ++
      RequestParams.plainItem "pagination_type" (.optional .text p.paging) ++
      RequestParams.plainItem "search" (.optional .text p.search) ++
      RequestParams.keyedItems "fields" _ ++ RequestParams.keyedItems "append" _) = _
  rw [hfilters, keyedItems_record, keyedItems_record]
  simp only [plainItem_optional, written, filterTexts, spelled, List.flatMap_nil, List.nil_append,
    List.map_append, List.append_assoc]

theorem toItems_toRequest {p : ItemParams} (h : p.IsRepeatable) :
    p.toRequest.toItems = .ok (spelled p.written) := by
  have hfilters : p.filter.flatMap (fun e => RequestParams.filterItems (.text e.1, e.2.toValue)) =
      spelled (filterTexts p.filter) := by
    rw [spelled, filterTexts, List.map_flatMap]
    exact List.flatMap_congr fun e he => filterItems_toValue (h.filter.2 e he).2.2 e.1
  rw [toItems_eq, hfilters, written_eq p, spelled, spelled, spelled, List.map_append]

-- ---------------------------------------------------------------------------
-- Reading filters
-- ---------------------------------------------------------------------------

/-- A text for an operand of which there may be some already. -/
def addText (existing : Option Value) (t : String) : Value := collect existing (.text t)

theorem assemble_gathered {done : List String} (hne : done ≠ []) (ts : List String) :
    Entries.assemble addText (some (gathered done)) ts = some (gathered (done ++ ts)) := by
  induction ts generalizing done with
  | nil => rw [List.append_nil]; rfl
  | cons t ts ih =>
    have hmore := ih (List.append_ne_nil_of_right_ne_nil done (List.cons_ne_nil t []))
    rw [List.append_assoc, List.singleton_append, ← collect_gathered hne] at hmore
    exact hmore

/-- The texts of an operand make it again. -/
theorem assemble_operandTexts {v : Value} (h : IsGathered v) :
    Entries.assemble addText none (operandTexts v) = some v := by
  obtain ⟨ts, hne, rfl⟩ := h
  obtain ⟨t, ts, rfl⟩ := List.exists_cons_of_ne_nil hne
  rw [operandTexts_gathered]
  exact assemble_gathered (List.cons_ne_nil t []) ts

theorem assemble_bare (existing : Option Value) (ts : List String) :
    Entries.assemble addPart (existing.map .bare) (ts.map fun t => (none, t)) =
      (Entries.assemble addText existing ts).map .bare := by
  induction ts generalizing existing with
  | nil => rfl
  | cons t ts ih =>
    rw [Entries.assemble, List.map_cons, List.foldl_cons]
    have hadd : addPart (existing.map .bare) (none, t) = .bare (addText existing t) := by
      cases existing <;> rfl
    rw [hadd]
    exact ih (some (addText existing t))

theorem assemble_byOperator (os : Entries Value) (pieces : List (String × String)) :
    Entries.assemble addPart (some (.byOperator os)) (pieces.map fun q => (some q.1, q.2)) =
      some (.byOperator (pieces.foldl (Entries.addPiece addText) os)) := by
  induction pieces generalizing os with
  | nil => rfl
  | cons q pieces ih => exact ih (Entries.addPiece addText os q)

/-- The parts of a filter make it again. -/
theorem assemble_parts {f : FieldFilter} (h : f.IsRepeatable) :
    Entries.assemble addPart none f.parts = some f := by
  cases f with
  | bare v =>
    have hbare := assemble_bare none (operandTexts v)
    rw [assemble_operandTexts h] at hbare
    exact hbare
  | byOperator os =>
    obtain ⟨hne, hos⟩ := h
    have hparts : FieldFilter.parts (.byOperator os) =
        (os.flatMap fun o => (operandTexts o.2).map fun t => (o.1, t)).map
          fun q => (some q.1, q.2) := by
      simp [FieldFilter.parts, List.map_flatMap, Function.comp_def]
    have hmake : (os.flatMap fun o => (operandTexts o.2).map fun t => (o.1, t)).foldl
        (Entries.addPiece addText) [] = [] ++ os :=
      Entries.foldl_addPiece addText (fun o ho => assemble_operandTexts (hos.2 o ho).2) hos.1
    rw [hparts]
    generalize (os.flatMap fun o => (operandTexts o.2).map fun t => (o.1, t)) = pieces at hmake
    -- the first part meets no filter, which is like one without operands
    cases pieces with
    | nil => exact absurd hmake.symm hne
    | cons q pieces =>
      have hfirst := assemble_byOperator [] (q :: pieces)
      rw [hmake] at hfirst
      exact hfirst

theorem foldl_targets (targets : List (String × Option String × String))
    (h : ∀ q ∈ targets, filterTarget? (filterKey q.1 q.2.1) = some (q.1, q.2.1)) (p : ItemParams) :
    (targets.map fun q => (filterKey q.1 q.2.1, q.2.2)).foldl addItem p =
      { p with filter := targets.foldl (Entries.addPiece addPart) p.filter } := by
  induction targets generalizing p with
  | nil => rfl
  | cons q targets ih =>
    obtain ⟨hq, htargets⟩ := List.forall_mem_cons.mp h
    rw [List.map_cons, List.foldl_cons, addItem_of_target hq, ih htargets]
    rfl

theorem isName_of_mem_parts {f : FieldFilter} (h : f.IsRepeatable)
    {part : Option String × String} (hpart : part ∈ f.parts) : ∀ o ∈ part.1, IsName o := by
  cases f with
  | bare v =>
    obtain ⟨t, -, rfl⟩ := List.mem_map.mp hpart
    simp
  | byOperator os =>
    obtain ⟨o, ho, hpart⟩ := List.mem_flatMap.mp hpart
    obtain ⟨t, -, rfl⟩ := List.mem_map.mp hpart
    intro op hop
    obtain rfl := Option.some.inj hop
    exact (h.2.2 o ho).1

theorem foldl_filterTexts {es : Entries FieldFilter}
    (h : es.Each fun field f => IsName field ∧ field ≠ "" ∧ f.IsRepeatable) {p : ItemParams}
    (hp : p.filter = []) : (filterTexts es).foldl addItem p = { p with filter := es } := by
  have htexts : filterTexts es = (es.flatMap fun e => e.2.parts.map fun part => (e.1, part)).map
      fun q => (filterKey q.1 q.2.1, q.2.2) := by
    simp [filterTexts, List.map_flatMap, Function.comp_def]
  have htargets : ∀ q ∈ es.flatMap fun e => e.2.parts.map fun part => (e.1, part),
      filterTarget? (filterKey q.1 q.2.1) = some (q.1, q.2.1) := by
    intro q hq
    obtain ⟨e, he, hq⟩ := List.mem_flatMap.mp hq
    obtain ⟨part, hpart, rfl⟩ := List.mem_map.mp hq
    obtain ⟨hfield, hne, hf⟩ := h.2 e he
    exact filterTarget?_filterKey hfield hne (isName_of_mem_parts hf hpart)
  have hmake : (es.flatMap fun e => e.2.parts.map fun part => (e.1, part)).foldl
      (Entries.addPiece addPart) [] = [] ++ es :=
    Entries.foldl_addPiece addPart (fun e he => assemble_parts (h.2 e he).2.2) h.1
  rw [htexts, foldl_targets _ htargets, hp, hmake]
  rfl

-- ---------------------------------------------------------------------------
-- Reading the other parameters
-- ---------------------------------------------------------------------------

variable {p : ItemParams}

/-- Texts under keys, where there were none. -/
theorem foldl_keyedTexts {name : String} {es : Entries String}
    (hes : es.Each fun key _ => IsPlain key) {f : Entries String → ItemParams} (hnone : f [] = p)
    (hadd : ∀ inner v m, IsPlain inner →
      (f m).addItem (name ++ "[" ++ inner ++ "]", v) = f (m.put inner v)) :
    (keyedTexts name es).foldl addItem p = f es := by
  have hput : ∀ l : Entries String, (∀ e ∈ l, IsPlain e.1) → ∀ m,
      (keyedTexts name l).foldl addItem (f m) =
        f (l.foldl (fun m e => Entries.put e.1 e.2 m) m) := by
    intro l hl
    induction l with
    | nil => exact fun _ => rfl
    | cons e l ih =>
      intro m
      obtain ⟨he, hl⟩ := List.forall_mem_cons.mp hl
      rw [keyedTexts, List.map_cons, List.foldl_cons, hadd _ _ _ he]
      exact ih hl _
  have hmake : es.foldl (fun m e => Entries.put e.1 e.2 m) [] = es :=
    Entries.ofList_of_nodup hes.1
  rw [← hnone, hput es hes.2, hmake]

theorem foldl_fields (hp : p.fields = []) {es : Entries String}
    (hes : es.Each fun key _ => IsPlain key) :
    (keyedTexts "fields" es).foldl addItem p = { p with fields := es } :=
  foldl_keyedTexts hes (f := fun m => { p with fields := m }) (by cases p; cases hp; rfl)
    fun _ _ _ hinner => addItem_fields hinner _ _

theorem foldl_append (hp : p.append = []) {es : Entries String}
    (hes : es.Each fun key _ => IsPlain key) :
    (keyedTexts "append" es).foldl addItem p = { p with append := es } :=
  foldl_keyedTexts hes (f := fun m => { p with append := m }) (by cases p; cases hp; rfl)
    fun _ _ _ hinner => addItem_append hinner _ _

/-- A parameter that is there, where there was none. -/
theorem foldl_optionalTexts {α : Type} {name : String} (hname : IsParameter name)
    {spell : α → String} {x : Option α} {f : Option α → ItemParams}
    (hnone : f none = p) (hadd : ∀ a ∈ x, p.addPlain name (spell a) = f (some a)) :
    (optionalTexts name spell x).foldl addItem p = f x := by
  cases x with
  | none => exact hnone.symm
  | some a => exact (addItem_plain hname p _).trans (hadd a rfl)

theorem filter_ne_blank {o : Option String} (h : o ≠ some "") : o.filter (· ≠ "") = o := by
  cases o with
  | none => rfl
  | some t =>
    have ht : t ≠ "" := fun hblank => h (congrArg some hblank)
    simp [Option.filter, ht]

theorem plainTexts_of_nonblank {text : Option String} (h : text ≠ some "") (name : String) :
    plainTexts name text = optionalTexts name id text := by
  rw [plainTexts, filter_ne_blank h]

theorem foldl_sort (hp : p.sort = none) {text : Option String} (htext : text ≠ some "") :
    (plainTexts "sort" text).foldl addItem p = { p with sort := text } := by
  rw [plainTexts_of_nonblank htext]
  exact foldl_optionalTexts (f := fun o => { p with sort := o }) (by decide)
    (by cases p; cases hp; rfl) fun t _ => by simp [addPlain, hp, joined]

theorem foldl_includes (hp : p.includes = none) {text : Option String} (htext : text ≠ some "") :
    (plainTexts "include" text).foldl addItem p = { p with includes := text } := by
  rw [plainTexts_of_nonblank htext]
  exact foldl_optionalTexts (f := fun o => { p with includes := o }) (by decide)
    (by cases p; cases hp; rfl) fun t _ => by simp [addPlain, hp, joined]

theorem lower_trim_of_mode {mode : String} (h : mode = "cursor" ∨ mode = "offset") :
    lower (trim mode) = mode := by
  rcases h with rfl | rfl <;> decide +kernel

theorem foldl_paging (hp : p.paging = none) {mode : Option String}
    (hmode : ∀ m ∈ mode, m = "cursor" ∨ m = "offset") :
    (plainTexts "pagination_type" mode).foldl addItem p = { p with paging := mode } := by
  have hblank : mode ≠ some "" := fun h => by simpa using hmode "" h
  rw [plainTexts_of_nonblank hblank]
  exact foldl_optionalTexts (f := fun o => { p with paging := o }) (by decide)
    (by cases p; cases hp; rfl) fun m hm => by
      simp [addPlain, lower_trim_of_mode (hmode m hm), hmode m hm]

theorem nonEmpty_of_mem {text : Option String} (h : text ≠ some "") {t : String} (ht : t ∈ text) :
    nonEmpty t = some t :=
  if_neg fun hblank : t = "" => h (hblank ▸ ht)

theorem foldl_search (hp : p.search = none) {text : Option String} (htext : text ≠ some "") :
    (plainTexts "search" text).foldl addItem p = { p with search := text } := by
  rw [plainTexts_of_nonblank htext]
  exact foldl_optionalTexts (f := fun o => { p with search := o }) (by decide)
    (by cases p; cases hp; rfl) fun t ht => by
      simp [addPlain, nonEmpty_of_mem htext ht]

/-- Parameters are read from what is written of them, but for those that choose a page. -/
theorem foldl_written (h : p.IsRepeatable) (hsort : p.sort ≠ some "")
    (hincludes : p.includes ≠ some "") :
    p.written.foldl addItem {} =
      { p with page := none, perPage := none, cursor := none, warnings := [] } := by
  simp only [written, List.foldl_append]
  rw [foldl_filterTexts h.filter rfl, foldl_sort rfl hsort, foldl_includes rfl hincludes,
    foldl_paging rfl h.paging, foldl_search rfl h.search, foldl_fields rfl h.fields,
    foldl_append rfl h.append]

end ItemParams

end ListQuery
