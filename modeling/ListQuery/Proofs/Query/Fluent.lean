import ListQuery.Proofs.Query.OfItems

/-!
# Requests and chains of steps

A request whose parameters are of the kinds that they are meant to have does the same as the chain
of steps that are called one by one for them, but for the page. What the steps of the chain ignore,
the request warns of.

* `Ignores`, `IgnoresWith` — what a chain of steps ignores, and what is said about it;
* `isTyped_iff` — parameters of the kinds that they are meant to have;
* `follow_eq_fluent` — the steps of a request and the chain;
* `ofRequest_fluent` — the query of a request, and its warnings.
-/

namespace ListQuery

open Text

-- ---------------------------------------------------------------------------
-- Parameters of their own kinds
-- ---------------------------------------------------------------------------

namespace RequestParams

/-- Every parameter is of the kind that it is meant to have. Operands may be anything. -/
structure IsTyped (p : RequestParams) : Prop where
  filter   : ∃ es : Entries Value, p.filter = .record es
  sort     : ∃ o, p.sort = .optional .text o
  includes : ∃ o, p.includes = .optional .text o
  fields   : ∃ es : Entries String, p.fields = .record (es.map fun f => (f.1, .text f.2))
  page     : ∃ o, p.page = .optional .int o
  perPage  : ∃ o, p.perPage = .optional .int o
  paging   : ∃ o, p.paging = .optional .text o
  cursor   : ∃ o, p.cursor = .optional .text o
  append   : ∃ es : Entries String, p.append = .record (es.map fun a => (a.1, .text a.2))
  search   : ∃ o, p.search = .optional .text o
  warnings : ∃ messages : List String, p.warnings = .list (messages.map .text)

/-- Such parameters are those that items spell, with any operands. -/
theorem isTyped_iff {p : RequestParams} :
    p.IsTyped ↔ ∃ typed : ItemParams, p = typed.toRequest := by
  constructor
  · rintro ⟨⟨filter, hfilter⟩, ⟨sort, hsort⟩, ⟨includes, hincludes⟩, ⟨fields, hfields⟩,
      ⟨page, hpage⟩, ⟨perPage, hperPage⟩, ⟨paging, hpaging⟩, ⟨cursor, hcursor⟩, ⟨append, happend⟩,
      ⟨search, hsearch⟩, ⟨messages, hwarnings⟩⟩
    refine ⟨⟨filter.map fun f => (f.1, .bare f.2), sort, includes, fields, page, perPage, paging,
      cursor, append, search, messages⟩, ?_⟩
    have hoperands : (filter.map fun f => (f.1, FieldFilter.bare f.2)).map
        (fun f => (f.1, f.2.toValue)) = filter := by
      rw [List.map_map]
      exact List.map_id _
    show RequestParams.mk p.filter p.sort p.includes p.fields p.page p.perPage p.paging p.cursor
      p.append p.search p.warnings = _
    rw [ItemParams.toRequest, hoperands, hfilter, hsort, hincludes, hfields, hpage, hperPage,
      hpaging, hcursor, happend, hsearch, hwarnings]
  · rintro ⟨typed, rfl⟩
    exact ⟨⟨_, rfl⟩, ⟨_, rfl⟩, ⟨_, rfl⟩, ⟨_, rfl⟩, ⟨_, rfl⟩, ⟨_, rfl⟩, ⟨_, rfl⟩, ⟨_, rfl⟩, ⟨_, rfl⟩,
      ⟨_, rfl⟩, ⟨_, rfl⟩⟩

end RequestParams

namespace Query

-- ---------------------------------------------------------------------------
-- What a chain of steps ignores
-- ---------------------------------------------------------------------------

section
variable {α : Type}

/-- From one query a chain of the same step, for one item after the other, leads to another, and
these are the items at which it stays where it is. -/
inductive Ignores (step : Query → α → Except Failure Query) : Query → List α → List α → Query → Prop
  | done (q : Query) : Ignores step q [] [] q
  | ignored {q q' : Query} {a : α} {as ignored : List α} (h : step q a = .ok q)
      (rest : Ignores step q as ignored q') : Ignores step q (a :: as) (a :: ignored) q'
  | kept {q q₁ q' : Query} {a : α} {as ignored : List α} (h : step q a = .ok q₁) (hne : q₁ ≠ q)
      (rest : Ignores step q₁ as ignored q') : Ignores step q (a :: as) ignored q'

/-- The messages about the items that a chain of steps ignores, one for each. -/
def IgnoresWith (step : Query → α → Except Failure Query) (omitted? : α → Option (String × String))
    (q : Query) (as : List α) (messages : List String) (q' : Query) : Prop :=
  ∃ ignored, Ignores step q as ignored q' ∧
    List.Forall₂ (fun a message => ∃ parameter, omitted? a = some (parameter, message)) ignored
      messages

/-- Of steps that stay where they are at just the items that are omitted. The invariant is about the
items that are still to come and the query so far. -/
theorem ignoresWith_of_step {step : Query → α → Except Failure Query}
    {omitted? : α → Option (String × String)} {I : List α → Query → Prop}
    (hstep : ∀ a as q q₁, I (a :: as) q → step q a = .ok q₁ →
      I as q₁ ∧ ((omitted? a).isSome = true → q₁ = q) ∧ (omitted? a = none → q₁ ≠ q))
    {as : List α} {q q' : Query} (hq : I as q) (h : as.foldlM step q = .ok q') :
    IgnoresWith step omitted? q as ((as.filterMap omitted?).map (·.2)) q' := by
  unfold IgnoresWith
  induction as generalizing q with
  | nil =>
    obtain rfl := Except.ok.inj h
    exact ⟨[], .done q, .nil⟩
  | cons a as ih =>
    rw [List.foldlM_cons] at h
    obtain ⟨q₁, hq₁, h⟩ := bind_eq_ok.mp h
    obtain ⟨hnext, hsame, hother⟩ := hstep a as q q₁ hq hq₁
    obtain ⟨ignored, hignores, hmessages⟩ := ih hnext h
    rw [List.filterMap_cons]
    cases ho : omitted? a with
    | none => exact ⟨ignored, .kept hq₁ (hother ho) hignores, hmessages⟩
    | some o =>
      obtain rfl := hsame (by rw [ho]; rfl)
      exact ⟨a :: ignored, .ignored hq₁ hignores, .cons ⟨o.1, ho⟩ hmessages⟩

end

section
variable {q₀ q q' : Query}

theorem ne_of_append {α : Type} {f : Query → List α} {a : α} (h : f q' = f q ++ [a]) : q' ≠ q := by
  rintro rfl
  have hlength := congrArg List.length h
  rw [List.length_append] at hlength
  exact absurd hlength (by simp)

/-- Filters that are not accepted. -/
theorem ignoresWith_filter {fs : List Filter} (hadmitted : q.filterAll fs = .ok q') :
    IgnoresWith filter q.reset.omittedFilter? q fs
      ((fs.filterMap q.reset.omittedFilter?).map (·.2)) q' := by
  refine ignoresWith_of_step (I := fun _ r => r.reset = q.reset) ?_ rfl hadmitted
  intro f fs r r₁ hr hr₁
  rw [← hr]
  obtain ⟨hadmits, rfl⟩ := filter_eq_ok.mp hr₁
  refine ⟨rfl, fun homitted => ?_, fun hnone => ?_⟩
  · have hnot : r.accepted? f = none := by
      unfold omittedFilter? at homitted
      unfold accepted?
      rw [accept_reset] at homitted
      split at homitted
      case h_1 reason hreason =>
        rw [hreason]
        rfl
      case h_2 => cases homitted
    rw [hnot]
    show { r with filters := r.filters ++ [] } = r
    rw [List.append_nil]
  · have htaken : ∃ g, r.accepted? f = some g := by
      unfold omittedFilter? at hnone
      rw [accept_reset] at hnone
      unfold accepted?
      cases haccept : r.accept f with
      | ok g => exact ⟨g, rfl⟩
      | error refusal =>
        cases refusal with
        | dropped reason =>
          rw [haccept] at hnone
          cases hnone
        | failed fail => exact absurd haccept (hadmits fail)
    obtain ⟨g, hg⟩ := htaken
    rw [hg]
    exact ne_of_append (f := Query.filters) rfl

/-- Sorts that are not allowed. -/
theorem ignoresWith_sort (q : Query) (keys : List SortKey) :
    IgnoresWith (fun q s => .ok (q.sort s)) q.reset.omittedSort? q keys
      ((keys.filterMap q.reset.omittedSort?).map (·.2)) (q.sortAll keys) := by
  refine ignoresWith_of_step (I := fun _ r => r.reset = q.reset) ?_ rfl
    (List.foldlM_pure (m := Except Failure))
  intro s keys r r₁ hr hr₁
  obtain rfl := Except.ok.inj hr₁
  obtain ⟨sorts, hsort⟩ := r.exists_sort_eq s
  rw [← hr]
  refine ⟨?_, fun homitted => ?_, fun hnone => ?_⟩
  · rw [hsort]
    rfl
  · unfold omittedSort? at homitted
    rw [entity_reset] at homitted
    split at homitted
    case isTrue => cases homitted
    case isFalse hallowed => exact if_neg hallowed
  · unfold omittedSort? at hnone
    rw [entity_reset] at hnone
    split at hnone
    case isTrue hallowed =>
      have hadded : r.sort s = { r with sorts := r.sorts ++ [s] } := if_pos hallowed
      exact ne_of_append (f := Query.sorts) (congrArg Query.sorts hadded)
    case isFalse => cases hnone

/-- Includes that are not allowed, in a list that names each of them once. -/
theorem ignoresWith_include {paths : List String} (hpaths : paths.Nodup) (hq : q.includes = []) :
    IgnoresWith (fun q path => .ok (q.includePath path)) q.reset.omittedInclude? q paths
      ((paths.filterMap q.reset.omittedInclude?).map (·.2)) (paths.foldl includePath q) := by
  refine ignoresWith_of_step
    (I := fun paths r => r.reset = q.reset ∧ paths.Nodup ∧ ∀ path ∈ paths, path ∉ r.includes)
    ?_ ⟨rfl, hpaths, fun path _ => hq ▸ List.not_mem_nil⟩ (List.foldlM_pure (m := Except Failure))
  intro path paths r r₁ ⟨hr, hnodup, hnew⟩ hr₁
  obtain rfl := Except.ok.inj hr₁
  obtain ⟨hpath, hnodup⟩ := List.nodup_cons.mp hnodup
  obtain ⟨hnew, hrest⟩ := List.forall_mem_cons.mp hnew
  obtain ⟨includes, hincluded⟩ := r.exists_includePath_eq path
  have hcontains : r.includes.contains path = false := by simpa using hnew
  rw [← hr]
  unfold omittedInclude?
  rw [entity_reset]
  by_cases hallowed : r.entity.allowsInclude path = true
  · have hadded : r.includePath path = { r with includes := r.includes ++ [path] } :=
      if_pos (by rw [hallowed, hcontains]; rfl)
    rw [if_pos hallowed, hadded]
    refine ⟨⟨rfl, hnodup, fun other hother => ?_⟩, fun h => (nomatch h), fun _ => ?_⟩
    · show other ∉ r.includes ++ [path]
      rw [List.mem_append, List.mem_singleton]
      rintro (hmem | rfl)
      · exact hrest other hother hmem
      · exact hpath hother
    · exact ne_of_append (f := Query.includes) rfl
  · have hsame : r.includePath path = r :=
      includePath_of_not_allowed (Bool.eq_false_iff.mpr hallowed)
    rw [if_neg hallowed, hsame]
    exact ⟨⟨rfl, hnodup, hrest⟩, fun _ => rfl, fun h => (nomatch h)⟩

/-- Fields that are not allowed are not among those that are selected. -/
theorem omittedFields (q : Query) (names : List String) (hq : q.fields = none)
    (htrim : ∀ name ∈ names, trim name = name) :
    List.Forall₂ (fun name message => ∃ parameter,
        q.reset.omittedField? name = some (parameter, message))
      (names.filter fun name => !((q.select names).fields.getD []).contains name)
      ((names.filterMap q.reset.omittedField?).map (·.2)) := by
  have hmap : names.map trim = names := (List.map_congr_left htrim).trans (List.map_id _)
  have hselected : (q.select names).fields.getD [] =
      distinct (names.filter q.entity.allowsField) := by
    unfold select
    rw [hmap]
    split
    case h_1 hnone =>
      rw [hq, hnone]
      rfl
    case h_2 => rfl
  have hcontains : ∀ name ∈ names, (!((q.select names).fields.getD []).contains name) =
      (q.reset.omittedField? name).isSome := by
    intro name hname
    rw [hselected]
    unfold omittedField?
    rw [entity_reset]
    cases hallowed : q.entity.allowsField name with
    | true => simp [mem_distinct, hname, hallowed]
    | false => simp [mem_distinct, hallowed]
  rw [List.filter_congr hcontains]
  clear hmap hselected hcontains htrim hq
  induction names with
  | nil => exact .nil
  | cons name names ih =>
    rw [List.filter_cons, List.filterMap_cons]
    cases ho : q.reset.omittedField? name with
    | none => exact ih
    | some o => exact .cons ⟨o.1, ho⟩ ih

end

-- ---------------------------------------------------------------------------
-- The chain of steps for a request
-- ---------------------------------------------------------------------------

/-- The query after the steps that are called one by one for some filters and for what else the
parameters ask for, but for the page. -/
def fluent (q : Query) (fs : List Filter) (p : RequestParams) : Except Failure Query := do
  let q ← q.filterAll fs
  let q := q.sortAll (SortKey.parse (p.sort.text?.getD ""))
  let q := (parseIncludes (p.includes.text?.getD "")).foldl includePath q
  let q ← q.selectByTable (← p.fields.asMapping)
  let q := q.searchFor p.search.text?
  .ok ((← p.append.asMapping).foldl (fun q a => q.append a.1 a.2) q)

section
variable (q : Query) (p : ItemParams)

theorem select_trimmedNames (hblank : q.entity.allowsField "" = false) (names : List String) :
    q.select (RequestParams.trimmedNames names) = q.select names := by
  have hchosen : ((RequestParams.trimmedNames names).map trim).filter q.entity.allowsField =
      (names.map trim).filter q.entity.allowsField := by
    have htrimmed :
        (RequestParams.trimmedNames names).map trim = RequestParams.trimmedNames names :=
      (List.map_congr_left fun _ => RequestParams.trim_of_mem_trimmedNames).trans (List.map_id _)
    rw [htrimmed]
    unfold RequestParams.trimmedNames
    rw [List.filter_filter]
    refine List.filter_congr fun name _ => ?_
    by_cases hname : name = ""
    · rw [hname, hblank]
      rfl
    · simp [hname]
  unfold select
  rw [hchosen]

theorem searchForAny_optional (hq : q.search = none) (o : Option String) :
    q.searchForAny (.optional .text o) = .ok (q.searchFor o) := by
  have hnone : q = { q with search := none } := by rw [← hq]
  unfold searchForAny
  rw [ItemParams.asTextIfAny_optional]
  cases o with
  | none => exact congrArg Except.ok hnone
  | some term =>
    by_cases hterm : term = ""
    · subst hterm
      exact congrArg Except.ok hnone
    · rw [Option.filter_some, if_pos (by simpa using hterm)]
      rfl

theorem selectByTable_typed (hblank : q.entity.allowsField "" = false) :
    q.selectByTable ((p.fields.map fun f => (f.1, Value.text f.2)).map fun e => (.text e.1, e.2)) =
      .ok (q.select (p.fieldList q.entity.table)) := by
  unfold selectByTable ItemParams.fieldList
  rw [Mapping.get?_record, Entries.get?_map]
  cases p.fields.get? q.entity.table with
  | none => rfl
  | some list => exact congrArg Except.ok (select_trimmedNames q hblank (split ',' list)).symm

theorem exists_sortAll_eq (q : Query) (keys : List SortKey) :
    ∃ sorts, q.sortAll keys = { q with sorts } := by
  unfold sortAll
  induction keys generalizing q with
  | nil => exact ⟨q.sorts, rfl⟩
  | cons key keys ih =>
    obtain ⟨sorts, hsort⟩ := q.exists_sort_eq key
    obtain ⟨sorts', hrest⟩ := ih (q.sort key)
    exact ⟨sorts', hrest.trans (by rw [hsort])⟩

theorem exists_foldl_includePath_eq (q : Query) (paths : List String) :
    ∃ includes, paths.foldl includePath q = { q with includes } := by
  induction paths generalizing q with
  | nil => exact ⟨q.includes, rfl⟩
  | cons path paths ih =>
    obtain ⟨includes, hpath⟩ := q.exists_includePath_eq path
    obtain ⟨includes', hrest⟩ := ih (q.includePath path)
    exact ⟨includes', hrest.trans (by rw [hpath])⟩

theorem sortList_eq : SortKey.parse (p.toRequest.sort.text?.getD "") = p.sortList := by
  unfold ItemParams.sortList ItemParams.toRequest
  cases p.sort <;> rfl

theorem includeList_eq : parseIncludes (p.toRequest.includes.text?.getD "") = p.includeList := by
  unfold ItemParams.includeList ItemParams.toRequest
  cases p.includes <;> rfl

theorem fieldsOf_toRequest (table : String) : ∃ names, p.toRequest.fieldsOf table = .ok names ∧
    names.getD [] = p.fieldList table := by
  unfold RequestParams.fieldsOf
  rw [p.fieldChoice_toRequest]
  show ∃ names, (Value.asTextIfAny _ >>= _) = _ ∧ _
  rw [ItemParams.asTextIfAny_optional]
  exact ⟨_, rfl, ItemParams.map_getD_filter rfl _⟩

variable {e : Entity} {s : Settings}

/-- The steps of the chain, one after the other. -/
theorem fluent_eq (hblank : e.allowsField "" = false) :
    (fresh e s).fluent p.filters p.toRequest = (fresh e s).filterAll p.filters >>= fun q₁ =>
      let q₂ := q₁.sortAll p.sortList
      let q₃ := p.includeList.foldl includePath q₂
      let q₄ := (q₃.select (p.fieldList e.table)).searchFor p.search
      .ok ((p.append.map fun a => (Value.text a.1, Value.text a.2)).foldl
        (fun q a => q.append a.1 a.2) q₄) := by
  have htext : p.toRequest.search.text? = p.search := by
    unfold ItemParams.toRequest
    cases p.search <;> rfl
  unfold fluent
  rw [sortList_eq, includeList_eq, append_toRequest, htext]
  cases hfilters : (fresh e s).filterAll p.filters with
  | error fail => rfl
  | ok q₁ =>
    have hentity : (p.includeList.foldl includePath (q₁.sortAll p.sortList)).entity = e := by
      rw [entity_foldl_includePath, entity_sortAll]
      exact entity_filterAll hfilters
    have hselect := selectByTable_typed (p.includeList.foldl includePath (q₁.sortAll p.sortList)) p
      (by rw [hentity, hblank])
    rw [hentity] at hselect
    show selectByTable _ _ >>= _ = _
    rw [hselect]
    rfl

/-- A request does what the chain of steps does, and then asks for its page. -/
theorem follow_eq_fluent (hblank : e.allowsField "" = false) :
    (fresh e s).follow p.toRequest =
      (fresh e s).fluent p.filters p.toRequest >>= fun q => q.paged p.toRequest := by
  rw [follow_toRequest, fluent_eq p hblank]
  cases hfilters : (fresh e s).filterAll p.filters with
  | error fail => rfl
  | ok q₁ =>
    have hsearch : ((p.includeList.foldl includePath (q₁.sortAll p.sortList)).select
        (p.fieldList e.table)).search = none := by
      obtain ⟨sorts, hsort⟩ := q₁.exists_sortAll_eq p.sortList
      obtain ⟨includes, hinclude⟩ :=
        (q₁.sortAll p.sortList).exists_foldl_includePath_eq p.includeList
      obtain ⟨fields, hfields⟩ := exists_select_eq
        (p.includeList.foldl includePath (q₁.sortAll p.sortList)) (p.fieldList e.table)
      rw [hfields, hinclude, hsort, (filterAll_eq_ok.mp hfilters).2]
    have hterm : p.toRequest.search = .optional .text p.search := rfl
    show finish _ _ = _
    unfold finish
    rw [hterm, searchForAny_optional _ hsearch, append_toRequest]
    rfl

/-- What the chain of steps ignores. -/
theorem ignoresWith_fluent (hblank : e.allowsField "" = false) {q' : Query}
    (h : (fresh e s).fluent p.filters p.toRequest = .ok q') : ∃ q₁ q₂ q₃,
      IgnoresWith filter (fresh e s).omittedFilter? (fresh e s) p.filters
        ((p.filters.filterMap (fresh e s).omittedFilter?).map (·.2)) q₁ ∧
      IgnoresWith (fun q s => .ok (q.sort s)) (fresh e s).omittedSort? q₁ p.sortList
        ((p.sortList.filterMap (fresh e s).omittedSort?).map (·.2)) q₂ ∧
      IgnoresWith (fun q path => .ok (q.includePath path)) (fresh e s).omittedInclude? q₂
        p.includeList ((p.includeList.filterMap (fresh e s).omittedInclude?).map (·.2)) q₃ ∧
      List.Forall₂ (fun name message => ∃ parameter,
          (fresh e s).omittedField? name = some (parameter, message))
        ((p.fieldList e.table).filter fun name => !(q'.fields.getD []).contains name)
        (((p.fieldList e.table).filterMap (fresh e s).omittedField?).map (·.2)) := by
  rw [fluent_eq p hblank] at h
  obtain ⟨q₁, hfilters, h⟩ := bind_eq_ok.mp h
  obtain rfl := Except.ok.inj h
  obtain ⟨sorts, hsort⟩ := q₁.exists_sortAll_eq p.sortList
  obtain ⟨includes, hinclude⟩ := (q₁.sortAll p.sortList).exists_foldl_includePath_eq p.includeList
  have hq₁ := (filterAll_eq_ok.mp hfilters).2
  have hreset₁ : q₁.reset = fresh e s := by rw [hq₁]; rfl
  have hreset₂ : (q₁.sortAll p.sortList).reset = fresh e s := by rw [hsort]; exact hreset₁
  have hreset₃ : (p.includeList.foldl includePath (q₁.sortAll p.sortList)).reset = fresh e s := by
    rw [hinclude]
    exact hreset₂
  refine ⟨q₁, q₁.sortAll p.sortList, p.includeList.foldl includePath (q₁.sortAll p.sortList),
    ignoresWith_filter hfilters, ?_, ?_, ?_⟩
  · have hignores := ignoresWith_sort q₁ p.sortList
    rwa [hreset₁] at hignores
  · have hnodup : p.includeList.Nodup := by
      unfold ItemParams.includeList
      cases p.includes with
      | none => exact List.nodup_nil
      | some list => exact nodup_distinct _
    have hignores := ignoresWith_include (q := q₁.sortAll p.sortList) hnodup (by rw [hsort, hq₁])
    rwa [hreset₂] at hignores
  · have htrim : ∀ name ∈ p.fieldList e.table, trim name = name := by
      unfold ItemParams.fieldList
      cases p.fields.get? e.table with
      | none => exact fun name hname => absurd hname List.not_mem_nil
      | some list => exact fun name hname => RequestParams.trim_of_mem_trimmedNames hname
    have hfields : (p.includeList.foldl includePath (q₁.sortAll p.sortList)).fields = none := by
      rw [hinclude, hsort, hq₁]
    have homitted := omittedFields _ (p.fieldList e.table) hfields htrim
    rw [hreset₃] at homitted
    obtain ⟨appends, happends⟩ := exists_foldl_append_eq
      (((p.includeList.foldl includePath (q₁.sortAll p.sortList)).select
        (p.fieldList e.table)).searchFor p.search)
      (p.append.map fun a => (Value.text a.1, Value.text a.2))
    rw [happends]
    exact homitted

end

-- ---------------------------------------------------------------------------
-- Requests
-- ---------------------------------------------------------------------------

section
variable {e : Entity} {s : Settings} {p : RequestParams}

/-- A request comes to the query `q` where the chain of its steps comes to `q'`: they agree but for
the page, and the request warns, after what it brings along and what could not be parsed, of
everything that the chain ignores. -/
structure FollowsChain (e : Entity) (s : Settings) (p : RequestParams) (parsed : ParsedFilters)
    (q q' : Query) : Prop where
  filters  : q.filters = q'.filters
  sorts    : q.sorts = q'.sorts
  includes : q.includes = q'.includes
  fields   : q.fields = q'.fields
  search   : q.search = q'.search
  appends  : q.appends = q'.appends
  warnings : ∃ own requested q₁ q₂ q₃ filters sorts includes fields,
    p.ownWarnings = .ok own ∧ p.fieldsOf e.table = .ok requested ∧
    IgnoresWith filter (fresh e s).omittedFilter? (fresh e s) parsed.filters filters q₁ ∧
    IgnoresWith (fun q s => .ok (q.sort s)) (fresh e s).omittedSort? q₁
      (SortKey.parse (p.sort.text?.getD "")) sorts q₂ ∧
    IgnoresWith (fun q path => .ok (q.includePath path)) (fresh e s).omittedInclude? q₂
      (parseIncludes (p.includes.text?.getD "")) includes q₃ ∧
    List.Forall₂ (fun name message => ∃ parameter,
        (fresh e s).omittedField? name = some (parameter, message))
      ((requested.getD []).filter fun name => !(q'.fields.getD []).contains name) fields ∧
    q.warnings = own ++ (parsed.warnings ++ filters ++ sorts ++ includes ++ fields).map .text

/-- Under lenient rules a request fails as the chain of its steps does, and otherwise comes to the
same but for the page. It warns of all that the chain ignores, in order and once each. -/
theorem ofRequest_fluent (hs : s.strict = false) (hblank : e.allowsField "" = false)
    (hp : p.IsTyped) : ∃ parsed, p.parsedFilters = .ok parsed ∧
      SameOutcome (FollowsChain e s p parsed) (ofRequest e s p)
        ((fresh e s).fluent parsed.filters p) := by
  obtain ⟨p, rfl⟩ := RequestParams.isTyped_iff.mp hp
  obtain ⟨warnings, hparsed⟩ := p.parse_filter
  refine ⟨⟨p.filters, warnings⟩, hparsed, ?_⟩
  have hrequest := map_unwarned_ofRequest_items e p hs
  rw [follow_eq_fluent p hblank] at hrequest
  cases hchain : (fresh e s).fluent p.filters p.toRequest with
  | error fail =>
    rw [hchain] at hrequest
    cases hquery : ofRequest e s p.toRequest with
    | error fail' =>
      rw [hquery] at hrequest
      obtain rfl := Except.error.inj hrequest
      exact .error _
    | ok q =>
      rw [hquery] at hrequest
      cases hrequest
  | ok q' =>
    have hpage := q'.paged_toRequest p
    rw [hchain] at hrequest
    obtain ⟨q, hquery, hunwarned⟩ := map_eq_ok.mp (hrequest.trans hpage)
    have hwarnings : q.warnings = p.warnings.map .text ++ ((fresh e s).omissions
        ⟨⟨p.filters, warnings⟩, p.sortList, p.includeList, p.fieldList e.table⟩).warnings := by
      obtain ⟨own, asked, hown, hasked, -, hwarnings, -⟩ := ofRequest_eq_ok.mp hquery
      obtain rfl := Except.ok.inj (hown.symm.trans (ownWarnings_toRequest p))
      obtain rfl := Except.ok.inj (hasked.symm.trans (asked_toRequest p hparsed e.table))
      exact hwarnings
    obtain ⟨names, hnames, hlist⟩ := fieldsOf_toRequest p e.table
    obtain ⟨q₁, q₂, q₃, hfilters, hsorts, hincludes, hfields⟩ := ignoresWith_fluent p hblank hchain
    rw [← sortList_eq] at hsorts
    rw [← includeList_eq] at hincludes
    rw [← hlist] at hfields
    have hpart {β : Type} (part : Query → β) :
        part q.unwarned = part (q'.paginate (some (p.pageFor q'.settings))) :=
      congrArg part hunwarned
    rw [hquery]
    refine .ok
      { filters := hpart Query.filters
        sorts := hpart Query.sorts
        includes := hpart Query.includes
        fields := hpart Query.fields
        search := hpart Query.search
        appends := hpart Query.appends
        warnings := ⟨_, names, q₁, q₂, q₃, _, _, _, _, ownWarnings_toRequest p, hnames, hfilters,
          hsorts, hincludes, hfields, ?_⟩ }
    rw [hwarnings, ← sortList_eq, ← includeList_eq, ← hlist]
    simp [Omissions.warnings, omissions, Function.comp_def]

end

end Query

-- ---------------------------------------------------------------------------
-- A request of which half is ignored
-- ---------------------------------------------------------------------------

/-- Poems, whose rating is on no whitelist. -/
def Entity.poems : Entity where
  table            := "poems"
  filterFields     := ["title"]
  sortFields       := ["title"]
  selectFields     := ["id", "title"]
  includePaths     := ["author"]
  defaultSort      := none
  defaultSelection := none
  searchFields     := []
  primaryKey       := "id"
  softDelete       := none
  types            := [("id", .integer), ("title", .string), ("rating", .integer)]
  relations        := []

/-- Every list names something that is not allowed, and the fields have a blank among them. -/
def ratedPoems : RequestParams :=
  .ofItems [("filter[rating]", "5"), ("filter[title]", "a"), ("sort", "-rating,title"),
    ("include", "author,reviewer"), ("fields[poems]", "title, ,rating"), ("search", " b ")]

set_option maxRecDepth 4000 in
theorem Query.ofRequest_fluent_poems :
    Settings.standard.strict = false ∧ Entity.poems.allowsField "" = false ∧ ratedPoems.IsTyped ∧
    ∃ parsed q q', ratedPoems.parsedFilters = .ok parsed ∧
      Query.ofRequest .poems .standard ratedPoems = .ok q ∧
      (Query.fresh .poems .standard).fluent parsed.filters ratedPoems = .ok q' ∧
      q.warnings.length = 4 ∧ q'.warnings = [] ∧
      Query.FollowsChain .poems .standard ratedPoems parsed q q' := by
  have htyped : ratedPoems.IsTyped := RequestParams.isTyped_iff.mpr ⟨_, rfl⟩
  obtain ⟨parsed, hparsed, houtcome⟩ :=
    Query.ofRequest_fluent (e := .poems) (s := .standard) rfl rfl htyped
  obtain ⟨q, hq, hwarned⟩ : ∃ q, Query.ofRequest .poems .standard ratedPoems = .ok q ∧
      q.warnings.length = 4 := ⟨_, rfl, rfl⟩
  obtain ⟨parsed', hparsed', q', hq', hsilent⟩ : ∃ parsed, ratedPoems.parsedFilters = .ok parsed ∧
      ∃ q', (Query.fresh .poems .standard).fluent parsed.filters ratedPoems = .ok q' ∧
        q'.warnings = [] := ⟨_, rfl, _, rfl, rfl⟩
  obtain rfl := Except.ok.inj (hparsed.symm.trans hparsed')
  rw [hq, hq'] at houtcome
  cases houtcome with
  | ok hfollows =>
    exact ⟨rfl, rfl, htyped, parsed, q, q', hparsed, hq, hq', hwarned, hsilent, hfollows⟩

end ListQuery
