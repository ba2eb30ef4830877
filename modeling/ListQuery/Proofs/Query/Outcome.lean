import ListQuery.Proofs.Query.Omissions

/-!
# What a request comes to

A request comes to a query or fails, and strict rules may reject it. Here both are told from what
the request asks for: the filters are taken one by one, and nothing but a filter rejects a request
before all of it has been looked at.

* `filterAll_eq_ok`, `filterAll_eq_error` — the filters;
* `follow_eq_ok`, `follow_eq_rejected` — the steps of a request;
* `ofRequest_eq_ok`, `ofRequest_eq_rejected` — its query, and its rejection.
-/

namespace ListQuery

-- ---------------------------------------------------------------------------
-- The filters of a request, one by one
-- ---------------------------------------------------------------------------

namespace Query

open RequestParams

section
variable {q q' : Query} {fs : List Filter} {fail : Failure}

/-- The filter as the query takes it, if it does. -/
def accepted? (q : Query) (f : Filter) : Option Filter := (q.accept f).toOption

/-- A filter that does not fail the request is taken or left out. -/
def Admits (q : Query) (f : Filter) : Prop := ∀ fail, q.accept f ≠ .error (.failed fail)

theorem filter_eq_ok {f : Filter} :
    q.filter f = .ok q' ↔
      q.Admits f ∧ q' = { q with filters := q.filters ++ (q.accepted? f).toList } := by
  unfold filter Admits accepted?
  cases q.accept f with
  | ok accepted =>
    refine ⟨fun h => ⟨fun _ hfail => (nomatch hfail), (Except.ok.inj h).symm⟩, fun h => ?_⟩
    rw [h.2]
    rfl
  | error refusal =>
    cases refusal with
    | dropped reason =>
      have hsame : q = { q with filters := q.filters ++ [] } := by rw [List.append_nil]
      refine ⟨fun h => ⟨fun _ hfail => (nomatch hfail), ?_⟩, fun h => ?_⟩
      · rw [← Except.ok.inj h]
        exact hsame
      · rw [h.2]
        exact congrArg Except.ok hsame
    | failed fail => exact ⟨fun h => (nomatch h), fun h => absurd rfl (h.1 fail)⟩

theorem filterAll_cons (q : Query) (f : Filter) (fs : List Filter) :
    q.filterAll (f :: fs) = q.filter f >>= (·.filterAll fs) := rfl

/-- Filters of which none fails the request. -/
theorem filterAll_eq_ok :
    q.filterAll fs = .ok q' ↔
      (∀ f ∈ fs, q.Admits f) ∧
        q' = { q with filters := q.filters ++ fs.filterMap q.accepted? } := by
  induction fs generalizing q with
  | nil =>
    have hsame : q = { q with filters := q.filters ++ [] } := by rw [List.append_nil]
    refine ⟨fun h => ⟨List.forall_mem_nil _, ?_⟩, fun h => ?_⟩
    · rw [← Except.ok.inj h]
      exact hsame
    · rw [h.2]
      exact congrArg Except.ok hsame
  | cons f fs ih =>
    have hmore : q.filters ++ (f :: fs).filterMap q.accepted? =
        q.filters ++ (q.accepted? f).toList ++ fs.filterMap q.accepted? := by
      rw [List.filterMap_cons, List.append_assoc]
      cases q.accepted? f <;> rfl
    rw [filterAll_cons, bind_eq_ok, List.forall_mem_cons, hmore]
    constructor
    · rintro ⟨q₁, hq₁, hq'⟩
      obtain ⟨hf, rfl⟩ := filter_eq_ok.mp hq₁
      obtain ⟨hfs, rfl⟩ := ih.mp hq'
      exact ⟨⟨hf, hfs⟩, rfl⟩
    · rintro ⟨⟨hf, hfs⟩, rfl⟩
      exact ⟨_, filter_eq_ok.mpr ⟨hf, rfl⟩, ih.mpr ⟨hfs, rfl⟩⟩

/-- The first filter that fails the request. -/
theorem filterAll_eq_error :
    q.filterAll fs = .error fail ↔ ∃ before f after, fs = before ++ f :: after ∧
      (∀ g ∈ before, q.Admits g) ∧ q.accept f = .error (.failed fail) := by
  induction fs generalizing q with
  | nil =>
    refine ⟨fun h => (nomatch h), ?_⟩
    rintro ⟨before, f, after, hnil, -⟩
    exact absurd hnil (by simp)
  | cons f fs ih =>
    rw [filterAll_cons]
    constructor
    · intro h
      cases hf : q.filter f with
      | error fail' =>
        rw [hf] at h
        obtain rfl := Except.error.inj h
        refine ⟨[], f, fs, rfl, List.forall_mem_nil _, ?_⟩
        unfold filter at hf
        split at hf
        case h_3 hfailed =>
          obtain rfl := Except.error.inj hf
          exact hfailed
        all_goals cases hf
      | ok q₁ =>
        rw [hf] at h
        obtain ⟨hadmits, rfl⟩ := filter_eq_ok.mp hf
        obtain ⟨before, g, after, rfl, hbefore, hg⟩ := ih.mp h
        exact ⟨f :: before, g, after, rfl, List.forall_mem_cons.mpr ⟨hadmits, hbefore⟩, hg⟩
    · rintro ⟨before, g, after, heq, hbefore, hg⟩
      cases before with
      | nil =>
        obtain ⟨rfl, rfl⟩ := List.cons.inj heq
        unfold filter
        rw [hg]
        rfl
      | cons f' before =>
        obtain ⟨rfl, rfl⟩ := List.cons.inj heq
        obtain ⟨hadmits, hbefore⟩ := List.forall_mem_cons.mp hbefore
        rw [filter_eq_ok.mpr ⟨hadmits, rfl⟩]
        exact ih.mpr ⟨before, g, after, rfl, hbefore, hg⟩

end

-- ---------------------------------------------------------------------------
-- The steps of a request
-- ---------------------------------------------------------------------------

variable (q : Query) (p : RequestParams)

/-- The query after all that is asked for but the filters. -/
def project (asked : Asked) : Query :=
  (asked.paths.foldl includePath (q.sortAll asked.keys)).select asked.names

/-- The steps of a request on a table that come after its filters. -/
def followRest (table : String) : Except Failure Query := do
  let q := q.sortAll (← p.sortKeys)
  let q := (← p.includePaths).foldl includePath q
  let q ← q.selectChoice (← p.fieldChoice table)
  q.finish p

theorem follow_eq : q.follow p = p.parsedFilters >>= fun parsed =>
    q.filterAll parsed.filters >>= fun q' => q'.followRest p q.entity.table := by
  unfold follow parsedFilters
  rw [bind_assoc]
  rfl

theorem selectChoice_eq (choice : Value) :
    q.selectChoice choice = (chosenNames choice).map q.select := by
  unfold selectChoice chosenNames
  split
  · rfl
  · cases namesOf choice <;> rfl

theorem parsedFilters_of_asked {p : RequestParams} {table : String} {asked : Asked}
    (h : p.asked table = .ok asked) :
    p.parsedFilters = .ok asked.parsed := by
  obtain ⟨parsed, hparsed, h⟩ := bind_eq_ok.mp h
  obtain ⟨keys, -, h⟩ := bind_eq_ok.mp h
  obtain ⟨paths, -, h⟩ := bind_eq_ok.mp h
  obtain ⟨choice, -, h⟩ := bind_eq_ok.mp h
  obtain ⟨names, -, h⟩ := bind_eq_ok.mp h
  obtain rfl := Except.ok.inj h
  exact hparsed

/-- A request succeeds with what it asks for. -/
theorem follow_eq_ok {q q' : Query} {p : RequestParams} :
    q.follow p = .ok q' ↔ ∃ asked, p.asked q.entity.table = .ok asked ∧
      ∃ q₁, q.filterAll asked.parsed.filters = .ok q₁ ∧ (q₁.project asked).finish p = .ok q' := by
  constructor
  · intro h
    obtain ⟨params, hparams, h⟩ := bind_eq_ok.mp h
    obtain ⟨parsed, hparsed, h⟩ := bind_eq_ok.mp h
    obtain ⟨q₁, hq₁, h⟩ := bind_eq_ok.mp h
    obtain ⟨keys, hkeys, h⟩ := bind_eq_ok.mp h
    obtain ⟨paths, hpaths, h⟩ := bind_eq_ok.mp h
    obtain ⟨choice, hchoice, h⟩ := bind_eq_ok.mp h
    obtain ⟨q₂, hq₂, h⟩ := bind_eq_ok.mp h
    rw [selectChoice_eq] at hq₂
    obtain ⟨names, hnames, rfl⟩ := map_eq_ok.mp hq₂
    refine ⟨⟨parsed, keys, paths, names⟩, ?_, q₁, hq₁, h⟩
    exact bind_eq_ok.mpr ⟨parsed, bind_eq_ok.mpr ⟨params, hparams, hparsed⟩, bind_eq_ok.mpr
      ⟨keys, hkeys, bind_eq_ok.mpr ⟨paths, hpaths, bind_eq_ok.mpr
        ⟨choice, hchoice, bind_eq_ok.mpr ⟨names, hnames, rfl⟩⟩⟩⟩⟩
  · rintro ⟨asked, hasked, q₁, hq₁, h⟩
    obtain ⟨parsed, hparsed, hasked⟩ := bind_eq_ok.mp hasked
    obtain ⟨keys, hkeys, hasked⟩ := bind_eq_ok.mp hasked
    obtain ⟨paths, hpaths, hasked⟩ := bind_eq_ok.mp hasked
    obtain ⟨choice, hchoice, hasked⟩ := bind_eq_ok.mp hasked
    obtain ⟨names, hnames, hasked⟩ := bind_eq_ok.mp hasked
    obtain rfl := Except.ok.inj hasked
    obtain ⟨params, hparams, hparsed⟩ := bind_eq_ok.mp hparsed
    refine bind_eq_ok.mpr ⟨params, hparams, bind_eq_ok.mpr ⟨parsed, hparsed, bind_eq_ok.mpr
      ⟨q₁, hq₁, bind_eq_ok.mpr ⟨keys, hkeys, bind_eq_ok.mpr ⟨paths, hpaths, bind_eq_ok.mpr
        ⟨choice, hchoice, bind_eq_ok.mpr ⟨_, ?_, h⟩⟩⟩⟩⟩⟩⟩
    rw [selectChoice_eq, hnames]
    rfl

-- ---------------------------------------------------------------------------
-- Failures that are no rejections
-- ---------------------------------------------------------------------------

section
variable {α β : Type}

/-- The work rejects nothing, whether it succeeds or not. -/
def Unrejected (x : Except Failure α) : Prop := ∀ errors, x ≠ .error (.rejected errors)

theorem unrejected_iff {x : Except Failure α} :
    Unrejected x ↔ OnlyFails (fun fail => ∀ errors, fail ≠ .rejected errors) x :=
  ⟨fun h _ hx errors hfail => h errors (hfail ▸ hx), fun h errors hx => h _ hx errors rfl⟩

theorem unrejected_ok (a : α) : Unrejected (.ok a : Except Failure α) :=
  unrejected_iff.mpr (onlyFails_ok a)

theorem Unrejected.bind {x : Except Failure α} {f : α → Except Failure β} (hx : Unrejected x)
    (hf : ∀ a, Unrejected (f a)) : Unrejected (x >>= f) :=
  unrejected_iff.mpr ((unrejected_iff.mp hx).bind fun a => unrejected_iff.mp (hf a))

theorem Unrejected.map {x : Except Failure α} (hx : Unrejected x) (f : α → β) :
    Unrejected (x.map f) :=
  unrejected_iff.mpr ((unrejected_iff.mp hx).map f)

theorem unrejected_mapM {f : α → Except Failure β} (hf : ∀ a, Unrejected (f a)) (as : List α) :
    Unrejected (as.mapM f) :=
  unrejected_iff.mpr (onlyFails_mapM fun a _ => unrejected_iff.mp (hf a))

theorem unrejected_asMapping (v : Value) : Unrejected v.asMapping := by
  intro errors h
  cases v <;> cases h

theorem unrejected_asText (v : Value) : Unrejected v.asText := by
  intro errors h
  cases v <;> cases h

theorem unrejected_asTextIfAny (v : Value) : Unrejected v.asTextIfAny := by
  unfold Value.asTextIfAny
  split
  · exact unrejected_ok none
  · exact (unrejected_asText v).map some

theorem unrejected_members (v : Value) : Unrejected v.members := by
  intro errors h
  cases v <;> cases h

theorem unrejected_toInteger (v : Value) : Unrejected v.toInteger := by
  intro errors h
  unfold Value.toInteger at h
  split at h <;> try cases h
  split at h <;> cases h

theorem unrejected_namesOf (v : Value) : Unrejected (namesOf v) := by
  unfold namesOf
  split
  · exact unrejected_ok _
  · exact (unrejected_members _).bind fun _ => unrejected_mapM unrejected_asText _

theorem unrejected_parsedFilters : Unrejected p.parsedFilters := by
  have hfield : ∀ key raw, Unrejected (FilterParams.ofField key raw) := by
    intro key raw errors h
    unfold FilterParams.ofField at h
    split at h
    · cases h
    · split at h <;> cases h
  refine (unrejected_asMapping _).bind fun params => ?_
  exact (unrejected_mapM (fun _ => hfield _ _) params).bind fun _ => unrejected_ok _

theorem unrejected_sizeOf (perPage : Value) : Unrejected (q.sizeOf perPage) := by
  unfold sizeOf
  split
  · exact unrejected_ok _
  · exact (unrejected_toInteger _).map _

theorem unrejected_paged : Unrejected (q.paged p) := by
  unfold paged
  split
  · exact (unrejected_sizeOf q _).bind fun _ =>
      (unrejected_toInteger _).bind fun _ => unrejected_ok _
  · exact (unrejected_sizeOf q _).bind fun _ => unrejected_ok _

theorem unrejected_finish : Unrejected (q.finish p) :=
  ((unrejected_asTextIfAny _).map _).bind fun _ =>
    (unrejected_asMapping _).bind fun _ => unrejected_paged _ p

theorem unrejected_ownWarnings : Unrejected p.ownWarnings := by
  unfold ownWarnings
  split
  · exact unrejected_ok []
  · exact unrejected_members _

end

theorem unrejected_followRest (table : String) : Unrejected (q.followRest p table) := by
  refine ((unrejected_asTextIfAny _).bind fun _ => unrejected_ok _).bind fun keys => ?_
  refine ((unrejected_asTextIfAny _).bind fun _ => unrejected_ok _).bind fun paths => ?_
  refine ((unrejected_asMapping _).bind fun _ => unrejected_ok _).bind fun choice => ?_
  refine Unrejected.bind ?_ fun q' => unrejected_finish q' p
  rw [selectChoice_eq]
  unfold chosenNames
  split
  · exact (unrejected_ok []).map _
  · exact ((unrejected_namesOf choice).map _).map _

/-- The steps of a request reject it by one of its filters or not at all. -/
theorem follow_eq_rejected {q : Query} {p : RequestParams} {errors : Rejections} :
    q.follow p = .error (.rejected errors) ↔ ∃ parsed, p.parsedFilters = .ok parsed ∧
      q.filterAll parsed.filters = .error (.rejected errors) := by
  rw [follow_eq]
  cases hparsed : p.parsedFilters with
  | error fail =>
    refine ⟨fun h => ?_, fun ⟨_, h, _⟩ => nomatch h⟩
    obtain rfl := Except.error.inj h
    exact absurd hparsed (unrejected_parsedFilters p errors)
  | ok parsed =>
    show (q.filterAll parsed.filters >>= _) = _ ↔ _
    cases hfilters : q.filterAll parsed.filters with
    | error fail =>
      constructor
      · intro h
        obtain rfl := Except.error.inj h
        exact ⟨parsed, rfl, hfilters⟩
      · rintro ⟨parsed', hparsed', h⟩
        obtain rfl := Except.ok.inj hparsed'
        rw [Except.error.inj (hfilters.symm.trans h)]
        rfl
    | ok q₁ =>
      refine ⟨fun h => absurd h (unrejected_followRest q₁ p _ errors), ?_⟩
      rintro ⟨parsed', hparsed', h⟩
      obtain rfl := Except.ok.inj hparsed'
      cases hfilters.symm.trans h

-- ---------------------------------------------------------------------------
-- Whole requests
-- ---------------------------------------------------------------------------

/-- A query before its first step. -/
abbrev fresh (entity : Entity) (settings : Settings) : Query := { entity, settings }

variable {e : Entity} {s : Settings} {p : RequestParams}

theorem map_core_draft {own : List Value} (hown : p.ownWarnings = .ok own) :
    (draft e s p).map Draft.core = (fresh e s).follow p := by
  have hcore : ({ query := { entity := e, settings := s, warnings := own } } : Draft).core =
      fresh e s := rfl
  rw [draft_eq, ← hcore, ← Draft.core_addAll]
  show Except.map Draft.core (p.ownWarnings >>= _) = _
  rw [hown]
  rfl

/-- The warnings of a draft, and what it rejects. -/
theorem draft_eq_ok {own : List Value} (hown : p.ownWarnings = .ok own) {d : Draft}
    (h : draft e s p = .ok d) : ∃ asked, p.asked e.table = .ok asked ∧
      d.query.warnings = own ++ ((fresh e s).omissions asked).warnings ∧
      d.rejections = ((fresh e s).omissions asked).gathered := by
  rw [draft_eq] at h
  replace h : p.ownWarnings >>= _ = _ := h
  rw [hown] at h
  obtain ⟨asked, hasked, hcontinues⟩ := Draft.continues_addAll h
  exact ⟨asked, hasked, hcontinues.warnings, hcontinues.rejections⟩

/-- The steps of a request change neither the entity nor the settings. -/
theorem reset_follow {q : Query} (h : (fresh e s).follow p = .ok q) : q.reset = fresh e s := by
  have hcore : ({ query := fresh e s } : Draft).core = fresh e s := rfl
  rw [← hcore, ← Draft.core_addAll] at h
  obtain ⟨d, hd, rfl⟩ := map_eq_ok.mp h
  obtain ⟨asked, -, hcontinues⟩ := Draft.continues_addAll hd
  exact hcontinues.reset

theorem exists_ownWarnings {d : Draft} (h : draft e s p = .ok d) :
    ∃ own, p.ownWarnings = .ok own := by
  rw [draft_eq] at h
  obtain ⟨own, hown, -⟩ := bind_eq_ok.mp h
  exact ⟨own, hown⟩

theorem draft_eq_rejected {errors : Rejections} :
    draft e s p = .error (.rejected errors) ↔
      ∃ own, p.ownWarnings = .ok own ∧ (fresh e s).follow p = .error (.rejected errors) := by
  cases hown : p.ownWarnings with
  | error fail =>
    refine ⟨fun h => ?_, fun ⟨_, h, _⟩ => nomatch h⟩
    rw [draft_eq] at h
    replace h : p.ownWarnings >>= _ = _ := h
    rw [hown] at h
    exact absurd (hown.trans (congrArg _ (Except.error.inj h))) (unrejected_ownWarnings p errors)
  | ok own =>
    rw [← map_core_draft hown]
    cases draft e s p with
    | error fail =>
      exact ⟨fun h => ⟨own, rfl, congrArg _ (Except.error.inj h)⟩,
        fun ⟨_, _, h⟩ => congrArg _ (Except.error.inj h)⟩
    | ok d => exact ⟨fun h => (nomatch h), fun ⟨_, _, h⟩ => nomatch h⟩

theorem ofRequest_of_draft_error {fail : Failure} (h : draft e s p = .error fail) :
    ofRequest e s p = .error fail := by
  unfold ofRequest
  rw [h]
  rfl

/-- What becomes of a request whose draft is finished. -/
theorem ofRequest_of_draft {d : Draft} (h : draft e s p = .ok d) :
    ∃ own asked, p.ownWarnings = .ok own ∧ p.asked e.table = .ok asked ∧
      (fresh e s).follow p = .ok d.core ∧
      d.query.warnings = own ++ ((fresh e s).omissions asked).warnings ∧
      ofRequest e s p = if s.strict = true ∧ (fresh e s).omissions asked ≠ [] then
        .error (.rejected ((fresh e s).omissions asked).gathered) else .ok d.query := by
  obtain ⟨own, hown⟩ := exists_ownWarnings h
  obtain ⟨asked, hasked, hwarnings, hrejections⟩ := draft_eq_ok hown h
  have hfollow := map_core_draft (e := e) (s := s) hown
  rw [h] at hfollow
  refine ⟨own, asked, hown, hasked, hfollow.symm, hwarnings, ?_⟩
  have hrejects : (s.strict && !d.rejections.isEmpty) = true ↔
      s.strict = true ∧ (fresh e s).omissions asked ≠ [] := by
    rw [Bool.and_eq_true, Bool.not_eq_true', List.isEmpty_eq_false_iff, hrejections, ne_eq,
      Omissions.gathered_eq_nil]
  unfold ofRequest
  rw [h, ← hrejections]
  exact if_congr hrejects rfl rfl

/-- The query of a request: its steps succeed, every omission has left its warning, and under strict
rules there is none. -/
theorem ofRequest_eq_ok {q : Query} :
    ofRequest e s p = .ok q ↔ ∃ own asked, p.ownWarnings = .ok own ∧ p.asked e.table = .ok asked ∧
      (fresh e s).follow p = .ok q.unwarned ∧
      q.warnings = own ++ ((fresh e s).omissions asked).warnings ∧
      (s.strict = true → (fresh e s).omissions asked = []) := by
  constructor
  · intro h
    obtain ⟨d, hd, -⟩ := bind_eq_ok.mp h
    obtain ⟨own, asked, hown, hasked, hfollow, hwarnings, hresult⟩ := ofRequest_of_draft hd
    rw [hresult] at h
    split at h
    case isTrue => cases h
    case isFalse hkept =>
      obtain rfl := Except.ok.inj h
      exact ⟨own, asked, hown, hasked, hfollow, hwarnings,
        fun hs => not_not.mp fun hne => hkept ⟨hs, hne⟩⟩
  · rintro ⟨own, asked, hown, hasked, hfollow, hwarnings, hnone⟩
    obtain ⟨d, hd, hcore⟩ := map_eq_ok.mp ((map_core_draft hown).trans hfollow)
    obtain ⟨own', asked', hown', hasked', -, hwarnings', hresult⟩ := ofRequest_of_draft hd
    obtain rfl := Except.ok.inj (hown.symm.trans hown')
    obtain rfl := Except.ok.inj (hasked.symm.trans hasked')
    have hquery : d.query = q := by
      rw [eq_of_unwarned_eq (q := q) hcore, hwarnings', ← hwarnings]
    rw [hresult, if_neg fun h => h.2 (hnone h.1), hquery]

/-- The rejection of a request: by one of its filters, or, under strict rules, for all it omits. -/
theorem ofRequest_eq_rejected {errors : Rejections} :
    ofRequest e s p = .error (.rejected errors) ↔ ∃ own, p.ownWarnings = .ok own ∧
      ((fresh e s).follow p = .error (.rejected errors) ∨
        s.strict = true ∧ ∃ asked q, p.asked e.table = .ok asked ∧ (fresh e s).follow p = .ok q ∧
          (fresh e s).omissions asked ≠ [] ∧ errors = ((fresh e s).omissions asked).gathered) := by
  constructor
  · intro h
    cases hd : draft e s p with
    | error fail =>
      obtain rfl := Except.error.inj ((ofRequest_of_draft_error hd).symm.trans h)
      obtain ⟨own, hown, hfollow⟩ := draft_eq_rejected.mp hd
      exact ⟨own, hown, .inl hfollow⟩
    | ok d =>
      obtain ⟨own, asked, hown, hasked, hfollow, -, hresult⟩ := ofRequest_of_draft hd
      rw [hresult] at h
      split at h
      case isFalse => cases h
      case isTrue hrejected =>
        obtain rfl := Failure.rejected.inj (Except.error.inj h)
        exact ⟨own, hown, .inr
          ⟨hrejected.1, asked, d.core, hasked, hfollow, hrejected.2, rfl⟩⟩
  · rintro ⟨own, hown, hfollow | ⟨hs, asked, q, hasked, hfollow, hne, rfl⟩⟩
    · exact ofRequest_of_draft_error (draft_eq_rejected.mpr ⟨own, hown, hfollow⟩)
    · obtain ⟨d, hd, -⟩ := map_eq_ok.mp ((map_core_draft hown).trans hfollow)
      obtain ⟨-, asked', -, hasked', -, -, hresult⟩ := ofRequest_of_draft hd
      obtain rfl := Except.ok.inj (hasked.symm.trans hasked')
      rw [hresult, if_pos ⟨hs, hne⟩]

end Query

end ListQuery
