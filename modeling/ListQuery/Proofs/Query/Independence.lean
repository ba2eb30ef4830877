import ListQuery.Proofs.Compiled
import ListQuery.Proofs.Condition.Alike
import ListQuery.Proofs.Schema.Coercion
import ListQuery.Query.Steps

/-!
# Texts of statements without texts of operands

Two queries whose filters differ in the texts of their operands, and whose search terms differ, are
compiled to statements of one text. Their bound values differ at the places of those texts only.

* `accept_alike`, `accepts_alike` — filters of one form are accepted alike;
* `conditions_alike`, `compile_alike` — conditions and statements of one form;
* `filterAll_searchFor_sameText` — whole queries.
-/

namespace ListQuery

open Sql

-- ---------------------------------------------------------------------------
-- Forms of filters
-- ---------------------------------------------------------------------------

/-- Filters with operands of one shape, whose values vary. -/
structure Filter.Varies (P : String → String → Prop) (f f' : Filter) : Prop where
  field       : f.field = f'.field
  operator    : f.operator = f'.operator
  operand     : f.operand.Varies P .itself f'.operand
  alternative : f.alternative = f'.alternative

/-- Every field that can be filtered, and does not lead into a document, is a text or a number. -/
def Entity.FiltersPlainly (e : Entity) : Prop :=
  ∀ field, e.allowsFilter field = true → e.jsonPath? field = none →
    ∀ c, e.column? field = some c → c.type.isPlain = true

/-- Compiled queries whose statements are of one form. -/
structure Compiled.Alike (R : Value → Value → Prop) (c c' : Compiled) : Prop where
  select : c.select.Alike R c'.select
  count  : c.count.Alike R c'.count

/-- Compiled queries whose statements have the same texts in every dialect, and values that stand in
a relation one by one. -/
structure Compiled.SameText (R : Value → Value → Prop) (c c' : Compiled) : Prop where
  outlines : ∀ d, c.select.outline d = c'.select.outline d ∧ c.count.outline d = c'.count.outline d
  select   : ∀ d, SameOutcome (Written.Alike R) (c.select.write d) (c'.select.write d)
  count    : ∀ d, SameOutcome (Written.Alike R) (c.count.write d) (c'.count.write d)

theorem Compiled.Alike.sameText {R : Value → Value → Prop} (hR : ∀ v, R v v) {c c' : Compiled}
    (h : c.Alike R c') : c.SameText R c' where
  outlines d := ⟨h.select.outline_eq hR d, h.count.outline_eq hR d⟩
  select d := h.select.write hR d
  count d := h.count.write hR d

/-- Only texts are searched. -/
def Entity.SearchesTexts (e : Entity) : Prop :=
  ∀ name ∈ e.searchFields, ∀ c, e.column? name = some c → c.type.isText = true

-- ---------------------------------------------------------------------------
-- Conversion
-- ---------------------------------------------------------------------------

def Operand.map (f : Value → Value) : Operand → Operand
  | single v       => .single (f v)
  | multiple vs    => .multiple (vs.map f)
  | range low high => .range (f low) (f high)

theorem Operand.mapM_ok {ε : Type} {f : Value → Except ε Value} {g : Value → Value}
    (h : ∀ v, f v = .ok (g v)) (o : Operand) : o.mapM f = .ok (o.map g) := by
  obtain rfl : f = fun v => pure (g v) := funext h
  cases o with
  | single v => rfl
  | range low high => rfl
  | multiple vs =>
    rw [Operand.mapM, List.mapM_pure]
    rfl

theorem Operand.Varies.read {P : String → String → Prop} {o o' : Operand} (t : ColumnType)
    (h : o.Varies P .itself o') :
    (o.map (readAs t)).Varies P (.read t) (o'.map (readAs t)) := by
  have hvalue : ∀ {v v' : Value}, ListQuery.Varies P .itself v v' →
      ListQuery.Varies P (.read t) (readAs t v) (readAs t v') := by
    intro v v' h
    cases h with
    | same => exact .same _
    | texts h => exact .texts h
  cases h with
  | single h => exact .single (hvalue h)
  | range hlow hhigh => exact .range (hvalue hlow) (hvalue hhigh)
  | multiple h =>
    refine .multiple ?_
    rw [List.forall₂_map_left_iff, List.forall₂_map_right_iff]
    exact h.imp fun _ _ => hvalue

theorem varies_at_places {vs vs' : List Value}
    (h : List.Forall₂ (Varies (fun _ _ => True) .itself) vs vs') :
    List.Forall₂ (Varies (fun x y => (Value.text x, Value.text y) ∈ vs.zip vs') .itself) vs vs' := by
  refine List.forall₂_iff_zip.mpr ⟨h.length_eq, fun {v v'} hmem => ?_⟩
  have hv := (List.forall₂_iff_zip.mp h).2 hmem
  cases hv with
  | same => exact .same _
  | texts => exact .texts hmem

/-- Operands of one shape vary in the texts that stand at one place of them. -/
theorem Operand.Varies.at_places {o o' : Operand} (h : o.Varies (fun _ _ => True) .itself o') :
    o.Varies (fun x y => (Value.text x, Value.text y) ∈ o.values.zip o'.values) .itself o' := by
  cases h with
  | multiple h => exact .multiple (varies_at_places h)
  | single h =>
    cases h with
    | same => exact .single (.same _)
    | texts => exact .single (.texts (List.mem_singleton.mpr rfl))
  | range hlow hhigh =>
    have hbounds := varies_at_places (.cons hlow (.cons hhigh .nil))
    cases hbounds with
    | cons hlow hrest =>
      cases hrest with
      | cons hhigh _ => exact .range hlow hhigh

/-- What is refused by a type of texts or numbers could not be read, and there is a zero to stand
in for it. -/
theorem exists_zero_of_coerce {t : ColumnType} (ht : t.isPlain = true) {raw : Value} {e : Failure}
    (h : coerce t raw = .error e) : e.isReading = true ∧ ∃ zero, zero? t = some zero := by
  refine ⟨isReading_of_coerce h, ?_⟩
  cases hnative : t.native? with
  | some kind => exact ⟨_, congrArg _ hnative⟩
  | none =>
    have htext := ColumnType.isText_of_isPlain ht hnative
    cases t with
    | string => cases raw <;> cases h
    | text => cases raw <;> cases h
    | _ => cases htext

namespace Query

variable {q : Query}

/-- Lenient rules put the zero of the type in the place of an operand that cannot be read. -/
theorem convertOperand_lenient (hs : q.settings.malformedPolicy = .substitute) {t : ColumnType}
    (ht : t.isPlain = true) (f : Filter) (raw : Value) :
    q.convertOperand f t raw = .ok (readAs t raw) := by
  unfold convertOperand readAs
  cases hcoerce : coerce t raw with
  | ok v => rfl
  | error e =>
    obtain ⟨hreading, zero, hzero⟩ := exists_zero_of_coerce ht hcoerce
    dsimp only
    rw [if_pos hreading, hs, hzero]
    rfl

theorem convert_lenient (hs : q.settings.malformedPolicy = .substitute) {t : ColumnType}
    (ht : t.isPlain = true) (f : Filter) :
    q.convert f t = .ok { f with operand := f.operand.map (readAs t) } := by
  rw [convert, Operand.mapM_ok (convertOperand_lenient hs ht f)]
  rfl

-- ---------------------------------------------------------------------------
-- Acceptance
-- ---------------------------------------------------------------------------

theorem acceptOnColumn_json {c : Column} (hc : c.type.isPlain = true) {f : Filter}
    (hjson : f.operator.category = .json) :
    q.acceptOnColumn f c = .error (.dropped f.needsJsonb) := by
  have hjsonb : c.type.isJsonb = false := by
    cases htype : c.type with
    | jsonb =>
      rw [htype] at hc
      cases hc
    | _ => rfl
  rw [acceptOnColumn, hjsonb]
  exact if_pos ⟨hjson, rfl⟩

theorem acceptOnColumn_plain {c : Column} {f : Filter} (hjson : f.operator.category ≠ .json) :
    q.acceptOnColumn f c =
      if f.operator.category.comparesValues then q.convert f c.type else .ok f := by
  have hdocument : f.operator.takesDocument = false := by
    cases hop : f.operator with
    | jsonContains => exact absurd (congrArg Operator.category hop) hjson
    | jsonContainedBy => exact absurd (congrArg Operator.category hop) hjson
    | _ => rfl
  rw [acceptOnColumn, if_neg fun h => hjson h.1, hdocument]
  rfl

/-- Accepted filters that place conditions of one form, in the same group. -/
structure PlacesAlike (e : Entity) (P : String → String → Prop) (f f' : Filter) : Prop where
  alternative : f.alternative = f'.alternative
  condition   : SameOutcome (Option.Rel (Predicate.Alike (Tied P))) (e.condition? f)
    (e.condition? f')

theorem placesAlike_refl (e : Entity) (P : String → String → Prop) (f : Filter) :
    PlacesAlike e P f f := by
  refine ⟨rfl, .refl (fun p => ?_) _⟩
  cases p with
  | none => exact .none
  | some p => exact .some (.refl p)

/-- What becomes of two filters: both are left out, or both are taken and place conditions of one
form. -/
inductive AcceptedAlike (e : Entity) (P : String → String → Prop) :
    Except Refusal Filter → Except Refusal Filter → Prop
  | dropped (reason reason' : String) :
      AcceptedAlike e P (.error (.dropped reason)) (.error (.dropped reason'))
  | taken {g g' : Filter} (h : PlacesAlike e P g g') : AcceptedAlike e P (.ok g) (.ok g')

variable {P : String → String → Prop}

section
variable (hs : q.settings.malformedPolicy = .substitute) {field : String} {op : Operator}
  {o o' : Operand} {alternative : Bool} (h : o.Varies P .itself o')

include hs h

theorem acceptOnPath_alike {c : Column} {path : String}
    (hpath : q.entity.jsonPath? field = some (c, path)) :
    AcceptedAlike q.entity P (q.acceptOnPath ⟨field, op, o, alternative⟩)
      (q.acceptOnPath ⟨field, op, o', alternative⟩) := by
  have hplaces : ∀ {o o' : Operand}, o.Varies P (Column.pathRenderingOf op) o' →
      PlacesAlike q.entity P ⟨field, op, o, alternative⟩ ⟨field, op, o', alternative⟩ := by
    intro o o' h
    refine ⟨rfl, ?_⟩
    simp only [Entity.condition?, hpath]
    exact (Column.pathCondition_alike _ h).map fun _ _ => .some
  unfold acceptOnPath
  dsimp only
  cases op.worksOnPath with
  | false => exact .dropped _ _
  | true =>
    cases hordering : op.isOrdering with
    | false => exact .taken (hplaces (by rwa [Column.pathRenderingOf, hordering]))
    | true =>
      rw [if_pos rfl, if_pos rfl, if_pos rfl, if_pos rfl, convert_lenient hs rfl,
        convert_lenient hs rfl]
      refine .taken (hplaces ?_)
      rw [Column.pathRenderingOf, hordering]
      exact h.read .float

theorem acceptOnColumn_alike {c : Column} (hc : c.type.isPlain = true)
    (hpath : q.entity.jsonPath? field = none) (hcolumn : q.entity.column? field = some c) :
    AcceptedAlike q.entity P (q.acceptOnColumn ⟨field, op, o, alternative⟩ c)
      (q.acceptOnColumn ⟨field, op, o', alternative⟩ c) := by
  by_cases hjson : op.category = .json
  · rw [acceptOnColumn_json hc hjson, acceptOnColumn_json hc hjson]
    exact .dropped _ _
  have hplaces : ∀ {o o' : Operand}, o.Varies P (c.renderingOf op) o' →
      PlacesAlike q.entity P ⟨field, op, o, alternative⟩ ⟨field, op, o', alternative⟩ := by
    intro o o' h
    refine ⟨rfl, ?_⟩
    simp only [Entity.condition?, hpath, hcolumn]
    exact (Column.condition_alike hc hjson h).map fun _ _ => .some
  rw [acceptOnColumn_plain hjson, acceptOnColumn_plain hjson]
  dsimp only
  cases hcompares : op.category.comparesValues with
  | false => exact .taken (hplaces (by rwa [Column.renderingOf, hcompares]))
  | true =>
    rw [if_pos rfl, if_pos rfl, convert_lenient hs hc, convert_lenient hs hc]
    refine .taken (hplaces ?_)
    rw [Column.renderingOf, hcompares]
    exact h.read c.type

end

/-- Filters of one form are accepted alike, under lenient rules. -/
theorem accept_alike (hs : q.settings.malformedPolicy = .substitute)
    (hplain : q.entity.FiltersPlainly) {f f' : Filter} (h : f.Varies P f') :
    AcceptedAlike q.entity P (q.accept f) (q.accept f') := by
  obtain ⟨field, op, o, alternative⟩ := f
  obtain ⟨field', op', o', alternative'⟩ := f'
  obtain ⟨hfield, hop, hoperand, halternative⟩ := h
  dsimp only at hfield hop hoperand halternative
  subst hfield hop halternative
  unfold accept
  dsimp only
  cases hallowed : q.entity.allowsFilter field with
  | false => exact .dropped _ _
  | true =>
    rw [if_pos rfl, if_pos rfl]
    cases hpath : q.entity.jsonPath? field with
    | some found => exact acceptOnPath_alike hs hoperand hpath
    | none =>
      cases hcolumn : q.entity.column? field with
      | none => exact .dropped _ _
      | some c =>
        exact acceptOnColumn_alike hs hoperand (hplain field hallowed hpath c hcolumn) hpath hcolumn

/-- Of some filters these are accepted, and come after the ones of the query, whichever those
are. -/
def Accepts (q : Query) (fs gs : List Filter) : Prop :=
  ∀ before, { q with filters := before }.filterAll fs = .ok { q with filters := before ++ gs }

theorem accepts_nil : q.Accepts [] [] := by
  intro before
  rw [List.append_nil]
  rfl

theorem Accepts.dropped {f : Filter} {fs gs : List Filter} {reason : String}
    (hf : q.accept f = .error (.dropped reason)) (h : q.Accepts fs gs) : q.Accepts (f :: fs) gs := by
  intro before
  have haccept : { q with filters := before }.accept f = .error (.dropped reason) := hf
  rw [filterAll, List.foldlM_cons, filter, haccept]
  exact h before

theorem Accepts.taken {f g : Filter} {fs gs : List Filter} (hf : q.accept f = .ok g)
    (h : q.Accepts fs gs) : q.Accepts (f :: fs) (g :: gs) := by
  intro before
  have haccept : { q with filters := before }.accept f = .ok g := hf
  rw [filterAll, List.foldlM_cons, filter, haccept, List.append_cons]
  exact h (before ++ [g])

/-- Of filters of one form those are accepted that place conditions of one form. -/
theorem accepts_alike (hs : q.settings.malformedPolicy = .substitute)
    (hplain : q.entity.FiltersPlainly) {fs fs' : List Filter}
    (h : List.Forall₂ (Filter.Varies P) fs fs') :
    ∃ gs gs', List.Forall₂ (PlacesAlike q.entity P) gs gs' ∧ q.Accepts fs gs ∧
      q.Accepts fs' gs' := by
  induction h with
  | nil => exact ⟨[], [], .nil, accepts_nil, accepts_nil⟩
  | @cons f f' fs fs' hf _ ih =>
    obtain ⟨gs, gs', hgs, hall, hall'⟩ := ih
    have haccept := accept_alike hs hplain hf
    generalize hx : q.accept f = x at haccept
    generalize hx' : q.accept f' = x' at haccept
    cases haccept with
    | dropped => exact ⟨gs, gs', hgs, hall.dropped hx, hall'.dropped hx'⟩
    | @taken g g' hg => exact ⟨g :: gs, g' :: gs', .cons hg hgs, hall.taken hx, hall'.taken hx'⟩

-- ---------------------------------------------------------------------------
-- Conditions
-- ---------------------------------------------------------------------------

/-- Conditions of one form with the same mark. -/
def MarkedAlike (P : String → String → Prop) (x x' : Bool × Predicate) : Prop :=
  x.1 = x'.1 ∧ x.2.Alike (Tied P) x'.2

theorem filterConditions_alike {fs fs' : List Filter}
    (h : List.Forall₂ (PlacesAlike q.entity P) fs fs') :
    SameOutcome (List.Forall₂ (MarkedAlike P)) (q.filterConditions fs) (q.filterConditions fs') := by
  refine SameOutcome.map (SameOutcome.mapM h ?_) fun xs xs' hxs =>
    List.rel_filterMap (fun _ _ hx => hx) hxs
  intro f f' hf
  refine hf.condition.map fun p p' hp => ?_
  cases hp with
  | none => exact .none
  | some hp => exact .some ⟨hf.alternative, hp⟩

theorem marked_alike {xs xs' : List (Bool × Predicate)} (h : List.Forall₂ (MarkedAlike P) xs xs')
    (m : Bool → Bool) :
    Predicate.AllAlike (Tied P) ((xs.filter fun x => m x.1).map (·.2))
      ((xs'.filter fun x => m x.1).map (·.2)) := by
  induction h with
  | nil => exact .nil
  | @cons x x' xs xs' hx _ ih =>
    rw [List.filter_cons, List.filter_cons, hx.1]
    split
    · exact .cons hx.2 ih
    · exact ih

theorem anyOf_alike {ps ps' : List Predicate} (h : Predicate.AllAlike (Tied P) ps ps') :
    Predicate.AllAlike (Tied P) (anyOf ps) (anyOf ps') := by
  have hdisj := disj_alike h
  cases h with
  | nil => exact .nil
  | cons => exact .cons hdisj .nil

/-- A search in texts looks for the term in each of them. -/
theorem searchConditions_texts {e : Entity} (h : e.SearchesTexts) (term : String) :
    e.searchConditions term =
      .ok ((e.searchFields.filterMap e.column?).map fun c => .affix (.column c) .anywhere term) := by
  have htexts : ∀ c ∈ e.searchFields.filterMap e.column?, c.type.isText = true := by
    intro c hc
    obtain ⟨name, hname, hcolumn⟩ := List.mem_filterMap.mp hc
    exact h name hname c hcolumn
  unfold Entity.searchConditions
  generalize e.searchFields.filterMap e.column? = cs at htexts
  refine map_eq_ok.mpr ⟨cs.map fun c => some (.affix (.column c) .anywhere term), ?_, ?_⟩
  · refine mapM_eq_ok.mpr (List.forall₂_map_right_iff.mpr (List.forall₂_same.mpr fun c hc => ?_))
    rw [Column.searchCondition?, if_pos (htexts c hc)]
  · rw [List.filterMap_map]
    exact congrFun List.filterMap_eq_map cs

/-- Search terms that are the same, or that are looked for in texts. -/
def TermsAlike (e : Entity) (P : String → String → Prop) (s s' : Option String) : Prop :=
  s = s' ∨ e.SearchesTexts ∧ ∃ x x', s = some x ∧ s' = some x' ∧ x ≠ "" ∧ x' ≠ "" ∧ P x x'

theorem searchConditions_alike {s s' : Option String} (h : TermsAlike q.entity P s s') :
    SameOutcome (Predicate.AllAlike (Tied P)) { q with search := s }.searchConditions
      { q with search := s' }.searchConditions := by
  rcases h with rfl | ⟨htexts, x, x', rfl, rfl, hx, hx', hP⟩
  · exact .refl allAlike_refl _
  · unfold searchConditions
    dsimp only
    rw [if_neg hx, if_neg hx', searchConditions_texts htexts, searchConditions_texts htexts]
    refine .ok (anyOf_alike (allAlike_iff.mpr ?_))
    rw [List.forall₂_map_left_iff, List.forall₂_map_right_iff]
    exact List.forall₂_same.mpr fun c _ => .affix _ _ ⟨.escaped, .texts hP⟩

section
variable {fs fs' : List Filter} {s s' : Option String}
  (hfs : List.Forall₂ (PlacesAlike q.entity P) fs fs') (hterms : TermsAlike q.entity P s s')

include hfs hterms

/-- The conditions of two queries that differ in filters and search terms of one form. -/
theorem conditions_alike :
    SameOutcome (Predicate.AllAlike (Tied P)) { q with filters := fs, search := s }.conditions
      { q with filters := fs', search := s' }.conditions := by
  refine SameOutcome.bind (filterConditions_alike hfs) fun xs xs' hxs => ?_
  refine SameOutcome.bind (searchConditions_alike hterms) fun ps ps' hps => .ok ?_
  exact flatMap_alike conjuncts_alike (allAlike_append (allAlike_append (allAlike_append
    (marked_alike hxs not) (anyOf_alike (marked_alike hxs id))) (allAlike_refl _)) hps)

end

-- ---------------------------------------------------------------------------
-- Statements
-- ---------------------------------------------------------------------------

theorem restrict_alike {R : Value → Value → Prop} (after : List Predicate) {st st' : Statement}
    (h : st.Alike R st') :
    (after.foldl Statement.restrict st).Alike R (after.foldl Statement.restrict st') := by
  induction after generalizing st st' with
  | nil => exact h
  | cons p after ih =>
    exact ih { h with conditions := allAlike_append h.conditions (allAlike_refl p.conjuncts) }

/-- Two queries that are joined, paged and ordered alike are compiled alike. -/
theorem compile_alike {R : Value → Value → Prop} {fs fs' : List Filter} {s s' : Option String}
    (hconditions : SameOutcome (Predicate.AllAlike R)
      { q with filters := fs, search := s }.conditions
      { q with filters := fs', search := s' }.conditions) (schema : Schema) (paginate : Bool) :
    SameOutcome (Compiled.Alike R)
      ({ q with filters := fs, search := s }.compile schema paginate)
      ({ q with filters := fs', search := s' }.compile schema paginate) := by
  have hrows : ∀ keys tables ps ps', Predicate.AllAlike R ps ps' →
      ({ q with filters := fs, search := s }.rowsStatement schema keys tables ps).Alike R
        ({ q with filters := fs', search := s' }.rowsStatement schema keys tables ps') :=
    fun _ _ _ _ h => ⟨rfl, rfl, rfl, h, rfl, rfl, rfl⟩
  have hcount : ∀ ps ps', Predicate.AllAlike R ps ps' →
      ({ q with filters := fs, search := s }.countStatement ps).Alike R
        ({ q with filters := fs', search := s' }.countStatement ps') :=
    fun _ _ h => ⟨rfl, rfl, rfl, h, rfl, rfl, rfl⟩
  cases paginate with
  | false =>
    rw [compile_all_eq, compile_all_eq]
    refine SameOutcome.bind (SameOutcome.refl Eq.refl (q.joinedTables schema)) ?_
    rintro tables _ rfl
    exact hconditions.bind fun ps ps' hps => .ok ⟨hrows _ _ _ _ hps, hcount _ _ hps⟩
  | true =>
    cases hp : q.effectivePage with
    | offset number n =>
      have hp₁ : { q with filters := fs, search := s }.effectivePage = .offset number n := hp
      have hp₂ : { q with filters := fs', search := s' }.effectivePage = .offset number n := hp
      rw [compile_numbered_eq hp₁, compile_numbered_eq hp₂]
      refine SameOutcome.bind (SameOutcome.refl Eq.refl (q.joinedTables schema)) ?_
      rintro tables _ rfl
      exact hconditions.bind fun ps ps' hps =>
        .ok ⟨{ hrows [] tables ps ps' hps with limit := rfl, offset := rfl }, hcount _ _ hps⟩
    | cursor token n =>
      have hp₁ : { q with filters := fs, search := s }.effectivePage = .cursor token n := hp
      have hp₂ : { q with filters := fs', search := s' }.effectivePage = .cursor token n := hp
      rw [compile_cursor_eq hp₁, compile_cursor_eq hp₂]
      refine SameOutcome.bind (SameOutcome.refl Eq.refl (q.joinedTables schema)) ?_
      rintro tables _ rfl
      refine hconditions.bind fun ps ps' hps => ?_
      refine SameOutcome.bind (SameOutcome.refl Eq.refl (q.cursorConditions q.keys token)) ?_
      rintro found _ rfl
      exact .ok ⟨{ restrict_alike found.1 (hrows q.keys tables ps ps' hps) with limit := rfl },
        hcount _ _ hps⟩

-- ---------------------------------------------------------------------------
-- Whole queries
-- ---------------------------------------------------------------------------

/-- Texts of operands that stand at one place of two lists of filters, or the search terms. -/
def AtOnePlace (fs gs : List Filter) (s t : Option String) (x y : String) : Prop :=
  (∃ pair ∈ fs.zip gs,
    (Value.text x, Value.text y) ∈ pair.1.operand.values.zip pair.2.operand.values) ∨
    s.map Text.trim = some x ∧ t.map Text.trim = some y

theorem varies_atOnePlace {fs gs : List Filter}
    (h : List.Forall₂ (Filter.Varies fun _ _ => True) fs gs) (s t : Option String) :
    List.Forall₂ (Filter.Varies (AtOnePlace fs gs s t)) fs gs := by
  refine List.forall₂_iff_zip.mpr ⟨h.length_eq, fun {f g} hmem => ?_⟩
  obtain ⟨hfield, hoperator, hoperand, halternative⟩ := (List.forall₂_iff_zip.mp h).2 hmem
  exact ⟨hfield, hoperator, hoperand.at_places.imp fun x y hxy => .inl ⟨(f, g), hmem, hxy⟩,
    halternative⟩

/-- Under lenient rules, filters of one form and search terms lead to statements of one text, on
fields that are texts, numbers or paths inside documents. The bound values differ at most where they
are drawn from texts of operands at one place, or from the search terms. -/
theorem filterAll_searchFor_sameText (hstrict : q.settings.strict = false)
    (hmalformed : q.settings.malformed = .substitute) (hplain : q.entity.FiltersPlainly)
    {fs gs : List Filter} (hforms : List.Forall₂ (Filter.Varies fun _ _ => True) fs gs)
    {s t : Option String}
    (hterms : s = t ∨ q.entity.SearchesTexts ∧
      ∃ x y, s = some x ∧ t = some y ∧ Text.trim x ≠ "" ∧ Text.trim y ≠ "") :
    ∃ a b, q.filterAll fs = .ok a ∧ q.filterAll gs = .ok b ∧
      ∀ schema paginate, SameOutcome (Compiled.SameText (Tied (AtOnePlace fs gs s t)))
        ((a.searchFor s).compile schema paginate) ((b.searchFor t).compile schema paginate) := by
  have hs : q.settings.malformedPolicy = .substitute := by
    rw [Settings.malformedPolicy, hstrict, hmalformed]
    rfl
  obtain ⟨as, bs, hplaces, hfs, hgs⟩ := accepts_alike hs hplain (varies_atOnePlace hforms s t)
  refine ⟨_, _, hfs q.filters, hgs q.filters, fun schema paginate => ?_⟩
  have hfound : TermsAlike q.entity (AtOnePlace fs gs s t) ((s.map Text.trim).filter (· ≠ ""))
      ((t.map Text.trim).filter (· ≠ "")) := by
    rcases hterms with rfl | ⟨htexts, x, y, rfl, rfl, hx, hy⟩
    · exact .inl rfl
    · refine .inr ⟨htexts, Text.trim x, Text.trim y, ?_, ?_, hx, hy, .inr ⟨rfl, rfl⟩⟩
      · exact if_pos (decide_eq_true hx)
      · exact if_pos (decide_eq_true hy)
  have hfilters : List.Forall₂ (PlacesAlike q.entity (AtOnePlace fs gs s t)) (q.filters ++ as)
      (q.filters ++ bs) :=
    List.rel_append (List.forall₂_same.mpr fun f _ => placesAlike_refl _ _ f) hplaces
  exact (compile_alike (conditions_alike hfilters hfound) schema paginate).imp
    fun _ _ h => h.sameText tied_refl

end Query

-- ---------------------------------------------------------------------------
-- Parcels
-- ---------------------------------------------------------------------------

/-- Parcels with a label, a weight and a document about their way. -/
def Entity.parcels : Entity where
  table            := "parcels"
  filterFields     := ["label", "weight", "way.from"]
  sortFields       := []
  selectFields     := ["id", "label", "weight"]
  includePaths     := []
  defaultSort      := none
  defaultSelection := none
  searchFields     := ["label"]
  primaryKey       := "id"
  softDelete       := none
  types            := [("id", .integer), ("label", .string), ("weight", .integer), ("way", .json)]
  relations        := []

/-- Parcels by a part of their labels, by weight and by where they come from. -/
def parcelFilters (part low origin : String) : List Filter :=
  [⟨"label", .contains, .single (.text part), false⟩,
    ⟨"weight", .between, .range (.text low) (.int 9), true⟩,
    ⟨"way.from", .isIn, .multiple [.text origin, .text "sea"], true⟩]

/-- A page of the parcels that are filtered and searched, as it is written for a database. -/
def Query.parcelPage (fs : List Filter) (term : String) : Except Failure Written := do
  let q ← ({ entity := .parcels } : Query).filterAll fs
  let c ← (q.searchFor (some term)).compile [] true
  c.select.write .sqlite

/-- A quote, a wildcard and a weight that is no number are bound like other operands. -/
theorem Query.filterAll_searchFor_sameText_parcels :
    ∃ w w', Query.parcelPage (parcelFilters "box" "3" "air") "red" = .ok w ∧
      Query.parcelPage (parcelFilters "';--" "heavy" "_%") "100%" = .ok w' ∧ w.text = w'.text ∧
      w.values.map Value.display =
        ["box", "3", "9", "from", "air", "sea", "red", "16", "0"] ∧
      w'.values.map Value.display =
        ["';--", "0", "9", "from", "_%", "sea", "100/%", "16", "0"] := by
  have hplain : Entity.parcels.FiltersPlainly := by
    have hcolumns : ∀ field ∈ Entity.parcels.filterFields, Entity.parcels.jsonPath? field = none →
        (Entity.parcels.column? field).all (·.type.isPlain) = true := by decide
    intro field hallowed hpath c hc
    have hall := hcolumns field (List.contains_iff_mem.mp hallowed) hpath
    rw [hc] at hall
    exact hall
  have htexts : Entity.parcels.SearchesTexts := by
    intro name hname c hc
    cases List.mem_singleton.mp hname
    cases hc
    rfl
  have hforms : List.Forall₂ (Filter.Varies fun _ _ => True) (parcelFilters "box" "3" "air")
      (parcelFilters "';--" "heavy" "_%") :=
    .cons ⟨rfl, rfl, .single (.texts trivial), rfl⟩
      (.cons ⟨rfl, rfl, .range (.texts trivial) (.same _), rfl⟩
        (.cons ⟨rfl, rfl, .multiple (.cons (.texts trivial) (.cons (.same _) .nil)), rfl⟩ .nil))
  obtain ⟨a, b, ha, hb, hsame⟩ := Query.filterAll_searchFor_sameText (q := { entity := .parcels })
    rfl rfl hplain hforms (.inr ⟨htexts, "red", "100%", rfl, rfl, by decide, by decide⟩)
  have hpages := (hsame [] true).bind fun c c' h => h.select .sqlite
  have hfirst : Query.parcelPage (parcelFilters "box" "3" "air") "red" =
      (a.searchFor (some "red")).compile [] true >>= fun c => c.select.write .sqlite := by
    rw [parcelPage, ha]
    rfl
  have hsecond : Query.parcelPage (parcelFilters "';--" "heavy" "_%") "100%" =
      (b.searchFor (some "100%")).compile [] true >>= fun c => c.select.write .sqlite := by
    rw [parcelPage, hb]
    rfl
  have hvalues : (Query.parcelPage (parcelFilters "box" "3" "air") "red").toOption.map
      (·.values.map Value.display) =
        some ["box", "3", "9", "from", "air", "sea", "red", "16", "0"] := by decide +kernel
  have hvalues' : (Query.parcelPage (parcelFilters "';--" "heavy" "_%") "100%").toOption.map
      (·.values.map Value.display) =
        some ["';--", "0", "9", "from", "_%", "sea", "100/%", "16", "0"] := by decide +kernel
  rw [← hfirst, ← hsecond] at hpages
  generalize Query.parcelPage (parcelFilters "box" "3" "air") "red" = x at hpages hvalues
  generalize Query.parcelPage (parcelFilters "';--" "heavy" "_%") "100%" = x' at hpages hvalues'
  cases hpages with
  | error e => cases hvalues
  | ok h => exact ⟨_, _, rfl, rfl, h.text_eq, Option.some.inj hvalues, Option.some.inj hvalues'⟩

end ListQuery
