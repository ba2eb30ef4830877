import ListQuery.Proofs.Condition.Comparable
import ListQuery.Proofs.Filter.Operand
import ListQuery.Proofs.Query.Acceptance

/-!
# Filters whose operands are texts

A request spells the operands of its filters as texts. A filter that is accepted with such an
operand places a condition, but for three kinds that no comparison is made of: no text at all where
one is to be compared, a truth value where an order is asked for, and a day after the last one. Of
all such filters lenient rules let only documents that nest too deep fail a request.

* `takes_empty_iff`, `takes_converted_iff` — what of the operand is compared, and whether it can be;
* `Entity.HasNoConditionFor` — the exceptions;
* `exists_condition_of_accept` — every filter of a request.
-/

namespace ListQuery

open Calendar

-- ---------------------------------------------------------------------------
-- Operands
-- ---------------------------------------------------------------------------

namespace Operand

/-- The operands that a request can spell: a text, some texts, or two of them as bounds. -/
inductive IsSpelled : Operand → Prop
  | single (s : String) : IsSpelled (.single (.text s))
  | multiple (ss : List String) : IsSpelled (.multiple (ss.map .text))
  | range (low high : String) : IsSpelled (.range (.text low) (.text high))

/-- A text and a list of texts are spelled operands, whatever the operator makes of them. -/
theorem isSpelled_shape (op : Operator) :
    (∀ s, (shape op (.text s)).IsSpelled) ∧
      ∀ ss : List String, (shape op (.list (ss.map .text))).IsSpelled := by
  have hbounds : ∀ ss : List String, (shape.bounds (ss.map .text)).IsSpelled := by
    intro ss
    match ss with
    | [] => exact .multiple []
    | [s] => exact .multiple [s]
    | low :: high :: _ => exact .range low high
  unfold shape
  constructor
  · intro s
    split_ifs
    · exact .multiple _
    · exact hbounds _
    · exact .single s
  · intro ss
    split_ifs
    · exact .multiple ss
    · exact hbounds ss
    · exact .multiple ss

theorem IsSpelled.first {o : Operand} (h : o.IsSpelled) :
    o = .multiple [] ∨ ∃ s, o.first = .text s := by
  cases h with
  | single s => exact .inr ⟨s, rfl⟩
  | range low high => exact .inr ⟨low, rfl⟩
  | multiple ss =>
    cases ss with
    | nil => exact .inl rfl
    | cons s ss => exact .inr ⟨s, rfl⟩

variable {ε : Type} {f : Value → Except ε Value} {o o' : Operand}

theorem isList_of_mapM (h : o.mapM f = .ok o') : o'.isList = o.isList := by
  cases mapM_eq_ok_iff.mp h <;> rfl

/-- The first of the converted values is what the first text is converted to. -/
theorem IsSpelled.of_mapM (hspelled : o.IsSpelled) (h : o.mapM f = .ok o') :
    o = .multiple [] ∧ o' = .multiple [] ∨
      ∃ s, o.first = .text s ∧ f (.text s) = .ok o'.first := by
  have hrelated := mapM_eq_ok_iff.mp h
  cases hspelled with
  | single s =>
    obtain ⟨hs⟩ := hrelated
    exact .inr ⟨s, rfl, hs⟩
  | range low high =>
    obtain _ | _ | ⟨hlow, -⟩ := hrelated
    exact .inr ⟨low, rfl, hlow⟩
  | multiple ss =>
    obtain _ | ⟨hss⟩ := hrelated
    cases ss with
    | nil =>
      cases hss
      exact .inl ⟨rfl, rfl⟩
    | cons s ss =>
      obtain _ | ⟨hs, -⟩ := hss
      exact .inr ⟨s, rfl, hs⟩

end Operand

-- ---------------------------------------------------------------------------
-- What a text is converted to
-- ---------------------------------------------------------------------------

/-- Operators whose operands are converted are not those that compare with a pattern. -/
theorem Operator.isLike_of_comparesValues {op : Operator}
    (h : op.category.comparesValues = true) : op.isLike = false := by
  cases op <;> simp_all [category, Category.comparesValues, isLike]

/-- Operators whose operands are not converted neither order nor read days. -/
theorem Operator.indifferent_of_not_comparesValues {op : Operator}
    (h : op.category.comparesValues = false) : op.isOrdering = false ∧ op.readsDay = false := by
  cases op <;> simp_all [category, Category.comparesValues, isOrdering, readsDay]

theorem Operator.isLike_of_worksOnPath {op : Operator} (h : op.worksOnPath = true) :
    op.isLike = false := by
  cases op <;> simp_all [worksOnPath, isLike]

namespace Query

variable {q : Query} {raw f : Filter}

theorem convertOperand_eq_ok {t : ColumnType} {v w : Value}
    (h : q.convertOperand f t v = .ok w) : coerce t v = .ok w ∨ zero? t = some w := by
  unfold convertOperand at h
  cases hcoerce : coerce t v with
  | ok v' =>
    rw [hcoerce] at h
    exact .inl (congrArg Except.ok (Except.ok.inj h))
  | error e =>
    rw [hcoerce] at h
    dsimp only at h
    split at h
    · split at h
      case h_4 hzero => exact .inr (hzero.trans (congrArg some (Except.ok.inj h)))
      all_goals cases h
    · cases h

theorem convertOperand_text {t : ColumnType} {s : String} {v : Value}
    (h : q.convertOperand f t (.text s) = .ok v) : ReadsAs t s v := by
  rcases convertOperand_eq_ok h with hcoerce | hzero
  · exact coerce_text hcoerce
  · exact readsAs_of_zero? hzero s

/-- A text at a path of which the number is compared is converted to a number. -/
theorem convertOperand_float {s : String} {v : Value}
    (h : q.convertOperand f .float (.text s) = .ok v) : ∃ d, v = .float d := by
  rcases convertOperand_eq_ok h with hcoerce | hzero
  · have hread : coerce .float (.text s) =
        (readText Number.readDouble (.text s) .unreadable).map .float := rfl
    obtain ⟨d, -, rfl⟩ := map_readText_eq_ok (hread.symm.trans hcoerce)
    exact ⟨d, rfl⟩
  · cases hzero
    exact ⟨_, rfl⟩

/-- A document that was checked is read again. -/
theorem exists_documentOf {v w : Value} (h : q.checkDocument f v = .ok w) :
    ∃ d, Column.documentOf v = .ok d := by
  cases v with
  | text s =>
    unfold checkDocument at h
    dsimp only at h
    split at h
    case h_1 d hread => exact ⟨d, hread⟩
    all_goals cases h
  | _ => exact ⟨_, rfl⟩

end Query

-- ---------------------------------------------------------------------------
-- The exceptions
-- ---------------------------------------------------------------------------

/-- On a column of times, the text spells the start of the last day of the calendar. -/
def Column.ReadsLastDay (c : Column) (v : Value) : Prop :=
  ∃ zoned s x, c.type = .dateTime zoned ∧ v = .text s ∧
    readTimestamp (Text.trim s) = some x ∧ x.StartsLastDay

/-- A filter that may be accepted although no comparison can be made of it. -/
inductive Entity.HasNoConditionFor (e : Entity) (f : Filter) : Prop
  /-- An order or a pattern needs a value to compare with. -/
  | empty (hempty : f.operand = .multiple [])
      (hoperator : f.operator.isOrdering = true ∨ f.operator.isLike = true)
  /-- Truth values have no order. -/
  | truth {c : Column} (hpath : e.jsonPath? f.field = none) (hcolumn : e.column? f.field = some c)
      (hboolean : c.type.isBoolean = true) (hordering : f.operator.isOrdering = true)
  /-- The end of the day is needed, and there is no day after the last one. -/
  | lastDay {c : Column} (hpath : e.jsonPath? f.field = none)
      (hcolumn : e.column? f.field = some c) (hlast : c.ReadsLastDay f.operand.first)
      (hday : f.operator.readsDay = true)
      (hsingle : ¬(f.operator.category = .equality ∧ f.operand.isList = true))

-- ---------------------------------------------------------------------------
-- Conditions
-- ---------------------------------------------------------------------------

/-- There is a day to compare with unless the text spells the last one. -/
theorem ReadsAs.exists_dayRange_iff {c : Column} {s : String} {v : Value}
    (h : ReadsAs c.type s v) :
    (∃ r, dayRange c.type v = .ok r) ↔ ¬c.ReadsLastDay (.text s) := by
  cases h with
  | truth ht b =>
    have hmoment : ∀ zoned, c.type ≠ .dateTime zoned := by
      rintro zoned htype
      simp [htype, ColumnType.isBoolean] at ht
    refine iff_of_true ⟨none, dayRange_of_not_dateTime hmoment _⟩ ?_
    rintro ⟨zoned, s, x, htype, -⟩
    exact hmoment zoned htype
  | other hboolean hmoment hv =>
    refine iff_of_true ⟨none, dayRange_of_not_dateTime hmoment _⟩ ?_
    rintro ⟨zoned, s, x, htype, -⟩
    exact hmoment zoned htype
  | @moment zoned x ht hx =>
    rw [ht, exists_dayRange_timestamp, not_iff_not]
    constructor
    · exact fun hlast => ⟨zoned, s, x, ht, rfl, hx, hlast⟩
    · rintro ⟨-, s', x', -, hs, hx', hlast⟩
      cases hs
      obtain rfl := Option.some.inj (hx.symm.trans hx')
      exact hlast

namespace Column

variable {c : Column} {op : Operator} {operand : Operand}

/-- Without any text there is nothing to put in an order, nor a pattern. -/
theorem takes_empty_iff :
    c.Takes op (.multiple []) ↔ ¬(op.isOrdering = true ∨ op.isLike = true) := by
  have hday : ∃ r, dayRange c.type .null = .ok r := ⟨none, by cases c.type <;> rfl⟩
  constructor
  · exact fun h hop => h.comparable hop
  · exact fun h => ⟨fun hop => absurd hop h, fun _ _ => hday⟩

/-- An operand that was converted from texts, for an operator whose operands are. -/
theorem takes_converted_iff {s : String} (hs : ReadsAs c.type s operand.first)
    (hlike : op.isLike = false) :
    c.Takes op operand ↔
      ¬(c.type.isBoolean = true ∧ op.isOrdering = true) ∧
        ¬(c.ReadsLastDay (.text s) ∧ op.readsDay = true ∧
          ¬(op.category = .equality ∧ operand.isList = true)) := by
  have hcomparable := hs.isOrdered_iff
  have hday := hs.exists_dayRange_iff
  constructor
  · rintro ⟨hc, hd⟩
    constructor
    · rintro ⟨hboolean, hordering⟩
      simp [hcomparable.mp (hc (.inl hordering))] at hboolean
    · rintro ⟨hlast, hreads, hsingle⟩
      exact hday.mp (hd hreads hsingle) hlast
  · rintro ⟨hboolean, hlast⟩
    constructor
    · intro hop
      simp only [hlike, Bool.false_eq_true, or_false] at hop
      exact hcomparable.mpr (by simpa [hop] using hboolean)
    · exact fun hreads hsingle => hday.mpr fun h => hlast ⟨h, hreads, hsingle⟩

end Column

namespace Entity

variable {e : Entity} {f : Filter} {c : Column}

theorem exists_condition?_onPath {path : String} (h : e.jsonPath? f.field = some (c, path)) :
    (∃ p, e.condition? f = .ok (some p)) ↔
      ∃ p, c.pathCondition (segments path) f.operator f.operand = .ok p := by
  simp [condition?, h, map_eq_ok]

theorem exists_condition?_onColumn (hpath : e.jsonPath? f.field = none)
    (hcolumn : e.column? f.field = some c) :
    (∃ p, e.condition? f = .ok (some p)) ↔ ∃ p, c.condition f.operator f.operand = .ok p := by
  simp [condition?, hpath, hcolumn, map_eq_ok]

end Entity

-- ---------------------------------------------------------------------------
-- Every filter
-- ---------------------------------------------------------------------------

namespace Query

variable {q : Query} {raw f : Filter}

/-- An exception on a column is an exception because of what the column is. -/
theorem not_hasNoConditionFor_iff {e : Entity} {c : Column} {s : String}
    (hpath : e.jsonPath? f.field = none) (hcolumn : e.column? f.field = some c)
    (hfirst : f.operand.first = .text s) :
    ¬e.HasNoConditionFor f ↔
      ¬(c.type.isBoolean = true ∧ f.operator.isOrdering = true) ∧
        ¬(c.ReadsLastDay (.text s) ∧ f.operator.readsDay = true ∧
          ¬(f.operator.category = .equality ∧ f.operand.isList = true)) := by
  rw [← not_or, not_iff_not]
  constructor
  · intro h
    cases h with
    | empty hempty =>
      rw [hempty] at hfirst
      cases hfirst
    | @truth c' _ hcolumn' hboolean hordering =>
      obtain rfl := Option.some.inj (hcolumn.symm.trans hcolumn')
      exact .inl ⟨hboolean, hordering⟩
    | @lastDay c' _ hcolumn' hlast hday hsingle =>
      obtain rfl := Option.some.inj (hcolumn.symm.trans hcolumn')
      exact .inr ⟨hfirst ▸ hlast, hday, hsingle⟩
  · rintro (⟨hboolean, hordering⟩ | ⟨hlast, hday, hsingle⟩)
    · exact .truth hpath hcolumn hboolean hordering
    · exact .lastDay hpath hcolumn (hfirst ▸ hlast) hday hsingle

/-- Without any text there is an exception where one is to be compared. -/
theorem not_hasNoConditionFor_empty_iff {e : Entity} (hempty : f.operand = .multiple []) :
    ¬e.HasNoConditionFor f ↔ ¬(f.operator.isOrdering = true ∨ f.operator.isLike = true) := by
  rw [not_iff_not]
  constructor
  · intro h
    cases h with
    | empty _ hoperator => exact hoperator
    | truth _ _ _ hordering => exact .inl hordering
    | lastDay _ _ hlast =>
      obtain ⟨-, s, -, -, hfirst, -⟩ := hlast
      rw [hempty] at hfirst
      cases hfirst
  · exact .empty hempty

theorem hasNoConditionFor_onPath_iff {e : Entity} {c : Column} {path : String}
    (hpath : e.jsonPath? f.field = some (c, path)) (hworks : f.operator.worksOnPath = true) :
    e.HasNoConditionFor f ↔ f.operand = .multiple [] ∧ f.operator.isOrdering = true := by
  constructor
  · intro h
    cases h with
    | empty hempty hoperator =>
      exact ⟨hempty, by simpa [Operator.isLike_of_worksOnPath hworks] using hoperator⟩
    | truth hnone | lastDay hnone =>
      rw [hpath] at hnone
      cases hnone
  · exact fun h => .empty h.1 (.inl h.2)

theorem hasNoConditionFor_asGiven_iff {e : Entity}
    (hvalues : f.operator.category.comparesValues = false) :
    e.HasNoConditionFor f ↔ f.operand = .multiple [] ∧ f.operator.isLike = true := by
  have hop := Operator.indifferent_of_not_comparesValues hvalues
  constructor
  · intro h
    cases h with
    | empty hempty hoperator => exact ⟨hempty, by simpa [hop.1] using hoperator⟩
    | truth _ _ _ hordering => simp [hop.1] at hordering
    | lastDay _ _ _ hday => simp [hop.2] at hday
  · exact fun h => .empty h.1 (.inr h.2)

/-- A filter on a path, of which the text or the number is compared. -/
theorem exists_pathCondition_of_taken {c : Column} {path : String} {operand : Operand}
    (hspelled : raw.operand.IsSpelled) (hpath : q.entity.jsonPath? raw.field = some (c, path))
    (hworks : raw.operator.worksOnPath = true)
    (hoperand : raw.operator.isOrdering = true →
      raw.operand.mapM (q.convertOperand raw .float) = .ok operand) :
    (∃ p, q.entity.condition? { raw with operand } = .ok (some p)) ↔
      ¬q.entity.HasNoConditionFor raw := by
  rw [Entity.exists_condition?_onPath (f := { raw with operand }) hpath,
    Column.exists_pathCondition_iff hworks, hasNoConditionFor_onPath_iff hpath hworks, not_and']
  refine imp_congr_right fun hordering => ?_
  rcases hspelled.of_mapM (hoperand hordering) with ⟨hempty, rfl⟩ | ⟨s, hfirst, hs⟩
  · refine iff_of_false ?_ (not_not_intro hempty)
    rintro ⟨d, hd⟩
    cases hd
  · obtain ⟨d, hd⟩ := convertOperand_float hs
    refine iff_of_true ⟨d, ?_⟩ ?_
    · rw [hd]
      rfl
    · intro hempty
      rw [hempty] at hfirst
      cases hfirst

/-- A filter on a column, whose operand is converted to its type. -/
theorem exists_condition_of_converted {c : Column} {operand : Operand}
    (hspelled : raw.operand.IsSpelled) (hpath : q.entity.jsonPath? raw.field = none)
    (hcolumn : q.entity.column? raw.field = some c)
    (hvalues : raw.operator.category.comparesValues = true)
    (hoperand : raw.operand.mapM (q.convertOperand raw c.type) = .ok operand) :
    (∃ p, q.entity.condition? { raw with operand } = .ok (some p)) ↔
      ¬q.entity.HasNoConditionFor raw := by
  have hjson : raw.operator.category ≠ .json := by
    intro hjson
    rw [hjson] at hvalues
    cases hvalues
  rw [Entity.exists_condition?_onColumn (f := { raw with operand }) hpath hcolumn,
    Column.exists_condition_iff hjson]
  rcases hspelled.of_mapM hoperand with ⟨hempty, rfl⟩ | ⟨s, hfirst, hs⟩
  · rw [Column.takes_empty_iff, not_hasNoConditionFor_empty_iff hempty]
  · rw [Column.takes_converted_iff (convertOperand_text hs)
      (Operator.isLike_of_comparesValues hvalues),
      not_hasNoConditionFor_iff hpath hcolumn hfirst, Operand.isList_of_mapM hoperand]

/-- A filter on a column, whose operand is taken as it is given. -/
theorem exists_condition_of_asGiven {c : Column}
    (hspelled : raw.operand.IsSpelled) (hpath : q.entity.jsonPath? raw.field = none)
    (hcolumn : q.entity.column? raw.field = some c)
    (hjsonb : raw.operator.category = .json → c.type.isJsonb = true)
    (hdocument : raw.operator.takesDocument = true →
      ∃ d, Column.documentOf raw.operand.first = .ok d)
    (hvalues : raw.operator.category.comparesValues = false) :
    (∃ p, q.entity.condition? raw = .ok (some p)) ↔ ¬q.entity.HasNoConditionFor raw := by
  rw [Entity.exists_condition?_onColumn hpath hcolumn, hasNoConditionFor_asGiven_iff hvalues]
  by_cases hjson : raw.operator.category = .json
  · have hlike : raw.operator.isLike = false := by
      cases hop : raw.operator <;> simp_all [Operator.category, Operator.isLike]
    have hcondition : c.condition raw.operator raw.operand =
        c.documentCondition raw.operator raw.operand := by
      unfold Column.condition
      rw [hjson]
    rw [hcondition]
    exact iff_of_true (Column.exists_documentCondition hjson (hjsonb hjson) hdocument)
      (by simp [hlike])
  · have hop := Operator.indifferent_of_not_comparesValues hvalues
    rw [Column.exists_condition_iff hjson]
    rcases hspelled.first with hempty | ⟨s, hs⟩
    · rw [hempty, Column.takes_empty_iff]
      simp [hop.1]
    · have hcomparable : Keyset.IsOrdered raw.operand.first := by simp [hs, Keyset.IsOrdered]
      refine iff_of_true ⟨fun _ => hcomparable, fun hday => by simp [hop.2] at hday⟩ ?_
      rintro ⟨hempty, -⟩
      rw [hempty] at hs
      cases hs

theorem exists_condition_of_taken (hspelled : raw.operand.IsSpelled) (h : q.Taken raw f) :
    (∃ p, q.entity.condition? f = .ok (some p)) ↔ ¬q.entity.HasNoConditionFor raw := by
  cases h with
  | pathText hpath hworks hordering =>
    exact exists_pathCondition_of_taken hspelled hpath hworks (by simp [hordering])
  | pathNumber hpath hworks hordering hoperand =>
    exact exists_pathCondition_of_taken hspelled hpath hworks fun _ => hoperand
  | document hpath hcolumn hjsonb hdocument hoperand =>
    have hvalues : raw.operator.category.comparesValues = false := by
      rw [Operator.category_of_takesDocument hdocument]
      rfl
    refine exists_condition_of_asGiven hspelled hpath hcolumn (fun _ => hjsonb) (fun _ => ?_) hvalues
    rcases hspelled.of_mapM hoperand with ⟨hempty, -⟩ | ⟨s, hfirst, hs⟩
    · rw [hempty]
      exact ⟨_, rfl⟩
    · rw [hfirst]
      exact exists_documentOf hs
  | converted hpath hcolumn hvalues hoperand =>
    exact exists_condition_of_converted hspelled hpath hcolumn hvalues hoperand
  | asGiven hpath hcolumn hjsonb hdocument hvalues =>
    exact exists_condition_of_asGiven hspelled hpath hcolumn hjsonb (by simp [hdocument]) hvalues

-- ---------------------------------------------------------------------------
-- Refused operands
-- ---------------------------------------------------------------------------

/-- Rules that are not strict let no operand that cannot be read fail a request. -/
theorem convertOperand_ne_failed (hs : q.settings.malformedPolicy ≠ .reject) {t : ColumnType}
    {v : Value} {fail : Failure} : q.convertOperand f t v ≠ .error (.failed fail) := by
  intro h
  unfold convertOperand at h
  cases hcoerce : coerce t v with
  | ok w =>
    rw [hcoerce] at h
    cases h
  | error e =>
    rw [hcoerce] at h
    dsimp only at h
    rw [if_pos (isReading_of_coerce hcoerce)] at h
    split at h
    case h_1 hpolicy => exact hs hpolicy
    all_goals cases h

theorem convert_ne_failed (hs : q.settings.malformedPolicy ≠ .reject) {t : ColumnType}
    {fail : Failure} : q.convert f t ≠ .error (.failed fail) := by
  intro h
  unfold convert at h
  cases hoperand : f.operand.mapM (q.convertOperand f t) with
  | ok operand =>
    rw [hoperand] at h
    cases h
  | error refusal =>
    rw [hoperand] at h
    cases h
    obtain ⟨v, -, hv⟩ := Operand.exists_given_of_mapM_eq_error hoperand
    exact convertOperand_ne_failed hs hv

theorem checkDocument_eq_failed (hs : q.settings.malformedPolicy ≠ .reject) {v : Value}
    {fail : Failure} (h : q.checkDocument f v = .error (.failed fail)) :
    fail = .tooDeep ∧ ∃ s, v = .text s ∧ Json.read s.toList = .error .tooDeep := by
  have hstrict : q.settings.strict = false := by
    cases hstrict : q.settings.strict with
    | false => rfl
    | true => exact absurd (by simp [Settings.malformedPolicy, hstrict]) hs
  cases v with
  | text s =>
    unfold checkDocument at h
    dsimp only at h
    split at h
    case h_1 => cases h
    case h_2 hread =>
      cases h
      exact ⟨rfl, s, rfl, hread⟩
    case h_3 =>
      rw [hstrict] at h
      cases h
  | _ => cases h

theorem acceptOnPath_ne_failed (hs : q.settings.malformedPolicy ≠ .reject) {fail : Failure} :
    q.acceptOnPath raw ≠ .error (.failed fail) := by
  intro h
  unfold acceptOnPath at h
  split at h
  case isFalse => cases h
  case isTrue =>
    split at h
    · exact convert_ne_failed hs h
    · cases h

theorem checkDocuments_eq_failed (hs : q.settings.malformedPolicy ≠ .reject) {fail : Failure}
    (h : q.checkDocuments raw = .error (.failed fail)) :
    fail = .tooDeep ∧ ∃ s, .text s ∈ raw.operand.values ∧ Json.read s.toList = .error .tooDeep := by
  unfold checkDocuments at h
  cases hoperand : raw.operand.mapM (q.checkDocument raw) with
  | ok operand =>
    rw [hoperand] at h
    cases h
  | error refusal =>
    rw [hoperand] at h
    cases h
    obtain ⟨v, hgiven, hv⟩ := Operand.exists_given_of_mapM_eq_error hoperand
    obtain ⟨rfl, s, rfl, hread⟩ := checkDocument_eq_failed hs hv
    obtain hnull | hmem := Operand.eq_null_or_mem_values hgiven
    · cases hnull
    · exact ⟨rfl, s, hmem, hread⟩

/-- Rules that are not strict let a filter fail a request with a document that nests too deep, and
with nothing else. -/
theorem accept_eq_failed (hs : q.settings.malformedPolicy ≠ .reject) {fail : Failure}
    (h : q.accept raw = .error (.failed fail)) :
    fail = .tooDeep ∧ raw.operator.takesDocument = true ∧
      ∃ s, .text s ∈ raw.operand.values ∧ Json.read s.toList = .error .tooDeep := by
  unfold accept at h
  split at h
  case isFalse => cases h
  case isTrue =>
    split at h
    case h_1 => exact absurd h (acceptOnPath_ne_failed hs)
    case h_2 =>
      split at h
      case h_2 => cases h
      case h_1 c hcolumn =>
        unfold acceptOnColumn at h
        split at h
        · cases h
        · split at h
          case isTrue hdocument =>
            obtain ⟨hfail, hdeep⟩ := checkDocuments_eq_failed hs h
            exact ⟨hfail, hdocument, hdeep⟩
          case isFalse =>
            split at h
            · exact absurd h (convert_ne_failed hs)
            · cases h

/-- A filter of a request places a condition if it is accepted, but for the exceptions. Rules that
are not strict let a filter fail a request with a document that nests too deep, and with nothing
else. -/
theorem exists_condition_of_accept (hspelled : raw.operand.IsSpelled) :
    (∀ f, q.accept raw = .ok f → q.entity.condition? f ≠ .ok none ∧
      ((∃ p, q.entity.condition? f = .ok (some p)) ↔ ¬q.entity.HasNoConditionFor raw)) ∧
    (q.settings.malformedPolicy ≠ .reject → ∀ fail, q.accept raw = .error (.failed fail) →
      fail = .tooDeep ∧ raw.operator.takesDocument = true ∧
        ∃ s, .text s ∈ raw.operand.values ∧ Json.read s.toList = .error .tooDeep) :=
  ⟨fun _ h => ⟨condition?_ne_none h, exists_condition_of_taken hspelled (accept_eq_ok h).2⟩,
    fun hs _ h => accept_eq_failed hs h⟩

end Query

-- ---------------------------------------------------------------------------
-- Filters of one request
-- ---------------------------------------------------------------------------

/-- Articles, which are published or not. -/
def Entity.articles : Entity where
  table            := "articles"
  filterFields     := ["published", "written_at"]
  sortFields       := []
  selectFields     := ["id"]
  includePaths     := []
  defaultSort      := none
  defaultSelection := none
  searchFields     := []
  primaryKey       := "id"
  softDelete       := none
  types            := [("id", .integer), ("published", .boolean), ("written_at", .dateTime false)]
  relations        := []

/-- Whether an article is published, compared with a text as the operator says. -/
def publishedFilter (op : Operator) : Filter := .compare op "published" (.text "1")

set_option maxRecDepth 4000 in
/-- A truth value is compared for equality, but not put in an order. -/
theorem Query.exists_condition_of_accept_articles :
    (∀ op, (publishedFilter op).operand.IsSpelled) ∧
      Settings.standard.malformedPolicy ≠ .reject ∧
      (∃ f p, Query.accept { entity := .articles } (publishedFilter .eq) = .ok f ∧
        Entity.articles.condition? f = .ok (some p)) ∧
      ∃ f, Query.accept { entity := .articles } (publishedFilter .gt) = .ok f ∧
        ∀ p, Entity.articles.condition? f ≠ .ok (some p) := by
  have hspelled : ∀ op, (publishedFilter op).operand.IsSpelled := fun _ => .single "1"
  have hpath : Entity.articles.jsonPath? "published" = none := rfl
  have hcolumn : Entity.articles.column? "published" = some ⟨"articles", "published", .boolean⟩ := rfl
  have heq : Query.accept { entity := .articles } (publishedFilter .eq) =
      .ok (.compare .eq "published" (.bool true)) := rfl
  have hgt : Query.accept { entity := .articles } (publishedFilter .gt) =
      .ok (.compare .gt "published" (.bool true)) := rfl
  obtain ⟨p, hp⟩ := ((Query.exists_condition_of_accept (hspelled .eq)).1 _ heq).2.mpr <| by
    rintro (⟨hempty, -⟩ | ⟨-, -, -, hordering⟩ | ⟨-, hcolumn', ⟨zoned, -, -, htype, -⟩, -⟩)
    · cases hempty
    · cases hordering
    · obtain rfl := Option.some.inj (hcolumn.symm.trans hcolumn')
      cases htype
  have hnone := ((Query.exists_condition_of_accept (hspelled .gt)).1 _ hgt).2
  refine ⟨hspelled, by decide, ⟨_, p, heq, hp⟩, _, hgt, fun p' hp' => ?_⟩
  exact hnone.mp ⟨p', hp'⟩ (.truth hpath hcolumn rfl rfl)

end ListQuery
