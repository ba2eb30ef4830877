import ListQuery.Condition.OfFilter
import ListQuery.Query.Acceptance

/-!
# Accepted filters

An accepted filter differs from the one that was given in its operand at most. Its field is
whitelisted, and leads into documents or to a column, where its operator fits.

* `accept_eq_ok` — what acceptance says of a filter, in all five ways in which one is taken;
* `condition?_ne_none` — its field leads somewhere.
-/

namespace ListQuery

theorem Operator.category_of_takesDocument {op : Operator} (h : op.takesDocument = true) :
    op.category = .json := by
  cases op <;> simp [takesDocument] at h <;> rfl

namespace Query

variable {q : Query} {raw f : Filter}

/-- The operator of the filter fits where its field leads: on a path, or on a column. -/
inductive Fits (q : Query) (f : Filter) : Prop
  | onPath {c : Column} {path : String} (hpath : q.entity.jsonPath? f.field = some (c, path))
      (hoperator : f.operator.worksOnPath = true)
  | onColumn {c : Column} (hpath : q.entity.jsonPath? f.field = none)
      (hcolumn : q.entity.column? f.field = some c)
      (hoperator : f.operator.category = .json → c.type.isJsonb = true)

/-- What acceptance makes of a filter, and what it has seen to. -/
inductive Taken (q : Query) (raw : Filter) : Filter → Prop
  | pathNumber {c : Column} {path : String} {operand : Operand}
      (hpath : q.entity.jsonPath? raw.field = some (c, path))
      (hworks : raw.operator.worksOnPath = true) (hordering : raw.operator.isOrdering = true)
      (hoperand : raw.operand.mapM (q.convertOperand raw .float) = .ok operand) :
      Taken q raw { raw with operand }
  | pathText {c : Column} {path : String}
      (hpath : q.entity.jsonPath? raw.field = some (c, path))
      (hworks : raw.operator.worksOnPath = true) (hordering : raw.operator.isOrdering = false) :
      Taken q raw raw
  | document {c : Column} {operand : Operand} (hpath : q.entity.jsonPath? raw.field = none)
      (hcolumn : q.entity.column? raw.field = some c) (hjsonb : c.type.isJsonb = true)
      (hdocument : raw.operator.takesDocument = true)
      (hoperand : raw.operand.mapM (q.checkDocument raw) = .ok operand) : Taken q raw raw
  | converted {c : Column} {operand : Operand} (hpath : q.entity.jsonPath? raw.field = none)
      (hcolumn : q.entity.column? raw.field = some c)
      (hvalues : raw.operator.category.comparesValues = true)
      (hoperand : raw.operand.mapM (q.convertOperand raw c.type) = .ok operand) :
      Taken q raw { raw with operand }
  | asGiven {c : Column} (hpath : q.entity.jsonPath? raw.field = none)
      (hcolumn : q.entity.column? raw.field = some c)
      (hjsonb : raw.operator.category = .json → c.type.isJsonb = true)
      (hdocument : raw.operator.takesDocument = false)
      (hvalues : raw.operator.category.comparesValues = false) : Taken q raw raw

theorem convert_eq_ok {t : ColumnType} (h : q.convert raw t = .ok f) :
    ∃ operand, raw.operand.mapM (q.convertOperand raw t) = .ok operand ∧ f = { raw with operand } := by
  unfold convert at h
  cases hoperand : raw.operand.mapM (q.convertOperand raw t) with
  | error refusal =>
    rw [hoperand] at h
    cases h
  | ok operand =>
    rw [hoperand] at h
    exact ⟨operand, rfl, (Except.ok.inj h).symm⟩

theorem checkDocuments_eq_ok (h : q.checkDocuments raw = .ok f) :
    (∃ operand, raw.operand.mapM (q.checkDocument raw) = .ok operand) ∧ f = raw := by
  unfold checkDocuments at h
  cases hoperand : raw.operand.mapM (q.checkDocument raw) with
  | error refusal =>
    rw [hoperand] at h
    cases h
  | ok operand =>
    rw [hoperand] at h
    exact ⟨⟨operand, rfl⟩, (Except.ok.inj h).symm⟩

theorem acceptOnPath_eq_ok {c : Column} {path : String}
    (hpath : q.entity.jsonPath? raw.field = some (c, path)) (h : q.acceptOnPath raw = .ok f) :
    q.Taken raw f := by
  unfold acceptOnPath at h
  split at h
  case isFalse => cases h
  case isTrue hworks =>
    split at h
    case isTrue hordering =>
      obtain ⟨operand, hoperand, rfl⟩ := convert_eq_ok h
      exact .pathNumber hpath hworks hordering hoperand
    case isFalse hordering =>
      obtain rfl := Except.ok.inj h
      exact .pathText hpath hworks (Bool.eq_false_iff.mpr hordering)

theorem acceptOnColumn_eq_ok {c : Column} (hpath : q.entity.jsonPath? raw.field = none)
    (hcolumn : q.entity.column? raw.field = some c) (h : q.acceptOnColumn raw c = .ok f) :
    q.Taken raw f := by
  unfold acceptOnColumn at h
  split at h
  case isTrue => cases h
  case isFalse hfits =>
    have hjsonb : raw.operator.category = .json → c.type.isJsonb = true := by simpa using hfits
    split at h
    case isTrue hdocument =>
      obtain ⟨⟨operand, hoperand⟩, rfl⟩ := checkDocuments_eq_ok h
      exact .document hpath hcolumn (hjsonb (Operator.category_of_takesDocument hdocument)) hdocument
        hoperand
    case isFalse hdocument =>
      split at h
      case isTrue hvalues =>
        obtain ⟨operand, hoperand, rfl⟩ := convert_eq_ok h
        exact .converted hpath hcolumn hvalues hoperand
      case isFalse hvalues =>
        obtain rfl := Except.ok.inj h
        exact .asGiven hpath hcolumn hjsonb (Bool.eq_false_iff.mpr hdocument)
          (Bool.eq_false_iff.mpr hvalues)

/-- An accepted filter is whitelisted, and taken as its field and operator ask for. -/
theorem accept_eq_ok (h : q.accept raw = .ok f) :
    q.entity.allowsFilter raw.field = true ∧ q.Taken raw f := by
  unfold accept at h
  split at h
  case isFalse => cases h
  case isTrue hallowed =>
    refine ⟨hallowed, ?_⟩
    split at h
    case h_1 found hpath => exact acceptOnPath_eq_ok hpath h
    case h_2 hpath =>
      split at h
      case h_2 => cases h
      case h_1 c hcolumn => exact acceptOnColumn_eq_ok hpath hcolumn h

theorem Taken.field_eq (h : q.Taken raw f) : f.field = raw.field := by
  cases h <;> rfl

theorem Taken.fits (h : q.Taken raw f) : q.Fits f := by
  cases h with
  | pathNumber hpath hworks => exact .onPath hpath hworks
  | pathText hpath hworks => exact .onPath hpath hworks
  | document hpath hcolumn hjsonb => exact .onColumn hpath hcolumn fun _ => hjsonb
  | asGiven hpath hcolumn hjsonb => exact .onColumn hpath hcolumn hjsonb
  | converted hpath hcolumn hvalues =>
    refine .onColumn hpath hcolumn fun hjson => ?_
    rw [hjson] at hvalues
    cases hvalues

/-- The field of a filter that fits leads somewhere. -/
theorem Fits.condition?_ne_none (h : q.Fits f) : q.entity.condition? f ≠ .ok none := by
  intro hnone
  unfold Entity.condition? at hnone
  cases h with
  | @onPath c path hpath _ =>
    rw [hpath] at hnone
    dsimp only at hnone
    cases hcondition : c.pathCondition (segments path) f.operator f.operand with
    | error e => rw [hcondition] at hnone; cases hnone
    | ok p => rw [hcondition] at hnone; cases hnone
  | @onColumn c hpath hcolumn _ =>
    rw [hpath, hcolumn] at hnone
    dsimp only at hnone
    cases hcondition : c.condition f.operator f.operand with
    | error e => rw [hcondition] at hnone; cases hnone
    | ok p => rw [hcondition] at hnone; cases hnone

theorem condition?_ne_none (h : q.accept raw = .ok f) : q.entity.condition? f ≠ .ok none :=
  (accept_eq_ok h).2.fits.condition?_ne_none

end Query

end ListQuery
