import ListQuery.Proofs.Filter.Operand
import ListQuery.Proofs.Query.PathMembership

/-!
# Operands that cannot be read

An operand is converted value by value, and what becomes of the filter depends on all of them. If
the type reads each value, every setting accepts the same filter. Otherwise the filter is refused, or
left out, or it gets the zero of the type in the place of each value that could not be read. An
operand of which a part is left as it was given is never stored.

* `Unreadable`, `ReadOrReplaced` — values that cannot be read, and what is stored for a value;
* `Query.Converts`, `Converts.accept_eq` — filters whose operands are converted;
* `convert_of_readable`, `convert_of_replaced`, `exists_convert_eq_error` — what becomes of them;
* `filter_byPolicy` — the same for all settings.
-/

namespace ListQuery

/-- The type reads no value from this one. -/
def Unreadable (t : ColumnType) (v : Value) : Prop := ¬∃ w, coerce t v = .ok w

/-- What stands in a stored operand: the value that was read or, if none could be, the zero of the
type. -/
def ReadOrReplaced (t : ColumnType) (v w : Value) : Prop :=
  coerce t v = .ok w ∨ Unreadable t v ∧ zero? t = some w

-- ---------------------------------------------------------------------------
-- Conversion
-- ---------------------------------------------------------------------------

namespace Query

/-- The operands of the filter are converted to a type: to that of its column if they are compared
with the values there, or to numbers if they are put in an order on a path. -/
inductive Converts (q : Query) (f : Filter) : ColumnType → Prop
  | onColumn {c : Column} (h : q.IsColumn f.field c)
      (hvalues : f.operator.category.comparesValues = true) : Converts q f c.type
  | onPath {c : Column} {path : String} (h : q.IsPath f.field c path)
      (hordering : f.operator.isOrdering = true) : Converts q f .float

variable {q : Query} {f : Filter} {t : ColumnType}

theorem Converts.withSettings (h : q.Converts f t) (s : Settings) :
    { q with settings := s }.Converts f t := by
  cases h with
  | onColumn h hvalues => exact .onColumn ⟨h.allowed, h.noPath, h.column⟩ hvalues
  | onPath h hordering => exact .onPath ⟨h.allowed, h.path⟩ hordering

theorem Converts.accept_eq (h : q.Converts f t) : q.accept f = q.convert f t := by
  unfold accept
  cases h with
  | onColumn h hvalues =>
    have hjson : f.operator.category ≠ .json := by
      intro hjson
      rw [hjson] at hvalues
      cases hvalues
    rw [if_pos h.allowed, h.noPath, h.column]
    dsimp only
    rw [acceptOnColumn_plain hjson, if_pos hvalues]
  | onPath h hordering =>
    have hworks : f.operator.worksOnPath = true := by
      generalize f.operator = op at hordering
      cases op <;> first | rfl | cases hordering
    rw [if_pos h.allowed, h.path]
    simp only [acceptOnPath, hworks, hordering, if_true]

/-- Why a filter is not accepted for a value that nothing stands in for. -/
def refusalOf (q : Query) (f : Filter) (v : Value) : Refusal :=
  if q.settings.malformedPolicy = .reject then .failed (.reject f.field (f.malformedValue v))
  else ignored (f.malformedValue v)

theorem convertOperand_of_unreadable {v : Value} (h : Unreadable t v) :
    q.convertOperand f t v =
      match q.settings.malformedPolicy, zero? t with
      | .substitute, some z => .ok z
      | _,           _      => .error (q.refusalOf f v) := by
  unfold convertOperand refusalOf
  cases hread : coerce t v with
  | ok w => exact absurd ⟨w, hread⟩ h
  | error failure =>
    simp only [isReading_of_coerce hread, if_true]
    cases q.settings.malformedPolicy <;> cases zero? t <;> rfl

/-- If the type reads every value, all of them are converted. -/
theorem convert_of_readable {operand : Operand}
    (h : f.operand.Related (fun v w => coerce t v = .ok w) operand) :
    q.convert f t = .ok { f with operand } := by
  have hconverted : f.operand.Related (fun v w => q.convertOperand f t v = .ok w) operand :=
    h.imp fun v w hv => by rw [convertOperand, hv]
  rw [convert, Operand.mapM_eq_ok_iff.mpr hconverted]
  rfl

/-- If the zero of the type may stand in, it does so where a value cannot be read. -/
theorem convert_of_replaced {z : Value} (hs : q.settings.malformedPolicy = .substitute)
    (hz : zero? t = some z) :
    ∃ operand, f.operand.Related (ReadOrReplaced t) operand ∧
      q.convert f t = .ok { f with operand } := by
  have hconverts : ∀ v w, ReadOrReplaced t v w → q.convertOperand f t v = .ok w := by
    rintro v w (hread | ⟨hunreadable, hw⟩)
    · rw [convertOperand, hread]
    · rw [convertOperand_of_unreadable hunreadable, hs, hw]
  have heach : ∀ v ∈ f.operand.given, ∃ w, ReadOrReplaced t v w := by
    intro v hv
    by_cases hread : ∃ w, coerce t v = .ok w
    · obtain ⟨w, hw⟩ := hread
      exact ⟨w, .inl hw⟩
    · exact ⟨z, .inr ⟨hread, hz⟩⟩
  obtain ⟨operand, hoperand⟩ := Operand.exists_related_iff.mpr heach
  refine ⟨operand, hoperand, ?_⟩
  rw [convert, Operand.mapM_eq_ok_iff.mpr (hoperand.imp hconverts)]
  rfl

/-- If nothing may stand in, the filter fails for a value that cannot be read. -/
theorem exists_convert_eq_error
    (hs : q.settings.malformedPolicy = .substitute → zero? t = none)
    (h : ∃ v ∈ f.operand.given, Unreadable t v) :
    ∃ v ∈ f.operand.given, Unreadable t v ∧ q.convert f t = .error (q.refusalOf f v) := by
  have hrefused : ∀ v, Unreadable t v → q.convertOperand f t v = .error (q.refusalOf f v) := by
    intro v hv
    rw [convertOperand_of_unreadable hv]
    cases hpolicy : q.settings.malformedPolicy with
    | substitute => rw [hs hpolicy]
    | drop | reject => rfl
  cases hconvert : f.operand.mapM (q.convertOperand f t) with
  | ok operand =>
    obtain ⟨v, hv, hunreadable⟩ := h
    obtain ⟨w, hw⟩ := Operand.exists_related_iff.mp ⟨operand, Operand.mapM_eq_ok_iff.mp hconvert⟩ v hv
    cases (hrefused v hunreadable).symm.trans hw
  | error refusal =>
    obtain ⟨v, hv, hfails⟩ := Operand.exists_given_of_mapM_eq_error hconvert
    have hunreadable : Unreadable t v := by
      rintro ⟨w, hw⟩
      rw [convertOperand, hw] at hfails
      cases hfails
    obtain rfl := Except.error.inj (hfails.symm.trans (hrefused v hunreadable))
    refine ⟨v, hv, hunreadable, ?_⟩
    rw [convert, hconvert]
    rfl

-- ---------------------------------------------------------------------------
-- All settings
-- ---------------------------------------------------------------------------

section
variable (h : q.Converts f t)

include h

theorem filter_of_readable {operand : Operand}
    (hread : f.operand.Related (fun v w => coerce t v = .ok w) operand) :
    q.filter f = .ok (q.addFilter { f with operand }) := by
  rw [filter, h.accept_eq, convert_of_readable hread]

theorem filter_of_replaced {z : Value} (hs : q.settings.malformedPolicy = .substitute)
    (hz : zero? t = some z) :
    ∃ operand, f.operand.Related (ReadOrReplaced t) operand ∧
      q.filter f = .ok (q.addFilter { f with operand }) := by
  obtain ⟨operand, hoperand, hconvert⟩ := convert_of_replaced (f := f) hs hz
  exact ⟨operand, hoperand, by rw [filter, h.accept_eq, hconvert]⟩

section
variable (hunreadable : ∃ v ∈ f.operand.given, Unreadable t v)

include hunreadable

theorem filter_of_dropped (hs : q.settings.malformedPolicy ≠ .reject)
    (hz : q.settings.malformedPolicy = .substitute → zero? t = none) : q.filter f = .ok q := by
  obtain ⟨v, -, -, hconvert⟩ := exists_convert_eq_error hz hunreadable
  rw [filter, h.accept_eq, hconvert, refusalOf, if_neg hs]
  rfl

theorem filter_of_rejected (hs : q.settings.malformedPolicy = .reject) :
    ∃ v ∈ f.operand.given, Unreadable t v ∧
      q.filter f = .error (.rejected [(f.field, [f.malformedValue v])]) := by
  have hz : q.settings.malformedPolicy = .substitute → zero? t = none := by
    rw [hs]
    nofun
  obtain ⟨v, hv, hvalue, hconvert⟩ := exists_convert_eq_error hz hunreadable
  refine ⟨v, hv, hvalue, ?_⟩
  rw [filter, h.accept_eq, hconvert, refusalOf, if_pos hs]
  rfl

end

/-- What is stored, if anything is. -/
theorem stored_of_filter_eq_ok {q' : Query} (hq' : q.filter f = .ok q') :
    q' = q ∨ ∃ operand, f.operand.Related (ReadOrReplaced t) operand ∧
      q' = q.addFilter { f with operand } := by
  by_cases hunreadable : ∃ v ∈ f.operand.given, Unreadable t v
  · by_cases hz : q.settings.malformedPolicy = .substitute → zero? t = none
    · by_cases hs : q.settings.malformedPolicy = .reject
      · obtain ⟨v, -, -, hfails⟩ := filter_of_rejected h hunreadable hs
        cases hfails.symm.trans hq'
      · exact .inl (Except.ok.inj (hq'.symm.trans (filter_of_dropped h hunreadable hs hz)))
    · obtain ⟨hs, hzero⟩ := Classical.not_imp.mp hz
      obtain ⟨z, hz⟩ := Option.ne_none_iff_exists'.mp hzero
      obtain ⟨operand, hoperand, hstored⟩ := filter_of_replaced h hs hz
      exact .inr ⟨operand, hoperand, Except.ok.inj (hq'.symm.trans hstored)⟩
  · have hread : ∀ v ∈ f.operand.given, ∃ w, coerce t v = .ok w := fun v hv =>
      Classical.not_not.mp fun hvalue => hunreadable ⟨v, hv, hvalue⟩
    obtain ⟨operand, hoperand⟩ := Operand.exists_related_iff.mpr hread
    refine .inr ⟨operand, hoperand.imp fun _ _ => .inl, ?_⟩
    exact Except.ok.inj (hq'.symm.trans (filter_of_readable h hoperand))

end

end Query

end ListQuery
