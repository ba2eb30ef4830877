import ListQuery.Proofs.Sql.Alike
import ListQuery.Query.Acceptance
import ListQuery.Condition.OfFilter
import ListQuery.Condition.OfSearch

/-!
# Conditions of one form

What an operand says in a filter on a text or a number, or on a path inside a document, is bound and
decides nothing else: filters that differ in the texts of their operands place conditions that
differ in the values drawn from those texts.

* `Rendering` — the ways in which a text becomes a bound value;
* `Column.condition_alike`, `Column.pathCondition_alike` — filters on columns and on paths.
-/

namespace ListQuery

open Sql

-- ---------------------------------------------------------------------------
-- Texts and the values drawn from them
-- ---------------------------------------------------------------------------

/-- Text, or a number that is compared as such. -/
def ColumnType.isPlain (t : ColumnType) : Bool :=
  match t.native? with
  | some kind => kind != .boolean
  | none      => t.isText

/-- A raw value in the type; when it cannot be read, the zero of the type stands in for it. -/
def readAs (t : ColumnType) (raw : Value) : Value :=
  match coerce t raw with
  | .ok v    => v
  | .error _ => (zero? t).getD raw

theorem ColumnType.isText_of_isPlain {t : ColumnType} (ht : t.isPlain = true)
    (hnative : t.native? = none) : t.isText = true := by
  rwa [isPlain, hnative] at ht

/-- A text where a value is read from texts, and a zero stands in for it. -/
theorem readAs_text {α : Type} {t : ColumnType} {s : String} {read : String → Option α}
    {f : α → Value} {failure : Failure} {zero : Value}
    (hread : coerce t (.text s) = (readText read (.text s) failure).map f)
    (hzero : zero? t = some zero) :
    readAs t (.text s) = ((read (Text.trim s)).map f).getD zero := by
  have htext : Text.trim (Value.text s).display = Text.trim s := rfl
  rw [readAs, hread, readText, htext, hzero]
  cases read (Text.trim s) <;> rfl

/-- How a text becomes a value that is bound. -/
inductive Rendering where
  | itself
  | escaped
  | read (t : ColumnType)

namespace Rendering

def apply (s : String) : Rendering → Value
  | itself  => .text s
  | escaped => .text (escapePattern s)
  | read t  => readAs t (.text s)

/-- The values have one type, which is not that of truth values. -/
def IsScalar (r : Rendering) : Prop :=
  ∃ own, own ≠ .boolean ∧ own ≠ .untyped ∧ ∀ s, ownType? (r.apply s) = some own

theorem isScalar_itself : itself.IsScalar := ⟨.string, by decide, by decide, fun _ => rfl⟩

theorem isScalar_read {t : ColumnType} (ht : t.isPlain = true) : (read t).IsScalar := by
  cases hnative : t.native? with
  | none =>
    have htext := ColumnType.isText_of_isPlain ht hnative
    refine ⟨.string, by decide, by decide, fun s => ?_⟩
    cases t with
    | string => rfl
    | text => rfl
    | _ => cases htext
  | some kind =>
    have hzero : zero? t = (some kind).map _ := congrArg _ hnative
    cases kind with
    | boolean =>
      rw [ColumnType.isPlain, hnative] at ht
      cases ht
    | integer =>
      refine ⟨.integer, by decide, by decide, fun s => ?_⟩
      rw [apply, readAs_text (by unfold coerce; rw [hnative]) hzero]
      cases Number.readInteger (Text.trim s) <;> rfl
    | float =>
      refine ⟨.float, by decide, by decide, fun s => ?_⟩
      rw [apply, readAs_text (by unfold coerce; rw [hnative]) hzero]
      cases Number.readDouble (Text.trim s) <;> rfl
    | decimal =>
      refine ⟨.numeric, by decide, by decide, fun s => ?_⟩
      rw [apply, readAs_text (by unfold coerce; rw [hnative]) hzero]
      cases Number.readDecimal (Text.trim s) <;> rfl

end Rendering

/-- The values are the same, or were drawn in one way from texts that stand in a relation. -/
inductive Varies (P : String → String → Prop) (r : Rendering) : Value → Value → Prop
  | same (v : Value) : Varies P r v v
  | texts {s s' : String} (h : P s s') : Varies P r (r.apply s) (r.apply s')

/-- The values are the same, or were drawn from texts that stand in a relation. -/
def Tied (P : String → String → Prop) (v v' : Value) : Prop := ∃ r, Varies P r v v'

/-- Operands of one shape whose values vary. -/
inductive Operand.Varies (P : String → String → Prop) (r : Rendering) : Operand → Operand → Prop
  | single {v v' : Value} (h : ListQuery.Varies P r v v') : Operand.Varies P r (.single v) (.single v')
  | multiple {vs vs' : List Value} (h : List.Forall₂ (ListQuery.Varies P r) vs vs') :
      Operand.Varies P r (.multiple vs) (.multiple vs')
  | range {low low' high high' : Value} (hlow : ListQuery.Varies P r low low')
      (hhigh : ListQuery.Varies P r high high') :
      Operand.Varies P r (.range low high) (.range low' high')

theorem Varies.imp {P Q : String → String → Prop} {r : Rendering} {v v' : Value}
    (h : Varies P r v v') (hPQ : ∀ s s', P s s' → Q s s') : Varies Q r v v' := by
  cases h with
  | same => exact .same v
  | texts h => exact .texts (hPQ _ _ h)

namespace Operand.Varies

variable {P : String → String → Prop} {r : Rendering} {o o' : Operand}

theorem imp {Q : String → String → Prop} (h : o.Varies P r o') (hPQ : ∀ s s', P s s' → Q s s') :
    o.Varies Q r o' := by
  cases h with
  | single h => exact .single (h.imp hPQ)
  | multiple h => exact .multiple (List.Forall₂.imp (fun _ _ h => h.imp hPQ) h)
  | range hlow hhigh => exact .range (hlow.imp hPQ) (hhigh.imp hPQ)

theorem first (h : o.Varies P r o') : ListQuery.Varies P r o.first o'.first := by
  cases h with
  | single h => exact h
  | range hlow _ => exact hlow
  | multiple h =>
    cases h with
    | nil => exact .same .null
    | cons h _ => exact h

theorem values (hr : r.IsScalar) (h : o.Varies P r o') :
    List.Forall₂ (ListQuery.Varies P r) o.values o'.values := by
  cases h with
  | multiple h => exact h
  | range hlow hhigh => exact .cons hlow (.cons hhigh .nil)
  | single h =>
    cases h with
    | same v => exact List.forall₂_same.mpr fun v _ => .same v
    | @texts s s' h =>
      -- a value with a type is there
      obtain ⟨own, -, -, htype⟩ := hr
      have hthere : ∀ s, (Operand.single (r.apply s)).values = [r.apply s] := by
        intro s
        have hs := htype s
        cases hv : r.apply s with
        | null =>
          rw [hv] at hs
          cases hs
        | _ => rfl
      rw [hthere, hthere]
      exact .cons (.texts h) .nil

end Operand.Varies

theorem tied_refl {P : String → String → Prop} (v : Value) : Tied P v v := ⟨.itself, .same v⟩

namespace Column

variable {c : Column} {P : String → String → Prop} {r : Rendering} {v v' : Value}

-- ---------------------------------------------------------------------------
-- Single values
-- ---------------------------------------------------------------------------

/-- A value of a type that is not that of truth values. -/
theorem scalar_cases {own : ColumnType} (hv : ownType? v = some own) (hown : own ≠ .boolean) :
    (∀ op, c.ordered op v = .ok (.compare (.column c) op (c.bind v))) ∧
      (∀ negated, c.equals negated v =
        .compare (.column c) (if negated then .ne else .eq) (c.bind v)) ∧
      ∀ caseless negated, c.likePattern caseless negated v =
        .ok (.like (.column c) caseless negated (c.bind v)) := by
  cases v with
  | null => cases hv
  | bool b => exact absurd (Option.some.inj hv).symm hown
  | _ => exact ⟨fun _ => rfl, fun _ => rfl, fun _ _ => rfl⟩

section
variable (hr : r.IsScalar) (h : Varies P r v v')

include hr h

theorem bind_alike : (c.bind v).Alike (Tied P) (c.bind v') := by
  refine ⟨?_, r, h⟩
  cases h with
  | same => rfl
  | @texts s s' _ =>
    obtain ⟨own, -, -, htype⟩ := hr
    show Bind.typeFor _ _ = Bind.typeFor _ _
    rw [Bind.typeFor, Bind.typeFor, htype s, htype s']

/-- A condition that is made of the bound value alone, if the value has a type. -/
theorem alike_of_scalar {F : Value → Except Failure Predicate} {p : Bind → Predicate}
    (hF : ∀ v own, ownType? v = some own → own ≠ .boolean → F v = .ok (p (c.bind v)))
    (hp : ∀ {b b'}, Bind.Alike (Tied P) b b' → (p b).Alike (Tied P) (p b')) :
    SameOutcome (Predicate.Alike (Tied P)) (F v) (F v') := by
  have hbind : (c.bind v).Alike (Tied P) (c.bind v') := bind_alike hr h
  cases h with
  | same => exact .refl .refl _
  | @texts s s' _ =>
    obtain ⟨own, hown, -, htype⟩ := hr
    rw [hF _ own (htype s) hown, hF _ own (htype s') hown]
    exact .ok (hp hbind)

theorem ordered_alike (op : Comparison) :
    SameOutcome (Predicate.Alike (Tied P)) (c.ordered op v) (c.ordered op v') :=
  alike_of_scalar hr h (fun _ _ hv hown => (scalar_cases hv hown).1 op) (.compare _ _)

theorem equals_alike (negated : Bool) :
    SameOutcome (Predicate.Alike (Tied P)) (.ok (c.equals negated v) : Except Failure Predicate)
      (.ok (c.equals negated v')) :=
  alike_of_scalar (F := fun v => .ok (c.equals negated v)) hr h
    (fun _ _ hv hown => congrArg _ ((scalar_cases hv hown).2.1 negated)) (.compare _ _)

theorem likePattern_alike (caseless negated : Bool) :
    SameOutcome (Predicate.Alike (Tied P)) (c.likePattern caseless negated v)
      (c.likePattern caseless negated v') :=
  alike_of_scalar hr h (fun _ _ hv hown => (scalar_cases hv hown).2.2 caseless negated)
    (.like _ _ _)

end

/-- A text that is looked for. -/
theorem affix_alike (h : Varies P .itself v v') (e : Expr) (kind : Affix) :
    (Predicate.affix e kind v.display).Alike (Tied P) (.affix e kind v'.display) := by
  cases h with
  | same => exact .refl _
  | texts h => exact .affix e kind ⟨.escaped, .texts h⟩

/-- A text or a number has no day. -/
theorem dayRange_plain (hc : c.type.isPlain = true) (v : Value) : dayRange c.type v = .ok none := by
  unfold dayRange
  split
  case h_1 htype =>
    rw [htype] at hc
    cases hc
  case h_2 => rfl

/-- How the operands of an operator on a text or a number become values. -/
def renderingOf (c : Column) (op : Operator) : Rendering :=
  if op.category.comparesValues then .read c.type else .itself

theorem isScalar_renderingOf (hc : c.type.isPlain = true) (op : Operator) :
    (c.renderingOf op).IsScalar := by
  unfold renderingOf
  split
  · exact Rendering.isScalar_read hc
  · exact Rendering.isScalar_itself

theorem compareWith_alike (hc : c.type.isPlain = true) (op : Operator)
    (h : Varies P (c.renderingOf op) v v') :
    SameOutcome (Predicate.Alike (Tied P)) (c.compareWith op v) (c.compareWith op v') := by
  have hr := isScalar_renderingOf hc op
  have hday : ∀ v, dayRange c.type v = .ok none := dayRange_plain hc
  unfold compareWith equalsDay differsFromDay above upTo
  rw [hday, hday]
  cases op with
  | eq => exact equals_alike hr h false
  | ne => exact equals_alike hr h true
  | gt => exact ordered_alike hr h .gt
  | gte => exact ordered_alike hr h .ge
  | lt => exact ordered_alike hr h .lt
  | lte => exact ordered_alike hr h .le
  | like => exact likePattern_alike hr h false false
  | ilike => exact likePattern_alike hr h true false
  | notLike => exact likePattern_alike hr h false true
  | notIlike => exact likePattern_alike hr h true true
  | contains => exact .ok (affix_alike h _ .anywhere)
  | startsWith => exact .ok (affix_alike h _ .atStart)
  | endsWith => exact .ok (affix_alike h _ .atEnd)
  | isNull => exact .ok (.refl _)
  | isNotNull => exact .ok (.refl _)
  | _ => exact .ok (.fullText _ (bind_alike hr h))

-- ---------------------------------------------------------------------------
-- Several values
-- ---------------------------------------------------------------------------

theorem typeFor_ne_untyped {t : ColumnType} (ht : t ≠ .untyped) (v : Value) :
    Bind.typeFor t v ≠ .untyped := by
  unfold Bind.typeFor
  cases v with
  | null => exact ht
  | list vs => exact ht
  | map es => exact ht
  | _ =>
    dsimp only [ownType?]
    split
    · exact ht
    · decide

theorem ofList_alike (hr : r.IsScalar) {t : ColumnType} (ht : t ≠ .untyped) {vs vs' : List Value}
    (h : List.Forall₂ (Varies P r) vs vs') :
    (BindList.ofList t vs).Alike (Tied P) (BindList.ofList t vs') := by
  have htied : List.Forall₂ (Tied P) vs vs' := h.imp fun _ _ h => ⟨r, h⟩
  cases h with
  | nil => exact .refl _
  | @cons v v' vs vs' hv _ =>
    have htype : Bind.typeFor t v = Bind.typeFor t v' :=
      (bind_alike (c := ⟨"", "", t⟩) hr hv).type_eq
    show BindList.Alike _ ⟨v :: vs, Bind.typeFor t v⟩ ⟨v' :: vs', Bind.typeFor t v'⟩
    rw [htype]
    exact .values (typeFor_ne_untyped ht v') htied

theorem oneOf_alike (hc : c.type.isPlain = true) (hr : r.IsScalar) (negated : Bool)
    {vs vs' : List Value} (h : List.Forall₂ (Varies P r) vs vs') :
    (c.oneOf negated vs).Alike (Tied P) (c.oneOf negated vs') := by
  have htyped : c.type ≠ .untyped := by
    intro htype
    rw [htype] at hc
    cases hc
  have hlist : (BindList.ofList c.type vs).Alike (Tied P) (BindList.ofList c.type vs') :=
    ofList_alike hr htyped h
  cases h with
  | nil => exact .refl _
  | cons => exact .member _ _ hlist

theorem within_alike (hr : r.IsScalar) (negated : Bool) {o o' : Operand} (h : o.Varies P r o') :
    (c.within negated o).Alike (Tied P) (c.within negated o') := by
  cases h with
  | single => exact .refl _
  | multiple => exact .refl _
  | range hlow hhigh => exact .between _ _ (bind_alike hr hlow) (bind_alike hr hhigh)

/-- A filter on a text or a number, with another operand of the same shape. -/
theorem condition_alike (hc : c.type.isPlain = true) {op : Operator}
    (hop : op.category ≠ .json) {o o' : Operand} (h : o.Varies P (c.renderingOf op) o') :
    SameOutcome (Predicate.Alike (Tied P)) (c.condition op o) (c.condition op o') := by
  have hr := isScalar_renderingOf hc op
  unfold condition
  cases hcategory : op.category with
  | json => exact absurd hcategory hop
  | equality =>
    cases h with
    | multiple h => exact .ok (oneOf_alike hc hr _ h)
    | single h => exact compareWith_alike hc op h
    | range hlow hhigh => exact compareWith_alike hc op hlow
  | set => exact .ok (oneOf_alike hc hr _ (h.values hr))
  | range =>
    dsimp only
    split
    · exact .ok (within_alike hr _ h)
    · exact compareWith_alike hc op h.first
  | _ => exact compareWith_alike hc op h.first

-- ---------------------------------------------------------------------------
-- Paths inside documents
-- ---------------------------------------------------------------------------

/-- How the operands of an operator on a path become values. -/
def pathRenderingOf (op : Operator) : Rendering := if op.isOrdering then .read .float else .itself

theorem isScalar_pathRenderingOf (op : Operator) : (pathRenderingOf op).IsScalar := by
  unfold pathRenderingOf
  split
  · exact Rendering.isScalar_read rfl
  · exact Rendering.isScalar_itself

/-- The text of a value that is compared with the text at a path. -/
theorem display_varies (h : Varies P .itself v v') :
    Varies P .itself (.text v.display) (.text v'.display) := by
  cases h with
  | same => exact .same _
  | texts h => exact .texts h

theorem exists_readAs_float (s : String) : ∃ d, readAs .float (.text s) = .float d := by
  have hread : coerce .float (.text s) =
      (readText Number.readDouble (.text s) .unreadable).map .float := rfl
  rw [readAs_text hread rfl]
  cases Number.readDouble (Text.trim s) with
  | none => exact ⟨_, rfl⟩
  | some d => exact ⟨d, rfl⟩

theorem pathNumber_alike (path : List String) (op : Comparison)
    (h : Varies P (.read .float) v v') :
    SameOutcome (Predicate.Alike (Tied P)) (c.pathNumber path op v) (c.pathNumber path op v') := by
  have htied : Tied P v v' := ⟨_, h⟩
  cases h with
  | same => exact .refl .refl _
  | @texts s s' h =>
    obtain ⟨d, hd⟩ := exists_readAs_float s
    obtain ⟨d', hd'⟩ := exists_readAs_float s'
    rw [Rendering.apply, Rendering.apply, hd, hd'] at htied ⊢
    exact .ok (.compare _ _ ⟨rfl, htied⟩)

theorem pathOneOf_alike (path : List String) (negated : Bool) {vs vs' : List Value}
    (h : List.Forall₂ (Varies P .itself) vs vs') :
    (c.pathOneOf path negated vs).Alike (Tied P) (c.pathOneOf path negated vs') := by
  refine .member _ _ (.values (by decide) ?_)
  rw [List.forall₂_map_left_iff, List.forall₂_map_right_iff]
  exact h.imp fun _ _ h => ⟨.itself, display_varies h⟩

/-- A filter on a path inside a document, with another operand of the same shape. -/
theorem pathCondition_alike (path : List String) {op : Operator} {o o' : Operand}
    (h : o.Varies P (pathRenderingOf op) o') :
    SameOutcome (Predicate.Alike (Tied P)) (c.pathCondition path op o)
      (c.pathCondition path op o') := by
  have hfirst := h.first
  have hvalues := h.values (isScalar_pathRenderingOf op)
  have htext : ∀ op, Varies P .itself o.first o'.first →
      (c.pathText path op o.first).Alike (Tied P) (c.pathText path op o'.first) :=
    fun op h => .compare _ op ⟨rfl, .itself, display_varies h⟩
  unfold pathCondition
  cases op with
  | eq => exact .ok (htext _ hfirst)
  | ne => exact .ok (htext _ hfirst)
  | gt => exact pathNumber_alike path _ hfirst
  | gte => exact pathNumber_alike path _ hfirst
  | lt => exact pathNumber_alike path _ hfirst
  | lte => exact pathNumber_alike path _ hfirst
  | isIn => exact .ok (pathOneOf_alike path false hvalues)
  | notIn => exact .ok (pathOneOf_alike path true hvalues)
  | contains => exact .ok (affix_alike hfirst _ .anywhere)
  | startsWith => exact .ok (affix_alike hfirst _ .atStart)
  | endsWith => exact .ok (affix_alike hfirst _ .atEnd)
  | isNull => exact .ok (.refl _)
  | isNotNull => exact .ok (.refl _)
  | _ => exact .error _

end Column

end ListQuery
