import ListQuery.Proofs.Sql.Truth

/-!
# Tests in standard SQL

A value stands to a bound one in an order, if the two can be compared, and all tests on the value
follow from that: comparisons from the order, ranges and lists from comparisons. What cannot be
compared, as a missing value, makes a test unknown; so a range or a list is not the negation of
itself, but of each of its comparisons.

* `Judge.IsStandard` — tests as SQL has them;
* `truth_compare_iff`, `truth_between_iff`, `truth_member_iff` — when they are true;
* `Judge.comparing`, `isStandard_comparing` — a judge for any order;
* `Judge.alike`, `isStandard_alike` — the one by the order of the values themselves.
-/

namespace ListQuery

open Calendar

namespace Sql

-- ---------------------------------------------------------------------------
-- Negation and lists
-- ---------------------------------------------------------------------------

namespace Truth

variable {t u : Truth} {ts : List Truth}

def negate : Truth → Truth
  | holds   => fails
  | fails   => holds
  | unknown => unknown

def negateIf (negated : Bool) (t : Truth) : Truth := if negated then t.negate else t

def anyOf (ts : List Truth) : Truth := ts.foldr either fails

theorem negate_eq_holds : t.negate = holds ↔ t = fails := by
  cases t <;> decide

theorem both_eq_fails : both t u = fails ↔ t = fails ∨ u = fails := by
  cases t <;> cases u <;> decide

theorem either_eq_fails : either t u = fails ↔ t = fails ∧ u = fails := by
  cases t <;> cases u <;> decide

theorem anyOf_eq_holds : anyOf ts = holds ↔ holds ∈ ts := by
  induction ts with
  | nil => decide
  | cons t ts ih =>
    show either t (anyOf ts) = holds ↔ _
    rw [either_eq_holds, ih, List.mem_cons, eq_comm]

theorem anyOf_eq_fails : anyOf ts = fails ↔ ∀ t ∈ ts, t = fails := by
  induction ts with
  | nil => exact iff_of_true rfl (List.forall_mem_nil _)
  | cons t ts ih =>
    show either t (anyOf ts) = fails ↔ _
    rw [either_eq_fails, ih, List.forall_mem_cons]

end Truth

-- ---------------------------------------------------------------------------
-- Comparisons in an order
-- ---------------------------------------------------------------------------

namespace Comparison

/-- Whether a comparison is true of two values that stand in an order. -/
def agrees : Comparison → Ordering → Bool
  | eq, o => o.isEq
  | ne, o => o.isNe
  | gt, o => o.isGT
  | ge, o => o.isGE
  | lt, o => o.isLT
  | le, o => o.isLE

/-- The comparison that is true where the other one is false. -/
def opposite : Comparison → Comparison
  | eq => ne
  | ne => eq
  | gt => le
  | ge => lt
  | lt => ge
  | le => gt

theorem agrees_opposite (op : Comparison) (o : Ordering) :
    op.opposite.agrees o = !op.agrees o := by
  cases op <;> cases o <;> rfl

/-- What becomes of a comparison; without an order it is unknown. -/
def judge (op : Comparison) : Option Ordering → Truth
  | none   => .unknown
  | some o => .ofBool (op.agrees o)

end Comparison

/-- How a value of a column stands to a bound one, if they can be compared. -/
abbrev Placing := Value → Bind → Option Ordering

/-- The value stands to the bound one as the comparison says. -/
def Comparison.Meets (op : Comparison) (place : Placing) (v : Value) (b : Bind) : Prop :=
  ∃ o, place v b = some o ∧ op.agrees o = true

section
variable {op : Comparison} {place : Placing} {v : Value} {b : Bind}

theorem judge_eq_holds : op.judge (place v b) = .holds ↔ op.Meets place v b := by
  unfold Comparison.Meets
  cases place v b with
  | none => simp [Comparison.judge]
  | some o => simp [Comparison.judge, Truth.ofBool_eq_holds]

theorem judge_eq_fails : op.judge (place v b) = .fails ↔ op.opposite.Meets place v b := by
  rw [← judge_eq_holds]
  cases place v b with
  | none => simp [Comparison.judge]
  | some o =>
    simp only [Comparison.judge, Comparison.agrees_opposite]
    cases op.agrees o <;> decide

theorem meets_le_iff :
    Comparison.le.Meets place v b ↔
      Comparison.lt.Meets place v b ∨ Comparison.eq.Meets place v b := by
  unfold Comparison.Meets
  cases place v b with
  | none => simp
  | some o => cases o <;> simp [Comparison.agrees]

theorem meets_gt_iff :
    Comparison.gt.Meets place v b ↔
      Comparison.ge.Meets place v b ∧ Comparison.ne.Meets place v b := by
  unfold Comparison.Meets
  cases place v b with
  | none => simp
  | some o => cases o <;> simp [Comparison.agrees]

theorem not_meets_opposite (h : op.Meets place v b) : ¬op.opposite.Meets place v b := by
  rintro ⟨o, ho, hagrees⟩
  obtain ⟨o', ho', hagrees'⟩ := h
  obtain rfl := Option.some.inj (ho.symm.trans ho')
  rw [Comparison.agrees_opposite, hagrees'] at hagrees
  cases hagrees

end

-- ---------------------------------------------------------------------------
-- Standard tests
-- ---------------------------------------------------------------------------

/-- Tests on an expression as SQL has them, given how its values stand to bound ones. A missing
value stands to none. -/
structure Judge.IsStandard (j : Judge) (x : Expr) (place : Placing) : Prop where
  missing : ∀ {v} b, v.isNull = true → place v b = none
  compare : ∀ op b v, j (.compare x op b) v = op.judge (place v b)
  isTruth : ∀ negated t v, j (.isTruth x negated t) v =
    (Comparison.eq.judge (place v ⟨.bool t, .boolean⟩)).negateIf negated
  between : ∀ negated low high v, j (.between x negated low high) v =
    (Truth.both (Comparison.ge.judge (place v low)) (Comparison.le.judge (place v high))).negateIf
      negated
  member  : ∀ negated vs v, j (.member x negated vs) v =
    (Truth.anyOf (vs.binds.map fun b => Comparison.eq.judge (place v b))).negateIf negated

namespace Judge.IsStandard

variable {j : Judge} {x : Expr} {place : Placing} (h : j.IsStandard x place)

include h

/-- A value that can be compared is not missing. -/
theorem isNull_of_meets {op : Comparison} {v : Value} {b : Bind} (hmeets : op.Meets place v b) :
    v.isNull = false := by
  obtain ⟨o, ho, -⟩ := hmeets
  refine Bool.eq_false_iff.mpr fun hnull => ?_
  rw [h.missing b hnull] at ho
  cases ho

variable {s : Scene}

theorem truth_compare_iff {op : Comparison} {b : Bind} :
    truth j s (.compare x op b) = .holds ↔ op.Meets place (s.at x.subject) b := by
  have htruth : truth j s (.compare x op b) = j (.compare x op b) (s.at x.subject) := by
    simp only [truth, Predicate.subject?, Option.elim_some]
  rw [htruth, h.compare, judge_eq_holds]

theorem truth_isTruth_iff {t : Bool} (negated : Bool) :
    truth j s (.isTruth x negated t) = .holds ↔
      (if negated then Comparison.ne else .eq).Meets place (s.at x.subject)
        ⟨.bool t, .boolean⟩ := by
  have htruth : truth j s (.isTruth x negated t) = j (.isTruth x negated t) (s.at x.subject) := by
    simp only [truth, Predicate.subject?, Option.elim_some]
  rw [htruth, h.isTruth]
  cases negated with
  | false => exact judge_eq_holds
  | true => exact Truth.negate_eq_holds.trans judge_eq_fails

/-- A value is between two bounds if it is not below the one and not above the other; it is not
between them if it is below the one or above the other. -/
theorem truth_between_iff {low high : Bind} :
    (truth j s (.between x false low high) = .holds ↔
      Comparison.ge.Meets place (s.at x.subject) low ∧
        Comparison.le.Meets place (s.at x.subject) high) ∧
    (truth j s (.between x true low high) = .holds ↔
      Comparison.lt.Meets place (s.at x.subject) low ∨
        Comparison.gt.Meets place (s.at x.subject) high) := by
  have htruth (negated : Bool) : truth j s (.between x negated low high) =
      j (.between x negated low high) (s.at x.subject) := by
    simp only [truth, Predicate.subject?, Option.elim_some]
  rw [htruth, htruth, h.between, h.between]
  constructor
  · exact Truth.both_eq_holds.trans (and_congr judge_eq_holds judge_eq_holds)
  · exact Truth.negate_eq_holds.trans
      (Truth.both_eq_fails.trans (or_congr judge_eq_fails judge_eq_fails))

/-- A value is in a list if it is equal to a member; it is not in the list if it is not equal to any
of them. -/
theorem truth_member_iff (vs : BindList) :
    (truth j s (.member x false vs) = .holds ↔
      ∃ b ∈ vs.binds, Comparison.eq.Meets place (s.at x.subject) b) ∧
    (truth j s (.member x true vs) = .holds ↔
      ∀ b ∈ vs.binds, Comparison.ne.Meets place (s.at x.subject) b) := by
  have htruth (negated : Bool) : truth j s (.member x negated vs) =
      j (.member x negated vs) (s.at x.subject) := by
    simp only [truth, Predicate.subject?, Option.elim_some]
  rw [htruth, htruth, h.member, h.member]
  constructor
  · refine Truth.anyOf_eq_holds.trans (List.mem_map.trans (exists_congr fun b => ?_))
    exact and_congr_right fun _ => judge_eq_holds
  · refine (Truth.negate_eq_holds.trans Truth.anyOf_eq_fails).trans ?_
    exact List.forall_mem_map.trans (forall₂_congr fun _ _ => judge_eq_fails)

end Judge.IsStandard

-- ---------------------------------------------------------------------------
-- A judge for any order
-- ---------------------------------------------------------------------------

/-- The judge that has every test from how values stand to each other. -/
def Judge.comparing (place : Expr → Placing) : Judge
  | .compare x op b,              v => op.judge (place x v b)
  | .isTruth x negated t,         v =>
    (Comparison.eq.judge (place x v ⟨.bool t, .boolean⟩)).negateIf negated
  | .between x negated low high,  v =>
    (Truth.both (Comparison.ge.judge (place x v low)) (Comparison.le.judge (place x v high))).negateIf
      negated
  | .member x negated vs,         v =>
    (Truth.anyOf (vs.binds.map fun b => Comparison.eq.judge (place x v b))).negateIf negated
  | _,                            _ => .unknown

theorem isStandard_comparing {place : Expr → Placing} {x : Expr}
    (h : ∀ {v} b, v.isNull = true → place x v b = none) :
    (Judge.comparing place).IsStandard x (place x) :=
  ⟨h, fun _ _ _ => rfl, fun _ _ _ => rfl, fun _ _ _ _ => rfl, fun _ _ _ => rfl⟩

/-- Numbers, texts and times each in their order. -/
def placeAlike : Value → Value → Option Ordering
  | .int n,       .int m       => some (compare n m)
  | .text s,      .text t      => some (compare s t)
  | .timestamp x, .timestamp y => some (compare x.instant y.instant)
  | _,            _            => none

/-- The text at a path in a document; nothing if there is none. -/
def textAt : List String → Value → Value
  | [],          .text s => .text s
  | [],          _       => .null
  | key :: path, .map es => (((textEntries es).get? key).map (textAt path)).getD .null
  | _ :: _,      _       => .null

/-- What an expression has of a value of its column, if it is the column or a path in it. -/
def Expr.valueIn : Expr → Value → Value
  | .column _,        v => v
  | .pathText _ path, v => textAt path v
  | _,                _ => .null

/-- The place of what an expression has of a value. -/
def Expr.placing (x : Expr) : Placing := fun v b => placeAlike (x.valueIn v) b.value

/-- Tests on columns and paths, by the order of their values. -/
def Judge.alike : Judge := .comparing Expr.placing

theorem isStandard_alike (x : Expr) : Judge.alike.IsStandard x x.placing := by
  refine isStandard_comparing fun {v} b hnull => ?_
  have hvalue : x.valueIn v = .null := by
    cases v with
    | null =>
      cases x with
      | pathText c path => cases path <;> rfl
      | _ => rfl
    | _ => cases hnull
  show placeAlike (x.valueIn v) b.value = none
  rw [hvalue]
  rfl

end Sql

end ListQuery
