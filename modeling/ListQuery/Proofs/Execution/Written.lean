import Mathlib.Data.List.Count
import ListQuery.Proofs.Execution.OneTable
import ListQuery.Proofs.Sql.Writable

/-!
# The statements of a query can be written

If the statement that reads all rows of a query can be written, so can the one that counts them, the
one for the first row, and those of all its pages: the hidden columns repeat none of the projected
ones, and the condition after a row has no lists of values.

* `checkNames_rowsStatement` — the projected columns;
* `isList_after` — the condition after a row;
* `check_count`, `check_cut`, `check_cursorCut` — the other statements of the query.
-/

namespace ListQuery.Query

open Sql

variable {q : Query} {schema : Schema} {keys : List SortKey} {tables : List Join}
  {conditions : List Predicate}

-- ---------------------------------------------------------------------------
-- Projected columns
-- ---------------------------------------------------------------------------

theorem columnNamed_injective (e : Entity) : Function.Injective e.columnNamed := by
  intro a b h
  exact congrArg Column.name h

/-- The nameless column is repeated if it was projected twice. -/
theorem hasNamelessRepetition_outputs (names : List String) :
    hasNamelessRepetition (names.map q.output) = true ↔ 2 ≤ names.count "" := by
  have hplain : ((names.map q.output).filter (·.label.isNone)).map (·.column) =
      names.map q.entity.columnNamed := by
    rw [List.filter_eq_self.mpr, List.map_map]
    · rfl
    · intro o ho
      obtain ⟨name, -, rfl⟩ := List.mem_map.mp ho
      rfl
  rw [hasNamelessRepetition, hplain, List.any_eq_true]
  constructor
  · rintro ⟨c, hc, h⟩
    obtain ⟨name, -, rfl⟩ := List.mem_map.mp hc
    obtain ⟨hname, hcount⟩ := Bool.and_eq_true_iff.mp h
    obtain rfl : name = "" := beq_iff_eq.mp hname
    rwa [decide_eq_true_eq, List.count_map_of_injective _ _ (columnNamed_injective _)] at hcount
  · intro h
    have hmem : "" ∈ names := List.count_pos_iff.mp (by omega)
    refine ⟨q.entity.columnNamed "", List.mem_map.mpr ⟨"", hmem, rfl⟩, ?_⟩
    rw [List.count_map_of_injective _ _ (columnNamed_injective _), decide_eq_true h]
    rfl

/-- Hidden columns repeat no column. -/
theorem two_le_count_read (keys : List SortKey) :
    2 ≤ (q.projectedFields ++ q.hiddenFor keys).count "" ↔ 2 ≤ q.projectedFields.count "" := by
  have hhidden : (q.hiddenFor keys).count "" ≤ 1 :=
    List.nodup_iff_count_le_one.mp (nodup_distinct _) ""
  rw [List.count_append]
  by_cases hmem : "" ∈ q.projectedFields
  · have hzero : (q.hiddenFor keys).count "" = 0 :=
      List.count_eq_zero.mpr fun h => (q.mem_hiddenFor.mp h).2 hmem
    omega
  · have hzero : q.projectedFields.count "" = 0 := List.count_eq_zero.mpr hmem
    omega

/-- The columns of a page by cursor have names if those of all rows do. -/
theorem checkNames_rowsStatement (hplain : ∀ p ∈ q.includes, q.entity.joinsEagerly p = false)
    (keys : List SortKey) :
    (q.rowsStatement schema keys tables conditions).checkNames = .ok () ↔
      ¬2 ≤ q.projectedFields.count "" := by
  have hnames : hasNamelessRepetition (q.outputs schema keys) = true ↔
      2 ≤ q.projectedFields.count "" := by
    rw [outputs_eq_map hplain, hasNamelessRepetition_outputs, two_le_count_read]
  rw [← hnames, Statement.checkNames]
  show (if _ then _ else _) = _ ↔ _
  split
  case isTrue h =>
    refine iff_of_false (fun h' => ?_) fun h' => h' h
    cases h'
  case isFalse h => exact iff_of_true rfl h

-- ---------------------------------------------------------------------------
-- The condition after a row
-- ---------------------------------------------------------------------------

section
variable {e : Entity} {values : Entries Value} {before : List SortKey}

theorem isList_equals (c : Column) (v : Value) :
    ∀ p ∈ marks ((c.equals false v).pieces .sqlite .bare), p.isList = false := by
  cases v <;> simp [Column.equals, Predicate.pieces, Expr.pieces, Piece.isList]

theorem isList_afterOf (key : SortKey) (v : Value) :
    ∀ p ∈ marks ((Keyset.afterOf e key v).pieces .sqlite .bare), p.isList = false := by
  unfold Keyset.afterOf Keyset.strictly
  split <;> simp [Predicate.pieces, Predicate.listPieces, Expr.pieces, Piece.isList]

theorem isList_conditionMarks {ps : List Predicate}
    (h : ∀ q ∈ ps, ∀ p ∈ marks (q.pieces .sqlite .bare), p.isList = false) :
    ∀ p ∈ conditionMarks .sqlite ps, p.isList = false := by
  induction ps with
  | nil => exact fun p hp => absurd hp List.not_mem_nil
  | cons q ps ih =>
    intro p hp
    rw [← List.singleton_append, conditionMarks_append, conditionMarks_singleton,
      List.mem_append] at hp
    rcases hp with hp | hp
    · exact h q List.mem_cons_self p hp
    · exact ih (fun q hq => h q (List.mem_cons_of_mem _ hq)) p hp

theorem isList_branchesOf :
    ∀ q ∈ Keyset.branchesOf e values before keys, ∀ p ∈ marks (q.pieces .sqlite .bare),
      p.isList = false := by
  induction keys generalizing before with
  | nil => exact fun q hq => absurd hq List.not_mem_nil
  | cons key keys ih =>
    intro q hq
    rw [Keyset.branchesOf, List.mem_append] at hq
    rcases hq with hq | hq
    · split at hq
      · exact absurd hq List.not_mem_nil
      · obtain rfl := List.mem_singleton.mp hq
        rw [marks_conj]
        refine isList_conditionMarks fun q hq => ?_
        rcases List.mem_append.mp hq with hq | hq
        · obtain ⟨k, -, rfl⟩ := List.mem_map.mp hq
          exact isList_equals _ _
        · obtain rfl := List.mem_singleton.mp hq
          exact isList_afterOf _ _
    · exact ih q hq

/-- The condition after a row has no lists of values. -/
theorem isList_after :
    ∀ p ∈ conditionMarks .sqlite (Predicate.disj (Keyset.branchesOf e values [] keys)).conjuncts,
      p.isList = false := by
  rw [conditionMarks_conjuncts, marks_disj]
  exact isList_conditionMarks isList_branchesOf

end

-- ---------------------------------------------------------------------------
-- The other statements
-- ---------------------------------------------------------------------------

variable (hcheck : (q.rowsStatement schema [] tables conditions).check = .ok ())

include hcheck

theorem check_count : (q.countStatement conditions).check = .ok () :=
  Statement.check_of_conditions hcheck rfl (List.append_nil _).symm
    fun _ hp => absurd hp List.not_mem_nil

/-- All rows up to a limit, from an offset on. -/
theorem check_cut (limit offset : Option Int) :
    { q.rowsStatement schema [] tables conditions with limit, offset }.check = .ok () := by
  have hnames : (q.rowsStatement schema [] tables conditions).checkNames = .ok () :=
    Statement.checkNames_of_check hcheck
  exact Statement.check_of_conditions hcheck hnames (List.append_nil _).symm
    fun _ hp => absurd hp List.not_mem_nil

/-- A page by cursor, whatever the conditions of its cursor are, if they have no lists. -/
theorem check_cursorCut (hplain : ∀ p ∈ q.includes, q.entity.joinsEagerly p = false)
    {after : List Predicate} (keys : List SortKey) (n : Int)
    (hafter : ∀ p ∈ conditionMarks .sqlite (after.flatMap Predicate.conjuncts), p.isList = false) :
    (cursorCut (q.rowsStatement schema keys tables conditions) after n).check = .ok () := by
  rw [cursorCut, foldl_restrict]
  have hnames : (q.rowsStatement schema keys tables conditions).checkNames = .ok () :=
    (checkNames_rowsStatement hplain keys).mpr
      ((checkNames_rowsStatement hplain []).mp (Statement.checkNames_of_check hcheck))
  exact Statement.check_of_conditions hcheck hnames rfl hafter

end ListQuery.Query
