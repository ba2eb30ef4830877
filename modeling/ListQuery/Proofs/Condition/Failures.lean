import ListQuery.Compiled
import ListQuery.Proofs.Query.AnyCursor

/-!
# How conditions fail

A condition fails over its operand alone: one that cannot be read, is out of range or has no meaning
for the comparison. No name is missing to it, since a filter or search without a column has no
condition instead of failing. Operands are read as documents too: a text that cannot be read as one
spells none, holds an integer with too many digits, or opens too many brackets inside each other; there
is no other way for reading to fail.

* `Json.onlyFails_value` — values, lists and objects, by how much of the text is left;
* `Json.onlyFails_read` — whole documents;
* `Entity.onlyFails_condition?`, `Entity.onlyFails_searchConditions` — filters and searches;
* `Query.onlyFails_conditions`, `Query.onlyFails_cursorConditions` — all conditions of a query.
-/

namespace ListQuery

-- ---------------------------------------------------------------------------
-- Texts that are no documents
-- ---------------------------------------------------------------------------

namespace Json

/-- How the reading of a document can fail. -/
inductive IsUnread : Failure → Prop
  | noDocument : IsUnread .notDocument
  | tooLong : IsUnread .unreadable
  | tooDeep : IsUnread .tooDeep

theorem onlyFails_stringBody (high : Option Nat) (cs : List Char) :
    OnlyFails IsUnread (stringBody high cs) := by
  fun_induction stringBody high cs
  case case1 | case7 | case10 | case12 => exact onlyFails_error .noDocument
  case case2 ih | case3 ih | case4 ih | case6 ih | case8 ih | case11 ih => exact ih.map _
  case case5 ih => exact ih
  case case9 => exact onlyFails_ok _

theorem onlyFails_number (negative : Bool) (cs : List Char) :
    OnlyFails IsUnread (number negative cs) := by
  unfold number
  dsimp only
  split
  case isTrue => exact onlyFails_error .noDocument
  case isFalse =>
    split
    case isTrue =>
      split
      · exact onlyFails_error .tooLong
      · exact onlyFails_ok _
    case isFalse =>
      split
      · exact onlyFails_ok _
      · exact onlyFails_error .noDocument

theorem onlyFails_scalar (cs : List Char) : OnlyFails IsUnread (scalar cs) := by
  unfold scalar
  split
  case h_7 =>
    split
    · exact onlyFails_number true _
    · exact onlyFails_number false _
  all_goals exact onlyFails_ok _

mutual

theorem onlyFails_value (room : Nat) : ∀ (fuel : Nat) (cs : List Char),
    OnlyFails IsUnread (value room fuel cs)
  | 0, cs => by
    rw [value]
    exact onlyFails_error .noDocument
  | fuel + 1, cs => by
    unfold value
    split
    case h_1 => exact (onlyFails_stringBody none _).map _
    case h_2 =>
      split_ifs
      · exact onlyFails_error .tooDeep
      · split
        · exact onlyFails_ok _
        · exact (onlyFails_items _ fuel _).map _
    case h_3 =>
      split_ifs
      · exact onlyFails_error .tooDeep
      · split
        · exact onlyFails_ok _
        · exact (onlyFails_entries _ fuel _).map _
    case h_4 => exact onlyFails_scalar _

theorem onlyFails_items (room : Nat) : ∀ (fuel : Nat) (cs : List Char),
    OnlyFails IsUnread (items room fuel cs)
  | 0, cs => by
    rw [items]
    exact onlyFails_error .noDocument
  | fuel + 1, cs => by
    rw [items]
    refine (onlyFails_value room fuel cs).bind fun (v, r) => ?_
    dsimp only
    split
    · exact (onlyFails_items room fuel _).bind fun _ => onlyFails_ok _
    · exact onlyFails_ok _
    · exact onlyFails_error .noDocument

theorem onlyFails_entries (room : Nat) : ∀ (fuel : Nat) (cs : List Char),
    OnlyFails IsUnread (entries room fuel cs)
  | 0, cs => by
    rw [entries]
    exact onlyFails_error .noDocument
  | fuel + 1, cs => by
    unfold entries
    split
    case h_2 => exact onlyFails_error .noDocument
    case h_1 r =>
      refine (onlyFails_stringBody none r).bind fun (k, r) => ?_
      dsimp only
      split
      case h_2 => exact onlyFails_error .noDocument
      case h_1 r =>
        refine (onlyFails_value room fuel _).bind fun (v, r) => ?_
        dsimp only
        split
        · exact (onlyFails_entries room fuel _).bind fun _ => onlyFails_ok _
        · exact onlyFails_ok _
        · exact onlyFails_error .noDocument

end

/-- A text that cannot be read as a document spells none, or is beyond what is read. -/
theorem onlyFails_read (cs : List Char) : OnlyFails IsUnread (read cs) := by
  refine (onlyFails_value maxDepth _ _).bind fun (v, r) => ?_
  dsimp only
  split_ifs
  · exact onlyFails_ok v
  · exact onlyFails_error .noDocument

end Json

open Sql

-- ---------------------------------------------------------------------------
-- Conditions
-- ---------------------------------------------------------------------------

/-- Failures over an operand. -/
def Failure.isOfOperand : Failure → Bool
  | .unreadable | .wrongKind | .notDocument | .noPathOperator _ | .outOfRange | .noOperation
  | .tooDeep | .badOperand => true
  | _                      => false

/-- The work fails over an operand, if it does. -/
abbrev FailsOnOperand {α : Type} (x : Except Failure α) : Prop :=
  OnlyFails (·.isOfOperand = true) x

theorem onlyFails_dayRange (t : ColumnType) (v : Value) : FailsOnOperand (dayRange t v) := by
  have hday : ∀ start, FailsOnOperand (dayRange.day start) := by
    intro start
    unfold dayRange.day
    split
    · exact onlyFails_ok _
    · exact onlyFails_error rfl
  unfold dayRange
  split
  case h_2 => exact onlyFails_ok _
  case h_1 =>
    split
    case h_1 =>
      split
      · exact hday _
      · exact onlyFails_ok _
    case h_2 => exact hday _
    case h_3 =>
      split
      case isTrue =>
        split
        · exact hday _
        · exact onlyFails_error rfl
      case isFalse => exact onlyFails_ok _
    case h_4 => exact onlyFails_ok _

theorem onlyFails_toDouble (v : Value) : FailsOnOperand v.toDouble := by
  unfold Value.toDouble
  split
  case h_2 | h_7 =>
    split
    · exact onlyFails_ok _
    · exact onlyFails_error rfl
  case h_6 =>
    split
    · exact onlyFails_error rfl
    · exact onlyFails_ok _
  case h_8 => exact onlyFails_error rfl
  all_goals exact onlyFails_ok _

-- ---------------------------------------------------------------------------
-- Filters
-- ---------------------------------------------------------------------------

namespace Column

variable (c : Column)

theorem onlyFails_ordered (op : Comparison) (v : Value) : FailsOnOperand (c.ordered op v) := by
  unfold ordered
  split
  · exact onlyFails_error rfl
  · exact onlyFails_error rfl
  · exact onlyFails_ok _

theorem onlyFails_likePattern (caseless negated : Bool) (v : Value) :
    FailsOnOperand (c.likePattern caseless negated v) := by
  unfold likePattern
  split
  · exact onlyFails_error rfl
  · exact onlyFails_error rfl
  · exact onlyFails_ok _

theorem onlyFails_compareWith (op : Operator) (v : Value) :
    FailsOnOperand (c.compareWith op v) := by
  have hday := onlyFails_dayRange c.type v
  unfold compareWith
  split
  case h_1 | h_2 =>
    refine hday.bind fun range => ?_
    split <;> exact onlyFails_ok _
  case h_3 | h_6 =>
    refine hday.bind fun range => ?_
    split
    · exact onlyFails_ok _
    · exact c.onlyFails_ordered _ v
  case h_4 | h_5 => exact c.onlyFails_ordered _ v
  case h_7 | h_8 | h_9 | h_10 => exact c.onlyFails_likePattern _ _ v
  all_goals exact onlyFails_ok _

theorem onlyFails_documentOf (v : Value) : FailsOnOperand (documentOf v) := by
  unfold documentOf
  split
  · refine (Json.onlyFails_read _).imp fun fail hfail => ?_
    cases hfail <;> rfl
  · exact onlyFails_ok _

theorem onlyFails_testDocument (test : DocumentTest) (v : Bind) :
    FailsOnOperand (c.testDocument test v) := by
  unfold testDocument
  split
  · exact onlyFails_ok _
  · exact onlyFails_error rfl

theorem onlyFails_documentCondition (op : Operator) (operand : Operand) :
    FailsOnOperand (c.documentCondition op operand) := by
  unfold documentCondition
  split
  case h_1 | h_2 | h_3 => exact c.onlyFails_testDocument _ _
  case h_4 => exact (onlyFails_documentOf _).bind fun _ => c.onlyFails_testDocument _ _
  case h_5 =>
    refine (onlyFails_documentOf _).bind fun _ => ?_
    split <;> exact onlyFails_ok _

theorem onlyFails_condition (op : Operator) (operand : Operand) :
    FailsOnOperand (c.condition op operand) := by
  unfold condition
  split
  · exact onlyFails_ok _
  · exact onlyFails_ok _
  · exact c.onlyFails_documentCondition op _
  · split
    · exact onlyFails_ok _
    · exact c.onlyFails_compareWith op _
  · exact c.onlyFails_compareWith op _

theorem onlyFails_pathCondition (path : List String) (op : Operator) (operand : Operand) :
    FailsOnOperand (c.pathCondition path op operand) := by
  unfold pathCondition
  dsimp only
  split
  case h_3 | h_4 | h_5 | h_6 => exact (onlyFails_toDouble _).map _
  case h_14 => exact onlyFails_error rfl
  all_goals exact onlyFails_ok _

theorem onlyFails_searchCondition? (term : String) :
    FailsOnOperand (c.searchCondition? term) := by
  have hinteger : FailsOnOperand (searchedInteger? term) := by
    unfold searchedInteger?
    split
    · split
      · exact onlyFails_ok _
      · exact onlyFails_error rfl
    · exact onlyFails_ok _
  unfold searchCondition?
  split
  · exact onlyFails_ok _
  split
  · exact hinteger.bind fun _ => onlyFails_ok _
  split <;> exact onlyFails_ok _

end Column

namespace Entity

variable (e : Entity)

theorem onlyFails_condition? (f : Filter) : FailsOnOperand (e.condition? f) := by
  unfold condition?
  split
  · exact (Column.onlyFails_pathCondition _ _ _ _).map _
  · split
    · exact (Column.onlyFails_condition _ _ _).map _
    · exact onlyFails_ok _

theorem onlyFails_searchConditions (term : String) : FailsOnOperand (e.searchConditions term) :=
  (onlyFails_mapM fun c _ => c.onlyFails_searchCondition? term).map _

end Entity

-- ---------------------------------------------------------------------------
-- Cursors
-- ---------------------------------------------------------------------------

namespace Keyset

variable (e : Entity)

theorem onlyFails_branches (values : Entries Value) (before keys : List SortKey) :
    FailsOnOperand (branches e values before keys) := by
  induction keys generalizing before with
  | nil => exact onlyFails_ok _
  | cons key keys ih =>
    have hafter : ∀ v, FailsOnOperand (after e key v) := fun v =>
      (Column.onlyFails_ordered _ _ v).bind fun _ => onlyFails_ok _
    rw [branches]
    split
    · exact (onlyFails_ok _).bind fun _ => (ih _).bind fun _ => onlyFails_ok _
    · refine (hafter _).bind fun _ => (onlyFails_ok _).bind fun _ => ?_
      exact (ih _).bind fun _ => onlyFails_ok _

theorem onlyFails_ofCursor? (keys : List SortKey) (token : Value) :
    FailsOnOperand (ofCursor? e keys token) := by
  refine OnlyFails.bind ?_ fun decoded => ?_
  · unfold Cursor.ofValue?
    split
    · exact onlyFails_ok _
    split
    case h_1 s hvoid =>
      intro fail hfail
      by_contra hother
      have hdeep : Cursor.decode? s ≠ .error .tooDeep := by
        intro hdeep
        rw [hdeep] at hfail
        exact hother (Except.error.inj hfail ▸ rfl)
      obtain ⟨r, hr⟩ := Cursor.exists_decode? hdeep
      rw [hr] at hfail
      cases hfail
    case h_2 => exact onlyFails_error rfl
  · split
    · exact onlyFails_ok _
    · obtain ⟨r, hr⟩ := exists_ofDecoded? e keys (_ : Entries Value)
      rw [hr]
      exact onlyFails_ok _

end Keyset

-- ---------------------------------------------------------------------------
-- Queries
-- ---------------------------------------------------------------------------

namespace Query

variable (q : Query)

/-- The conditions of a query fail over an operand, if they fail. -/
theorem onlyFails_conditions : FailsOnOperand q.conditions := by
  have hfilters : FailsOnOperand (q.filterConditions q.filters) :=
    (onlyFails_mapM fun f _ => (q.entity.onlyFails_condition? f).map _).map _
  have hsearch : FailsOnOperand q.searchConditions := by
    unfold searchConditions
    split
    · exact onlyFails_ok _
    split
    · exact onlyFails_ok _
    · exact (q.entity.onlyFails_searchConditions _).map _
  exact hfilters.bind fun _ => hsearch.bind fun _ => onlyFails_ok _

/-- So does the condition of a cursor. -/
theorem onlyFails_cursorConditions (keys : List SortKey) (token : Value) :
    FailsOnOperand (q.cursorConditions keys token) := by
  unfold cursorConditions
  split
  · exact onlyFails_ok _
  refine (Keyset.onlyFails_ofCursor? q.entity keys token).bind fun values => ?_
  split
  · exact onlyFails_ok _
  · exact ((Keyset.onlyFails_branches q.entity _ [] keys).map _).bind fun _ => onlyFails_ok _

end Query

end ListQuery
