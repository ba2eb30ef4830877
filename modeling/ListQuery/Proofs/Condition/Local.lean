import ListQuery.Compiled
import ListQuery.Proofs.Failure
import ListQuery.Proofs.Schema.Entity
import ListQuery.Proofs.Sql.Subjects

/-!
# Conditions on an entity's own columns

Every condition that a filter, the scope or a search places is on columns of the entity, and one of a
cursor on columns of its keys; none says anything of the tables that are joined.

* `Entity.tests_condition`, `Entity.tests_searchConditions`, `Query.tests_scopeConditions`;
* `Keyset.tests_predicate`, `Query.tests_cursorConditions` — the conditions of a cursor.
-/

namespace ListQuery

open Sql Predicate Calendar

namespace Column

variable {c : Column}

theorem tests_equals (negated : Bool) (v : Value) : (c.equals negated v).Tests (· = c) := by
  unfold equals
  split <;> exact tests_of_subject rfl rfl

theorem tests_moment (op : Comparison) (t : Timestamp) : (c.moment op t).Tests (· = c) :=
  tests_of_subject rfl rfl

theorem tests_ordered (op : Comparison) (v : Value) : Ensures (Tests (· = c)) (c.ordered op v) := by
  unfold ordered
  split
  · exact ensures_error _
  · exact ensures_error _
  · exact ensures_ok (tests_of_subject rfl rfl)

theorem tests_equalsDay (v : Value) : Ensures (Tests (· = c)) (c.equalsDay v) := by
  refine ensures_bind fun day => ?_
  split
  · refine ensures_ok (tests_conj.mpr ?_)
    simp only [List.forall_mem_cons]
    exact ⟨tests_moment _ _, tests_moment _ _, List.forall_mem_nil _⟩
  · exact ensures_ok (tests_equals _ _)

theorem tests_differsFromDay (v : Value) : Ensures (Tests (· = c)) (c.differsFromDay v) := by
  refine ensures_bind fun day => ?_
  split
  · refine ensures_ok (tests_disj.mpr ?_)
    simp only [List.forall_mem_cons]
    exact ⟨tests_moment _ _, tests_moment _ _, List.forall_mem_nil _⟩
  · exact ensures_ok (tests_equals _ _)

theorem tests_above (v : Value) : Ensures (Tests (· = c)) (c.above v) := by
  refine ensures_bind fun day => ?_
  split
  · exact ensures_ok (tests_moment _ _)
  · exact tests_ordered _ _

theorem tests_upTo (v : Value) : Ensures (Tests (· = c)) (c.upTo v) := by
  refine ensures_bind fun day => ?_
  split
  · exact ensures_ok (tests_moment _ _)
  · exact tests_ordered _ _

theorem tests_likePattern (caseless negated : Bool) (v : Value) :
    Ensures (Tests (· = c)) (c.likePattern caseless negated v) := by
  unfold likePattern
  split
  · exact ensures_error _
  · exact ensures_error _
  · exact ensures_ok (tests_of_subject rfl rfl)

theorem tests_oneOf (negated : Bool) (vs : List Value) : (c.oneOf negated vs).Tests (· = c) := by
  unfold oneOf
  split
  · exact tests_constant negated
  · exact tests_of_subject rfl rfl

theorem tests_compareWith (op : Operator) (v : Value) :
    Ensures (Tests (· = c)) (c.compareWith op v) := by
  unfold compareWith
  split
  case h_1 => exact tests_equalsDay v
  case h_2 => exact tests_differsFromDay v
  case h_3 => exact tests_above v
  case h_4 | h_5 => exact tests_ordered _ v
  case h_6 => exact tests_upTo v
  case h_7 | h_8 | h_9 | h_10 => exact tests_likePattern _ _ v
  all_goals exact ensures_ok (tests_of_subject rfl rfl)

theorem tests_within (negated : Bool) (operand : Operand) :
    (c.within negated operand).Tests (· = c) := by
  unfold within
  split <;> exact tests_of_subject rfl rfl

theorem tests_testDocument (test : DocumentTest) (v : Bind) :
    Ensures (Tests (· = c)) (c.testDocument test v) := by
  unfold testDocument
  split
  · exact ensures_ok (tests_of_subject rfl rfl)
  · exact ensures_error _

theorem tests_documentCondition (op : Operator) (operand : Operand) :
    Ensures (Tests (· = c)) (c.documentCondition op operand) := by
  unfold documentCondition
  split
  case h_1 | h_2 | h_3 => exact tests_testDocument _ _
  case h_4 => exact ensures_bind fun _ => tests_testDocument _ _
  case h_5 =>
    refine ensures_bind fun _ => ?_
    split <;> exact ensures_ok (tests_of_subject rfl rfl)

theorem tests_condition (op : Operator) (operand : Operand) :
    Ensures (Tests (· = c)) (c.condition op operand) := by
  unfold condition
  split
  · exact ensures_ok (tests_oneOf _ _)
  · exact ensures_ok (tests_oneOf _ _)
  · exact tests_documentCondition op _
  · split
    · exact ensures_ok (tests_within _ _)
    · exact tests_compareWith op _
  · exact tests_compareWith op _

theorem tests_pathCondition (path : List String) (op : Operator) (operand : Operand) :
    Ensures (Tests (· = c)) (c.pathCondition path op operand) := by
  have hnumber : ∀ op v, Ensures (Tests (· = c)) (c.pathNumber path op v) := fun op v =>
    ensures_map fun d => tests_of_subject rfl rfl
  unfold pathCondition
  dsimp only
  split
  case h_3 | h_4 | h_5 | h_6 => exact hnumber _ _
  case h_14 => exact ensures_error _
  all_goals exact ensures_ok (tests_of_subject rfl rfl)

theorem tests_searchCondition (term : String) :
    Ensures (fun found => ∀ p ∈ found, p.Tests (· = c)) (c.searchCondition? term) := by
  have hfound : ∀ (α : Type) (f : α → Predicate) (found : Option α),
      (∀ a, (f a).Tests (· = c)) → ∀ p ∈ found.map f, p.Tests (· = c) := by
    intro α f found h p hp
    obtain ⟨a, -, rfl⟩ := Option.map_eq_some_iff.mp hp
    exact h a
  have haffix : ∀ e : Expr, e.subject = c →
      ∀ p ∈ some (affix e .anywhere term), p.Tests (· = c) := by
    intro e he p hp
    exact Option.mem_some.mp hp ▸ tests_of_subject (congrArg some he) rfl
  unfold searchCondition?
  split
  · exact ensures_ok (haffix _ rfl)
  split
  · exact ensures_bind fun n => ensures_ok (hfound _ _ n fun _ => tests_equals _ _)
  split
  · exact ensures_ok (hfound _ _ _ fun _ => tests_equals _ _)
  · exact ensures_ok (haffix _ rfl)

end Column

namespace Entity

variable {e : Entity} {name : String} {c : Column}

theorem columnNamed_mem_columns (h : name ∈ e.columnNames) : e.columnNamed name ∈ e.columns :=
  List.mem_map_of_mem h

theorem table_of_mem_columns (h : c ∈ e.columns) : c.table = e.table := by
  obtain ⟨name, -, rfl⟩ := List.mem_map.mp h
  rfl

theorem mem_columns_of_column? (h : e.column? name = some c) : c ∈ e.columns := by
  unfold column? at h
  split at h
  case isTrue hname =>
    exact Option.some.inj h ▸ columnNamed_mem_columns (List.contains_iff_mem.mp hname)
  case isFalse => cases h

theorem mem_columns_of_jsonPath? {field path : String} (h : e.jsonPath? field = some (c, path)) :
    c ∈ e.columns := by
  unfold jsonPath? at h
  split at h
  case h_2 => cases h
  case h_1 =>
    split at h
    case h_2 => cases h
    case h_1 c' hc =>
      split at h
      case isFalse => cases h
      case isTrue =>
        cases h
        exact mem_columns_of_column? hc

/-- Conditions on columns of the entity are on its table. -/
theorem isOn_of_tests {p : Predicate} (h : p.Tests (· ∈ e.columns)) : p.IsOn e.table :=
  (isOn_iff_tests p).mpr (h.imp fun _ => table_of_mem_columns)

/-- A filter tests columns of the entity. -/
theorem tests_condition {f : Filter} {p : Predicate} (h : e.condition? f = .ok (some p)) :
    p.Tests (· ∈ e.columns) := by
  have honly : ∀ {c : Column} {p : Predicate}, c ∈ e.columns → p.Tests (· = c) →
      p.Tests (· ∈ e.columns) := fun hc hp => hp.imp fun c' heq => heq ▸ hc
  unfold condition? at h
  split at h
  case h_1 c path hpath =>
    obtain ⟨p', hp', heq⟩ := map_eq_ok.mp h
    obtain rfl := Option.some.inj heq
    exact honly (mem_columns_of_jsonPath? hpath) (Column.tests_pathCondition _ _ _ p' hp')
  case h_2 =>
    split at h
    case h_1 c hc =>
      obtain ⟨p', hp', heq⟩ := map_eq_ok.mp h
      obtain rfl := Option.some.inj heq
      exact honly (mem_columns_of_column? hc) (Column.tests_condition _ _ p' hp')
    case h_2 => cases h

/-- A search tests columns of the entity. -/
theorem tests_searchConditions {term : String} {ps : List Predicate}
    (h : e.searchConditions term = .ok ps) : ∀ p ∈ ps, p.Tests (· ∈ e.columns) := by
  obtain ⟨found, hfound, rfl⟩ := map_eq_ok.mp h
  intro p hp
  obtain ⟨found?, hmem, rfl⟩ := List.mem_filterMap.mp hp
  obtain ⟨c, hc, hsearch⟩ := exists_of_mem_forall₂ (mapM_eq_ok.mp hfound) hmem
  obtain ⟨name, -, hname⟩ := List.mem_filterMap.mp hc
  exact (Column.tests_searchCondition term _ hsearch p rfl).imp fun c' heq =>
    heq ▸ mem_columns_of_column? hname

end Entity

/-- The scope tests the column of soft deletion. -/
theorem Query.tests_scopeConditions (q : Query) :
    ∀ p ∈ q.scopeConditions, p.Tests (· ∈ q.entity.columns) := by
  unfold scopeConditions
  split
  case h_1 => exact List.forall_mem_nil _
  case h_2 column hcolumn =>
    dsimp only
    split
    case isTrue => exact List.forall_mem_nil _
    case isFalse hempty =>
      have hnull : ∀ negated : Bool, (isNull (.column (q.entity.columnNamed column)) negated).Tests
          (· ∈ q.entity.columns) := fun negated =>
        tests_of_subject rfl (Entity.columnNamed_mem_columns
          (q.entity.declares.softDelete column hcolumn hempty))
      split
      · exact List.forall_mem_singleton.mpr (hnull _)
      · exact List.forall_mem_singleton.mpr (hnull _)
      · exact List.forall_mem_nil _

-- ---------------------------------------------------------------------------
-- The condition of a cursor
-- ---------------------------------------------------------------------------

namespace Keyset

variable {e : Entity} {values : Entries Value}

/-- The column is that of one of the keys. -/
def IsKeyColumn (e : Entity) (keys : List SortKey) (c : Column) : Prop :=
  ∃ key ∈ keys, c = e.columnNamed key.field

theorem tests_after (key : SortKey) (v : Value) :
    Ensures (Tests (· = e.columnNamed key.field)) (after e key v) := by
  refine (Column.tests_ordered _ v).bind fun strictly hstrictly => ensures_ok ?_
  split
  · exact hstrictly
  · refine tests_disj.mpr (List.forall_mem_cons.mpr ⟨hstrictly, List.forall_mem_singleton.mpr ?_⟩)
    exact tests_of_subject rfl rfl

theorem tests_branches (before keys : List SortKey) :
    Ensures (fun ps => ∀ p ∈ ps, p.Tests (IsKeyColumn e (before ++ keys)))
      (branches e values before keys) := by
  intro ps hps
  induction keys generalizing before ps with
  | nil =>
    obtain rfl := Except.ok.inj hps
    exact List.forall_mem_nil _
  | cons key keys ih =>
    have hsame : before ++ [key] ++ keys = before ++ key :: keys := List.append_cons .. |>.symm
    rw [branches] at hps
    split at hps
    · obtain ⟨here, hhere, hps⟩ := bind_eq_ok.mp hps
      obtain ⟨rest, hrest, hps⟩ := bind_eq_ok.mp hps
      obtain rfl := Except.ok.inj hhere
      obtain rfl := Except.ok.inj hps
      exact hsame ▸ ih _ _ hrest
    · obtain ⟨p, hp, hps⟩ := bind_eq_ok.mp hps
      obtain ⟨here, hhere, hps⟩ := bind_eq_ok.mp hps
      obtain ⟨rest, hrest, hps⟩ := bind_eq_ok.mp hps
      obtain rfl := Except.ok.inj hhere
      obtain rfl := Except.ok.inj hps
      refine List.forall_mem_append.mpr ⟨List.forall_mem_singleton.mpr ?_, hsame ▸ ih _ _ hrest⟩
      refine tests_conj.mpr (List.forall_mem_append.mpr ⟨fun p' hp' => ?_, ?_⟩)
      · obtain ⟨key', hkey', rfl⟩ := List.mem_map.mp hp'
        exact (Column.tests_equals _ _).imp fun c hc => ⟨key', List.mem_append_left _ hkey', hc⟩
      · refine List.forall_mem_singleton.mpr ((tests_after key _ p hp).imp fun c hc => ?_)
        exact ⟨key, List.mem_append_right _ List.mem_cons_self, hc⟩

/-- The condition of the rows after a row tests the columns of the keys. -/
theorem tests_predicate (keys : List SortKey) :
    Ensures (Tests (IsKeyColumn e keys)) (predicate e keys values) := by
  intro p hp
  obtain ⟨ps, hps, rfl⟩ := map_eq_ok.mp hp
  exact tests_disj.mpr (tests_branches [] keys ps hps)

end Keyset

/-- A cursor tests the columns of the keys. -/
theorem Query.tests_cursorConditions {q : Query} {keys : List SortKey} {token : Value}
    {after : List Predicate} {warnings : List String}
    (h : q.cursorConditions keys token = .ok (after, warnings)) :
    ∀ p ∈ after, p.Tests (Keyset.IsKeyColumn q.entity keys) := by
  unfold cursorConditions at h
  split at h
  · obtain ⟨rfl, -⟩ := Prod.mk.inj (Except.ok.inj h)
    exact List.forall_mem_nil _
  · obtain ⟨values, -, h⟩ := bind_eq_ok.mp h
    cases values with
    | none =>
      obtain ⟨rfl, -⟩ := Prod.mk.inj (Except.ok.inj h)
      exact List.forall_mem_nil _
    | some values =>
      obtain ⟨p, hp, h⟩ := bind_eq_ok.mp h
      obtain ⟨rfl, -⟩ := Prod.mk.inj (Except.ok.inj h)
      exact List.forall_mem_singleton.mpr (Keyset.tests_predicate keys p hp)

end ListQuery
