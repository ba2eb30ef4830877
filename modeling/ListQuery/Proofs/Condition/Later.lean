import ListQuery.Proofs.Execution.Progress
import ListQuery.Proofs.Query.Meaning

/-!
# The order that a cursor goes on in

A row is later than some key values if it comes after them by a key and agrees with them by all keys
before it; by one key, what has no value comes after everything, in either direction. That is the
order of the rows of a cursor page, and in three-valued logic the condition after the key values is
true of just the rows that are later: wherever the primary key stands among the keys, whichever of
the other values are missing, and however often and in whichever directions a field comes again.

* `Judge.Follows` — comparisons by the order in which an engine sorts;
* `IsLater` — the order of the rows by a list of keys;
* `sceneLe_eq_false_iff` — the order of a cursor page is this one;
* `isStrict_of_ordered` — it is strict, up to rows that agree by every key;
* `predicate_isLater` — the condition after key values is true of the later rows.
-/

namespace ListQuery

open Sql

/-- A comparison of two values that stand in an order. -/
def Sql.Comparison.byOrder (le : Value → Value → Bool) : Comparison → Value → Value → Bool
  | .eq, v, w => le v w && le w v
  | .ne, v, w => !(le v w && le w v)
  | .gt, v, w => !le v w
  | .ge, v, w => le w v
  | .lt, v, w => !le w v
  | .le, v, w => le v w

/-- Comparisons of the values of a column by the total order in which the engine sorts them. A
comparison with a missing value is unknown. -/
structure Sql.Judge.Follows (j : Judge) (g : Engine) (c : Column) (held : Value → Prop) : Prop where
  ordered : IsTotalOn (g.le c) held
  compare : ∀ (op : Comparison) {v w : Value}, held v → held w →
    j (.compare (.column c) op (c.bind w)) v = .ofBool (op.byOrder (g.le c) v w)
  missing : ∀ (op : Comparison) (w : Value),
    j (.compare (.column c) op (c.bind w)) .null = .unknown

/-- The engine that goes by the judge compares as it sorts. -/
theorem Sql.Judge.Follows.on {j : Judge} {g : Engine} {c : Column} {held : Value → Prop}
    (h : j.Follows g c held) : (g.judging j).FollowsOn c held := by
  have hmeets (op : Comparison) {v w : Value} (hv : held v) (hw : held w) :
      (g.judging j).meets (.compare (.column c) op (c.bind w)) v = op.byOrder (g.le c) v w := by
    show (j _ v == Truth.holds) = _
    rw [h.compare op hv hw]
    cases op.byOrder (g.le c) v w <;> rfl
  refine ⟨hmeets .eq, hmeets .lt, hmeets .gt, fun op w _ => ?_⟩
  show (j _ .null == Truth.holds) = false
  rw [h.missing]
  rfl

namespace Keyset

-- ---------------------------------------------------------------------------
-- The order of the rows
-- ---------------------------------------------------------------------------

/-- A value comes after another one in a direction, and a missing value after any. -/
def ComesAfter (le : Value → Value → Bool) (d : Direction) (v w : Value) : Prop :=
  w.isNull = false ∧
    (v.isNull = true ∨ (if d = .descending then le w v else le v w) = false)

/-- Two values at the same place of the order, or two missing ones. -/
def AgreeBy (le : Value → Value → Bool) (v w : Value) : Prop :=
  v.isNull = w.isNull ∧ (v.isNull = false → le v w = true ∧ le w v = true)

/-- A row is later than another one: it comes after it by the first key by which they do not
agree. The values of each column stand in the order `le`. -/
def IsLater (le : Column → Value → Value → Bool) (e : Entity) : List SortKey → Scene → Scene → Prop
  | [],          _, _ => False
  | key :: keys, s, y =>
    let c := e.columnNamed key.field
    ComesAfter (le c) key.direction (s.at c) (y.at c) ∨
      AgreeBy (le c) (s.at c) (y.at c) ∧ IsLater le e keys s y

/-- A row with the values of a cursor. -/
def rowOf (values : Entries Value) : Scene := fun _ name => (values.get? name).getD .null

section
variable {g : Engine} {e : Entity} {key : SortKey} {keys : List SortKey} {v w : Value} {s y : Scene}

/-- The order by one key is strict where one value comes after the other. Only the primary key does
not put missing values last, and it has none. -/
theorem keyLe_eq_false_iff
    (hgiven : key.field = e.primaryKey → v.isNull = false ∧ w.isNull = false) :
    g.keyLe (orderKey e key) v w = false ↔
      ComesAfter (g.le (e.columnNamed key.field)) key.direction v w := by
  unfold ComesAfter
  cases hv : v.isNull with
  | true =>
    cases hw : w.isNull with
    | true =>
      rw [Engine.keyLe_null_null hv hw]
      simp
    | false =>
      have hlast : (orderKey e key).nullsLast = true := by
        rw [orderKey]
        refine bne_iff_ne.mpr fun hpk => ?_
        rw [(hgiven hpk).1] at hv
        cases hv
      rw [Engine.keyLe_null_value hv hw, hlast]
      simp
  | false =>
    cases hw : w.isNull with
    | true =>
      have hlast : (orderKey e key).nullsLast = true := by
        rw [orderKey]
        refine bne_iff_ne.mpr fun hpk => ?_
        rw [(hgiven hpk).2] at hw
        cases hw
      rw [Engine.keyLe_value_null hv hw, hlast]
      simp
    | false =>
      rw [Engine.keyLe_values hv hw, orderKey]
      cases key.direction <;> simp

/-- Rows that may stand on either side of each other by a key agree by it. -/
theorem keyLe_both_iff :
    (g.keyLe (orderKey e key) v w = true ∧ g.keyLe (orderKey e key) w v = true) ↔
      AgreeBy (g.le (e.columnNamed key.field)) v w := by
  unfold AgreeBy
  cases hv : v.isNull with
  | true =>
    cases hw : w.isNull with
    | true =>
      rw [Engine.keyLe_null_null hv hw, Engine.keyLe_null_null hw hv]
      simp
    | false =>
      rw [Engine.keyLe_null_value hv hw, Engine.keyLe_value_null hw hv]
      simp
  | false =>
    cases hw : w.isNull with
    | true =>
      rw [Engine.keyLe_value_null hv hw, Engine.keyLe_null_value hw hv]
      cases !(orderKey e key).nullsLast && g.nullsFirst (orderKey e key).direction <;> simp
    | false =>
      rw [Engine.keyLe_values hv hw, Engine.keyLe_values hw hv, orderKey]
      cases key.direction <;> simp [and_comm]

/-- In the order of a cursor page the later rows are those that cannot stand before. -/
theorem sceneLe_eq_false_iff (hs : (s.at (e.columnNamed e.primaryKey)).isNull = false)
    (hy : (y.at (e.columnNamed e.primaryKey)).isNull = false) :
    g.sceneLe (keys.map (orderKey e)) s y = false ↔ IsLater g.le e keys s y := by
  induction keys with
  | nil => exact iff_of_false Bool.true_eq_false.mp id
  | cons key keys ih =>
    have hgiven : key.field = e.primaryKey → (s.at (e.columnNamed key.field)).isNull = false ∧
        (y.at (e.columnNamed key.field)).isNull = false := fun hpk => by rw [hpk]; exact ⟨hs, hy⟩
    rw [sceneLe_orderKeys_cons, IsLater, ← keyLe_eq_false_iff hgiven, ← keyLe_both_iff, ← ih]
    -- by this key the order is strict one way or the other, or the rows agree
    cases g.keyLe (orderKey e key) (s.at (e.columnNamed key.field))
      (y.at (e.columnNamed key.field)) <;>
    cases g.keyLe (orderKey e key) (y.at (e.columnNamed key.field))
      (s.at (e.columnNamed key.field)) <;> simp

/-- The later rows are those of a strict order of the rows, in which only rows that agree by every
key stand at one place. -/
structure IsStrict (le : Column → Value → Value → Bool) (e : Entity) (keys : List SortKey)
    (held : String → Value → Prop) : Prop where
  irrefl : ∀ {s}, IsKeyedBy e keys held s → ¬IsLater le e keys s s
  trans  : ∀ {s y z}, IsKeyedBy e keys held s → IsKeyedBy e keys held y →
    IsKeyedBy e keys held z → IsLater le e keys s y → IsLater le e keys y z → IsLater le e keys s z
  agree  : ∀ {s y}, IsKeyedBy e keys held s → IsKeyedBy e keys held y →
    ¬IsLater le e keys s y → ¬IsLater le e keys y s →
      ∀ key ∈ keys, AgreeBy (le (e.columnNamed key.field)) (s.at (e.columnNamed key.field))
        (y.at (e.columnNamed key.field))

theorem isStrict_of_ordered {held : String → Value → Prop}
    (h : ∀ key ∈ keys, IsTotalOn (g.le (e.columnNamed key.field)) (held key.field)) :
    IsStrict g.le e keys held := by
  have htotal := isTotalOn_sceneLe h
  refine ⟨fun hs hlater => ?_, fun hs hy hz hsy hyz => ?_, fun hs hy hsy hys key hkey => ?_⟩
  · rw [← sceneLe_eq_false_iff hs.given hs.given, htotal.refl hs] at hlater
    cases hlater
  · rw [← sceneLe_eq_false_iff hs.given hy.given] at hsy
    rw [← sceneLe_eq_false_iff hy.given hz.given] at hyz
    rw [← sceneLe_eq_false_iff hs.given hz.given]
    exact htotal.not_le_of_le_of_lt hz hy hs (htotal.le_of_not_le hy hz hyz) hsy
  · rw [← sceneLe_eq_false_iff hs.given hy.given, Bool.not_eq_false] at hsy
    rw [← sceneLe_eq_false_iff hy.given hs.given, Bool.not_eq_false] at hys
    exact keyLe_both_iff.mp
      (Engine.keyLe_of_sceneLe hsy hys _ (List.mem_map_of_mem (f := orderKey e) hkey))

end

section
variable (le : Column → Value → Value → Bool) (e : Entity)

instance (le : Value → Value → Bool) (d : Direction) (v w : Value) :
    Decidable (ComesAfter le d v w) := inferInstanceAs (Decidable (_ ∧ _))

instance (le : Value → Value → Bool) (v w : Value) : Decidable (AgreeBy le v w) :=
  inferInstanceAs (Decidable (_ ∧ _))

instance decidableIsLater : ∀ (keys : List SortKey) (s y : Scene),
    Decidable (IsLater le e keys s y)
  | [],          _, _ => inferInstanceAs (Decidable False)
  | _ :: keys,   s, y =>
    have := decidableIsLater keys s y
    inferInstanceAs (Decidable (_ ∨ _ ∧ _))

end

-- ---------------------------------------------------------------------------
-- The condition
-- ---------------------------------------------------------------------------

section
variable {e : Entity} {values : Entries Value} {keys : List SortKey}

/-- A key with a value has a condition of its own. -/
theorem branchesOf_ne_nil {key : SortKey} (hkey : key ∈ keys)
    (hgiven : (valueOf values key).isNull = false) (before : List SortKey) :
    branchesOf e values before keys ≠ [] := by
  induction keys generalizing before with
  | nil => exact absurd hkey List.not_mem_nil
  | cons k keys ih =>
    rw [branchesOf]
    rcases List.mem_cons.mp hkey with rfl | hkey
    · rw [hgiven]
      exact List.cons_ne_nil _ _
    · exact fun h => ih hkey _ (List.append_eq_nil_iff.mp h).2

theorem isOrdered_valueOf {held : String → Value → Prop} (hy : IsKeyedBy e keys held (rowOf values))
    (hbool : ∀ key ∈ keys, ∀ b, valueOf values key ≠ .bool b) :
    IsKeyedBy e keys (fun field v => held field v ∧ IsOrdered v) (rowOf values) where
  held key hkey := by
    cases hn : ((rowOf values).at (e.columnNamed key.field)).isNull with
    | true => exact .inl rfl
    | false =>
      refine .inr ⟨(hy.held key hkey).resolve_left (by rw [hn]; exact Bool.false_ne_true),
        isOrdered_iff.mpr ⟨fun hnull => ?_, hbool key hkey⟩⟩
      rw [hnull] at hn
      cases hn
  given := hy.given

/-- The condition after key values without a truth value is there, with at least one branch, and it
is true of just the rows that are later. This is a strict order, and the order of a cursor page with
the keys. -/
theorem predicate_isLater {j : Judge} {g : Engine} {held : String → Value → Prop}
    (hj : ∀ key ∈ keys, j.Follows g (e.columnNamed key.field) (held key.field))
    (hpk : e.primaryKey ∈ keys.map (·.field)) (hvalues : IsKeyedBy e keys held (rowOf values))
    (hbool : ∀ key ∈ keys, ∀ b, valueOf values key ≠ .bool b) :
    (∃ bs, branches e values [] keys = .ok bs ∧ bs ≠ [] ∧
      predicate e keys values = .ok (.disj bs) ∧
      ∀ s, IsKeyedBy e keys held s →
        (truth j s (.disj bs) = .holds ↔ IsLater g.le e keys s (rowOf values))) ∧
    IsStrict g.le e keys held ∧
    ∀ (q : Query) (schema : Schema) (c : Compiled), q.entity = e → q.keysFor true = keys →
      q.compile schema true = .ok c → ∀ s y, IsKeyedBy e keys held s → IsKeyedBy e keys held y →
        (g.sceneLe c.select.order s y = false ↔ IsLater g.le e keys s y) := by
  have hordered := isOrdered_valueOf hvalues hbool
  have hok : ∀ key ∈ keys, valueOf values key ≠ .null → IsOrdered (valueOf values key) :=
    fun key hkey hne => isOrdered_iff.mpr ⟨hne, hbool key hkey⟩
  obtain ⟨key, hkey, hfield⟩ := List.mem_map.mp hpk
  have hgiven : (valueOf values key).isNull = false := by
    rw [valueOf, hfield]
    exact hvalues.given
  refine ⟨⟨_, branches_eq_ok hok, branchesOf_ne_nil hkey hgiven [], predicate_eq_ok hok,
    fun s hs => ?_⟩, isStrict_of_ordered fun key hkey => (hj key hkey).ordered, ?_⟩
  · rw [← accepts_judging (g := g), accepts_branchesOf (fun key hkey => (hj key hkey).on) hs hordered
      fun _ _ => rfl, Bool.not_eq_true']
    exact sceneLe_eq_false_iff hs.given hvalues.given
  · rintro q schema c rfl rfl hc s y hs hy
    cases hp : q.effectivePage with
    | offset number n =>
      rw [Query.keysFor_numbered hp] at hkey
      exact absurd hkey List.not_mem_nil
    | cursor token n =>
      obtain ⟨tables, conditions, after, warnings, -, -, -, rfl⟩ :=
        (Query.compile_cursor_eq_ok hp).mp hc
      have horder : (q.compiledCursor schema tables conditions after warnings n).select.order =
          (q.keysFor true).map (orderKey q.entity) := by
        rw [Query.keysFor_cursor hp, ← q.orderBy_keys Query.keys_ne_nil]
        show (Query.cursorCut _ after n).order = _
        rw [Query.cursorCut, Query.foldl_restrict]
        rfl
      rw [horder]
      exact sceneLe_eq_false_iff hs.given hy.given

end

end Keyset

-- ---------------------------------------------------------------------------
-- Ranked items
-- ---------------------------------------------------------------------------

/-- Integers. -/
def Value.IsInteger (v : Value) : Prop := ∃ n, v = .int n

theorem Sql.Judge.follows_plain (c : Column) : Judge.plain.Follows .integers c Value.IsInteger where
  ordered := by
    refine ⟨?_, ?_⟩
    · rintro _ _ ⟨n, rfl⟩ ⟨m, rfl⟩
      simp only [Engine.integers, decide_eq_true_eq]
      omega
    · rintro _ _ _ ⟨n, rfl⟩ ⟨m, rfl⟩ ⟨k, rfl⟩ hnm hmk
      simp only [Engine.integers, decide_eq_true_eq] at hnm hmk ⊢
      omega
  compare := by
    rintro op _ _ ⟨n, rfl⟩ ⟨m, rfl⟩
    have hplain : Judge.plain (.compare (.column c) op (c.bind (.int m))) (.int n) =
        .ofBool (op.ofIntegers n m) := by
      cases op <;> rfl
    rw [hplain]
    cases op <;>
      simp only [Comparison.ofIntegers, Comparison.byOrder, Engine.integers, ← Bool.decide_and,
        ← decide_not] <;>
      exact congrArg Truth.ofBool (decide_eq_decide.mpr (by omega))
  missing op w := by
    cases op <;> cases w <;> rfl

/-- Items by rank from the highest, then by key, and then by rank again from the lowest. -/
def Query.reranked : Query :=
  { entity := .ranked,
    sorts := [⟨"rank", .descending⟩, ⟨"id", .ascending⟩, ⟨"rank", .ascending⟩] }

/-- An item without a rank is later than one of rank 3, as is one of a lower rank, and one of the
same rank with a higher key; one of a higher rank is not. -/
theorem Keyset.predicate_isLater_reranked :
    ∃ p c, predicate .ranked (Query.reranked.keysFor true) [("rank", .int 3), ("id", .int 7)] = .ok p ∧
      Query.reranked.compile [] true = .ok c ∧
      truth .plain (.single "items" (.ranked (9, none))) p = .holds ∧
      truth .plain (.single "items" (.ranked (1, some 2))) p = .holds ∧
      truth .plain (.single "items" (.ranked (8, some 3))) p = .holds ∧
      truth .plain (.single "items" (.ranked (7, some 3))) p ≠ .holds ∧
      truth .plain (.single "items" (.ranked (8, some 4))) p ≠ .holds ∧
      Engine.integers.sceneLe c.select.order (.single "items" (.ranked (9, none)))
        (.single "items" (.ranked (1, some 2))) = false := by
  have hkeys : Query.reranked.keysFor true =
      [⟨"rank", .descending⟩, ⟨"id", .ascending⟩, ⟨"rank", .ascending⟩] := rfl
  have hkeyed (item : Int × Option Int) : IsKeyedBy .ranked (Query.reranked.keysFor true)
      (fun _ => Value.IsInteger) (.single "items" (.ranked item)) := by
    refine ⟨?_, rfl⟩
    rw [hkeys]
    obtain ⟨id, rank⟩ := item
    have hid : Value.IsInteger (.int id) := ⟨id, rfl⟩
    cases rank with
    | none =>
      exact List.forall_mem_cons.mpr ⟨.inl rfl, List.forall_mem_cons.mpr ⟨.inr hid,
        List.forall_mem_singleton.mpr (.inl rfl)⟩⟩
    | some n =>
      exact List.forall_mem_cons.mpr ⟨.inr ⟨n, rfl⟩, List.forall_mem_cons.mpr ⟨.inr hid,
        List.forall_mem_singleton.mpr (.inr ⟨n, rfl⟩)⟩⟩
  have hvalues : IsKeyedBy .ranked (Query.reranked.keysFor true) (fun _ => Value.IsInteger)
      (rowOf [("rank", .int 3), ("id", .int 7)]) := by
    refine ⟨?_, rfl⟩
    rw [hkeys]
    exact List.forall_mem_cons.mpr ⟨.inr ⟨3, rfl⟩, List.forall_mem_cons.mpr ⟨.inr ⟨7, rfl⟩,
      List.forall_mem_singleton.mpr (.inr ⟨3, rfl⟩)⟩⟩
  have hbool : ∀ key ∈ Query.reranked.keysFor true, ∀ b,
      valueOf [("rank", .int 3), ("id", .int 7)] key ≠ .bool b := by
    intro key hkey b hb
    rcases hvalues.held key hkey with h | ⟨n, h⟩
    · exact Bool.false_ne_true ((congrArg Value.isNull hb).symm.trans h)
    · exact Value.noConfusion (hb.symm.trans h)
  obtain ⟨⟨bs, -, -, hpredicate, hlater⟩, -, horder⟩ :=
    predicate_isLater (fun key _ => Judge.follows_plain _) (by rw [hkeys]; decide) hvalues hbool
  obtain ⟨c, hc⟩ : ∃ c, Query.reranked.compile [] true = .ok c := ⟨_, rfl⟩
  refine ⟨.disj bs, c, hpredicate, hc, (hlater _ (hkeyed _)).mpr ?_, (hlater _ (hkeyed _)).mpr ?_,
    (hlater _ (hkeyed _)).mpr ?_, fun h => ?_, fun h => ?_,
    (horder _ _ _ rfl rfl hc _ _ (hkeyed _) (hkeyed _)).mpr ?_⟩
  · decide
  · decide
  · decide
  · exact absurd ((hlater _ (hkeyed _)).mp h) (by decide)
  · exact absurd ((hlater _ (hkeyed _)).mp h) (by decide)
  · decide

end ListQuery
