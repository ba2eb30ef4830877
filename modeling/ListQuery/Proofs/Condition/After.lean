import ListQuery.Compiled
import ListQuery.Proofs.Condition.Keyset
import ListQuery.Proofs.Sql.Order

/-!
# What comes after a row

The condition after a row and the order of a cursor page are two readings of the same keys. On an
engine that compares the values of each key column as it orders them, the condition is true of just
the rows that come strictly after the row in the order: whatever the directions, however often a
field is repeated, wherever the primary key stands among the keys, and whichever keys are nothing.

* `Engine.Follows` — what is asked of the engine;
* `isTotalOn_recordLe` — the keys order the rows;
* `accepts_after` — the condition is true of the rows after the row.
-/

namespace ListQuery

open Sql

/-- Values of the column's own kind that have an order and that a cursor gives back as they are.
These are all values of the kind but for times of day, truth values, and timestamps whose offset is
not zero and yet less than a second, which no database keeps. -/
def ColumnType.Sorts (t : ColumnType) (v : Value) : Prop :=
  t.Holds v ∧ IsKept v ∧ Keyset.IsOrdered v

theorem ColumnType.sorts_of_holds {t : ColumnType} {v : Value} (h : t.Holds v)
    (hboolean : t ≠ .boolean) (htime : t ≠ .time)
    (hoffset : ∀ x, v = .timestamp x → x.IsSpellable) : t.Sorts v := by
  refine ⟨h, ?_, ?_⟩
  · cases v with
    | time x => exact absurd h htime
    | timestamp x => exact hoffset x rfl
    | _ => trivial
  · cases v with
    | bool b =>
      have hn : t.native? = some .boolean := h
      cases t <;> cases hn
      exact hboolean rfl
    | null => exact h
    | _ => trivial

theorem Value.eq_null_of_isNull {v : Value} (h : v.isNull = true) : v = .null := by
  cases v with
  | null => rfl
  | _ => cases h

theorem Keyset.IsOrdered.isNull {v : Value} (h : Keyset.IsOrdered v) : v.isNull = false := by
  cases v with
  | null => exact absurd h id
  | _ => rfl

theorem Keyset.IsOrdered.equals {c : Column} {v : Value} (h : Keyset.IsOrdered v) :
    c.equals false v = .compare (.column c) .eq (c.bind v) := by
  cases v with
  | null => exact absurd h id
  | bool b => exact absurd h id
  | _ => rfl

/-- An engine that compares the values of a column by the total order in which it sorts them, and
for which no comparison with nothing is true. -/
structure Sql.Engine.Follows (g : Engine) (c : Column) : Prop where
  ordered : IsTotalOn (g.le c) c.type.Sorts
  eq      : ∀ {v w : Value}, c.type.Sorts v → c.type.Sorts w →
    g.meets (.compare (.column c) .eq (c.bind w)) v = (g.le c v w && g.le c w v)
  lt      : ∀ {v w : Value}, c.type.Sorts v → c.type.Sorts w →
    g.meets (.compare (.column c) .lt (c.bind w)) v = !g.le c w v
  gt      : ∀ {v w : Value}, c.type.Sorts v → c.type.Sorts w →
    g.meets (.compare (.column c) .gt (c.bind w)) v = !g.le c v w
  unknown : ∀ (op : Comparison) {w : Value}, c.type.Sorts w →
    g.meets (.compare (.column c) op (c.bind w)) .null = false

/-- The same comparisons for the values that `held` describes. -/
structure Sql.Engine.FollowsOn (g : Engine) (c : Column) (held : Value → Prop) : Prop where
  eq      : ∀ {v w : Value}, held v → held w →
    g.meets (.compare (.column c) .eq (c.bind w)) v = (g.le c v w && g.le c w v)
  lt      : ∀ {v w : Value}, held v → held w →
    g.meets (.compare (.column c) .lt (c.bind w)) v = !g.le c w v
  gt      : ∀ {v w : Value}, held v → held w →
    g.meets (.compare (.column c) .gt (c.bind w)) v = !g.le c v w
  unknown : ∀ (op : Comparison) {w : Value}, held w →
    g.meets (.compare (.column c) op (c.bind w)) .null = false

theorem Sql.Engine.Follows.on {g : Engine} {c : Column} (h : g.Follows c) :
    g.FollowsOn c c.type.Sorts :=
  ⟨h.eq, h.lt, h.gt, h.unknown⟩

/-- A comparison of integers. -/
def Sql.Comparison.ofIntegers : Comparison → Int → Int → Bool
  | .eq, n, m => decide (n = m)
  | .ne, n, m => decide (n ≠ m)
  | .gt, n, m => decide (m < n)
  | .ge, n, m => decide (m ≤ n)
  | .lt, n, m => decide (n < m)
  | .le, n, m => decide (n ≤ m)

/-- An engine for integers, which also knows whether a value is among others. -/
def Sql.Engine.integers : Engine where
  meets p v :=
    match p, v with
    | .compare _ op ⟨.int m, _⟩, .int n => op.ofIntegers n m
    | .member _ false vs, v             => !v.isNull && vs.values.any v.same
    | _, _                              => false
  joins _ _ v w := !v.isNull && v.same w
  le _ v w :=
    match v, w with
    | .int n, .int m => decide (n ≤ m)
    | _, _           => true
  nullsFirst _ := true

theorem ColumnType.Sorts.exists_int {t : ColumnType} {v : Value} (ht : t.native? = some .integer)
    (hv : t.Sorts v) : ∃ n, v = .int n := by
  obtain ⟨hv, -⟩ := hv
  cases v with
  | int n => exact ⟨n, rfl⟩
  | bool b => cases ht.symm.trans hv
  | float d => cases ht.symm.trans hv
  | decimal d => cases ht.symm.trans hv.1
  | text s => cases t <;> cases ht <;> cases hv
  | date d =>
    obtain rfl : t = .date := hv
    cases ht
  | time x =>
    obtain rfl : t = .time := hv
    cases ht
  | timestamp x =>
    obtain ⟨zoned, rfl⟩ : ∃ zoned, t = .dateTime zoned := hv
    cases ht
  | null => exact absurd hv id
  | list vs => exact absurd hv id
  | map es => exact absurd hv id

/-- The engine for integers compares a column of integers as it orders it. -/
theorem Sql.Engine.follows_integers {c : Column} (hc : c.type.native? = some .integer) :
    integers.Follows c where
  ordered := by
    refine ⟨fun ha hb => ?_, fun ha hb hd hab hbd => ?_⟩
    · obtain ⟨n, rfl⟩ := ha.exists_int hc
      obtain ⟨m, rfl⟩ := hb.exists_int hc
      simp only [integers, decide_eq_true_eq]
      omega
    · obtain ⟨n, rfl⟩ := ha.exists_int hc
      obtain ⟨m, rfl⟩ := hb.exists_int hc
      obtain ⟨k, rfl⟩ := hd.exists_int hc
      simp only [integers, decide_eq_true_eq] at hab hbd ⊢
      omega
  eq hv hw := by
    obtain ⟨n, rfl⟩ := hv.exists_int hc
    obtain ⟨m, rfl⟩ := hw.exists_int hc
    show decide (n = m) = (decide (n ≤ m) && decide (m ≤ n))
    rw [← Bool.decide_and]
    exact decide_eq_decide.mpr (by omega)
  lt hv hw := by
    obtain ⟨n, rfl⟩ := hv.exists_int hc
    obtain ⟨m, rfl⟩ := hw.exists_int hc
    show decide (n < m) = !decide (m ≤ n)
    rw [← decide_not]
    exact decide_eq_decide.mpr (by omega)
  gt hv hw := by
    obtain ⟨n, rfl⟩ := hv.exists_int hc
    obtain ⟨m, rfl⟩ := hw.exists_int hc
    show decide (m < n) = !decide (n ≤ m)
    rw [← decide_not]
    exact decide_eq_decide.mpr (by omega)
  unknown := by
    intro op w hw
    obtain ⟨m, rfl⟩ := hw.exists_int hc
    rfl

namespace Keyset

variable {g : Engine} {e : Entity}

/-- A key in the order of a cursor page. -/
def orderKey (e : Entity) (key : SortKey) : OrderKey :=
  { column := e.columnNamed key.field, direction := key.direction,
    nullsLast := key.field != e.primaryKey }

/-- The order by the keys of a page, the first key apart. -/
theorem sceneLe_orderKeys_cons {key : SortKey} {keys : List SortKey} {s y : Scene} :
    g.sceneLe ((key :: keys).map (orderKey e)) s y =
      (g.keyLe (orderKey e key) (s.at (e.columnNamed key.field))
          (y.at (e.columnNamed key.field)) &&
        (!g.keyLe (orderKey e key) (y.at (e.columnNamed key.field))
            (s.at (e.columnNamed key.field)) ||
          g.sceneLe (keys.map (orderKey e)) s y)) :=
  rfl

/-- The order of a cursor page on the rows of the table. -/
def recordLe (g : Engine) (e : Entity) (keys : List SortKey) (a b : Record) : Bool :=
  g.sceneLe (keys.map (orderKey e)) (Scene.single e.table a) (Scene.single e.table b)

/-- What a table has to hold in the key columns: values that can be sorted by or nothing, and
something in the primary key. -/
structure IsKeyed (e : Entity) (keys : List SortKey) (r : Record) : Prop where
  sorts : ∀ key ∈ keys, (r key.field).isNull = true ∨ (e.typeOf key.field).Sorts (r key.field)
  given : (r e.primaryKey).isNull = false

/-- A row with nothing in the key columns or what `held` describes of each field, and with something
in the primary key. -/
structure IsKeyedBy (e : Entity) (keys : List SortKey) (held : String → Value → Prop)
    (s : Scene) : Prop where
  held  : ∀ key ∈ keys, (s.at (e.columnNamed key.field)).isNull = true ∨
    held key.field (s.at (e.columnNamed key.field))
  given : (s.at (e.columnNamed e.primaryKey)).isNull = false

theorem at_columnNamed (e : Entity) (r : Record) (field : String) :
    (Scene.single e.table r).at (e.columnNamed field) = r field := by
  show Scene.single e.table r e.table field = r field
  rw [Scene.single, Scene.put_self]

theorem IsKeyed.by {keys : List SortKey} {r : Record} (h : IsKeyed e keys r) :
    IsKeyedBy e keys (fun field => (e.typeOf field).Sorts) (.single e.table r) where
  held key hkey := by
    rw [at_columnNamed]
    exact h.sorts key hkey
  given := by
    rw [at_columnNamed]
    exact h.given

theorem IsKeyedBy.tail {key : SortKey} {keys : List SortKey} {held : String → Value → Prop}
    {s : Scene} (h : IsKeyedBy e (key :: keys) held s) : IsKeyedBy e keys held s :=
  ⟨fun k hk => h.held k (List.mem_cons_of_mem _ hk), h.given⟩

-- ---------------------------------------------------------------------------
-- One key
-- ---------------------------------------------------------------------------

section
variable {key : SortKey} {v w : Value} {held : Value → Prop}

/-- A comparison by which two values agree is that of their order. -/
theorem accepts_equals {s : Scene} (hf : g.FollowsOn (e.columnNamed key.field) held)
    (hv : (s.at (e.columnNamed key.field)).isNull = true ∨
      held (s.at (e.columnNamed key.field)))
    (hw : w.isNull = true ∨ held w ∧ IsOrdered w) :
    g.accepts s ((e.columnNamed key.field).equals false w) =
      (g.keyLe (orderKey e key) (s.at (e.columnNamed key.field)) w &&
        g.keyLe (orderKey e key) w (s.at (e.columnNamed key.field))) := by
  generalize hat : s.at (e.columnNamed key.field) = v at hv
  rcases hw with hwn | ⟨hw, hordered⟩
  · -- nothing is agreed with by nothing alone
    obtain rfl := Value.eq_null_of_isNull hwn
    have htest : g.accepts s ((e.columnNamed key.field).equals false .null) = v.isNull := by
      rw [← hat]
      show g.accepts s (.isNull (.column (e.columnNamed key.field)) false) = _
      rw [Engine.accepts, Bool.bne_false]
    rw [htest]
    cases hvn : v.isNull with
    | true => rw [Engine.keyLe_null_null hvn rfl, Engine.keyLe_null_null rfl hvn]; rfl
    | false =>
      rw [Engine.keyLe_value_null hvn rfl, Engine.keyLe_null_value rfl hvn, Bool.not_and_self]
  · have hwn : w.isNull = false := hordered.isNull
    have htest : g.accepts s ((e.columnNamed key.field).equals false w) =
        g.meets (.compare (.column (e.columnNamed key.field)) .eq ((e.columnNamed key.field).bind w))
          v := by
      rw [hordered.equals, ← hat]
      rfl
    rw [htest]
    cases hvn : v.isNull with
    | true =>
      rw [Engine.keyLe_null_value hvn hwn, Engine.keyLe_value_null hwn hvn, Bool.and_not_self,
        Value.eq_null_of_isNull hvn, hf.unknown .eq hw]
    | false =>
      have hv' := hv.resolve_left (by rw [hvn]; exact Bool.false_ne_true)
      rw [Engine.keyLe_values hvn hwn, Engine.keyLe_values hwn hvn, hf.eq hv' hw]
      split
      · exact Bool.and_comm _ _
      · rfl

/-- A comparison for what is strictly after a value is that of the order. -/
theorem accepts_strictly {s : Scene} (hf : g.FollowsOn (e.columnNamed key.field) held)
    (hv : held (s.at (e.columnNamed key.field)))
    (hvn : (s.at (e.columnNamed key.field)).isNull = false) (hw : held w)
    (hwn : w.isNull = false) :
    g.accepts s (strictly e key w) =
      !g.keyLe (orderKey e key) (s.at (e.columnNamed key.field)) w := by
  have htest : g.accepts s (strictly e key w) =
      g.meets (.compare (.column (e.columnNamed key.field))
        (if key.direction = .descending then .lt else .gt) ((e.columnNamed key.field).bind w))
        (s.at (e.columnNamed key.field)) := rfl
  rw [htest, Engine.keyLe_values hvn hwn, orderKey]
  dsimp only
  split
  · exact hf.lt hv hw
  · exact hf.gt hv hw

theorem nullsLast_orderKey (h : key.field ≠ e.primaryKey) : (orderKey e key).nullsLast = true := by
  rw [orderKey]
  exact bne_iff_ne.mpr h

/-- What is after a value by a key is what the order does not let stand before it. -/
theorem accepts_afterOf {s : Scene} (hf : g.FollowsOn (e.columnNamed key.field) held)
    (hv : (s.at (e.columnNamed key.field)).isNull = true ∨
      held (s.at (e.columnNamed key.field)))
    (hpk : key.field = e.primaryKey → (s.at (e.columnNamed key.field)).isNull = false)
    (hw : held w) (hwn : w.isNull = false) :
    g.accepts s (afterOf e key w) =
      !g.keyLe (orderKey e key) (s.at (e.columnNamed key.field)) w := by
  have hvalue (hvn : (s.at (e.columnNamed key.field)).isNull = false) :
      g.accepts s (strictly e key w) =
        !g.keyLe (orderKey e key) (s.at (e.columnNamed key.field)) w :=
    accepts_strictly hf (hv.resolve_left (by rw [hvn]; exact Bool.false_ne_true)) hvn hw hwn
  rw [afterOf]
  split
  case isTrue h => exact hvalue (hpk h)
  case isFalse h =>
    have hany : g.accepts s
        (.any [strictly e key w, .isNull (.column (e.columnNamed key.field)) false]) =
        (g.accepts s (strictly e key w) || (s.at (e.columnNamed key.field)).isNull) := by
      rw [Engine.accepts]
      show (g.accepts s (strictly e key w) || (_ || false)) = _
      rw [Bool.or_false, Engine.accepts, Bool.bne_false]
    rw [hany]
    cases hvn : (s.at (e.columnNamed key.field)).isNull with
    | true =>
      -- nothing comes last by this key
      rw [Bool.or_true, Engine.keyLe_null_value hvn hwn, nullsLast_orderKey h]
      rfl
    | false => rw [Bool.or_false, hvalue hvn]

end

-- ---------------------------------------------------------------------------
-- All keys
-- ---------------------------------------------------------------------------

variable {keys : List SortKey} {r x : Record}

/-- Keys whose columns are ordered order the rows. -/
theorem isTotalOn_sceneLe {held : String → Value → Prop}
    (h : ∀ key ∈ keys, IsTotalOn (g.le (e.columnNamed key.field)) (held key.field)) :
    IsTotalOn (g.sceneLe (keys.map (orderKey e))) (IsKeyedBy e keys held) := by
  have hkeys : ∀ k ∈ keys.map (orderKey e), IsTotalOn (g.keyLe k)
      fun v => v.isNull = true ∨ held k.column.name v := by
    intro k hk
    obtain ⟨key, hkey, rfl⟩ := List.mem_map.mp hk
    exact (h key hkey).keyLe
  have hscene := IsTotalOn.sceneLe hkeys
  have hheld : ∀ {s : Scene}, IsKeyedBy e keys held s → ∀ k ∈ keys.map (orderKey e),
      (s.at k.column).isNull = true ∨ held k.column.name (s.at k.column) := by
    intro s hs k hk
    obtain ⟨key, hkey, rfl⟩ := List.mem_map.mp hk
    exact hs.held key hkey
  exact ⟨fun ha hb => hscene.total (hheld ha) (hheld hb),
    fun ha hb hc => hscene.trans (hheld ha) (hheld hb) (hheld hc)⟩

/-- The keys order the rows of a table that holds what it has to. -/
theorem isTotalOn_recordLe (hf : ∀ key ∈ keys, g.Follows (e.columnNamed key.field)) :
    IsTotalOn (recordLe g e keys) (IsKeyed e keys) := by
  have hscene : IsTotalOn (g.sceneLe (keys.map (orderKey e)))
      (IsKeyedBy e keys fun field => (e.typeOf field).Sorts) :=
    isTotalOn_sceneLe fun key hkey => (hf key hkey).ordered
  have hrecord := hscene.comap (Scene.single e.table)
  exact ⟨fun ha hb => hrecord.total ha.by hb.by,
    fun ha hb hc => hrecord.trans ha.by hb.by hc.by⟩

/-- Rows with the same key values stand at the same place in the order. -/
theorem recordLe_congr {r' x' : Record} (hr : ∀ key ∈ keys, r key.field = r' key.field)
    (hx : ∀ key ∈ keys, x key.field = x' key.field) :
    recordLe g e keys r x = recordLe g e keys r' x' := by
  refine Engine.sceneLe_congr (fun k hk => ?_) fun k hk => ?_
  · obtain ⟨key, hkey, rfl⟩ := List.mem_map.mp hk
    rw [orderKey, at_columnNamed, at_columnNamed, hr key hkey]
  · obtain ⟨key, hkey, rfl⟩ := List.mem_map.mp hk
    rw [orderKey, at_columnNamed, at_columnNamed, hx key hkey]

section
variable {held : String → Value → Prop} {values : Entries Value} {s y : Scene}

/-- What is after a row by one key, among the rows that agree by the keys before it. Nothing is after
a row without a value. -/
theorem acceptsAny_branch {key : SortKey} (hkey : key ∈ keys) (before : List SortKey)
    (hf : g.FollowsOn (e.columnNamed key.field) (held key.field)) (hs : IsKeyedBy e keys held s)
    (hy : IsKeyedBy e keys (fun field v => held field v ∧ IsOrdered v) y) :
    g.acceptsAny s (if (y.at (e.columnNamed key.field)).isNull then []
      else [.conj (before.map (agrees e values) ++
        [afterOf e key (y.at (e.columnNamed key.field))])]) =
      (g.acceptsAll s (before.map (agrees e values)) &&
        !g.keyLe (orderKey e key) (s.at (e.columnNamed key.field))
          (y.at (e.columnNamed key.field))) := by
  cases hn : (y.at (e.columnNamed key.field)).isNull with
  | true =>
    have hpk : key.field ≠ e.primaryKey := by
      intro h
      rw [h, hy.given] at hn
      cases hn
    have hfirst : g.keyLe (orderKey e key) (s.at (e.columnNamed key.field))
        (y.at (e.columnNamed key.field)) = true := by
      cases hsn : (s.at (e.columnNamed key.field)).isNull with
      | true => exact Engine.keyLe_null_null hsn hn
      | false =>
        rw [Engine.keyLe_value_null hsn hn, nullsLast_orderKey hpk]
        rfl
    rw [hfirst, if_pos rfl, Bool.not_true, Bool.and_false]
    rfl
  | false =>
    have hw := (hy.held key hkey).resolve_left (by rw [hn]; exact Bool.false_ne_true)
    rw [if_neg Bool.false_ne_true, Engine.acceptsAny_singleton, Engine.accepts_conj,
      Engine.acceptsAll_append, Engine.acceptsAll_singleton,
      accepts_afterOf hf (hs.held key hkey) (fun h => by rw [h, hs.given]) hw.1 hn]

/-- The condition of the keys from some key on, for rows that agree by the keys before it. -/
theorem acceptsAny_branchesOf (before : List SortKey)
    (hf : ∀ key ∈ keys, g.FollowsOn (e.columnNamed key.field) (held key.field))
    (hs : IsKeyedBy e keys held s)
    (hy : IsKeyedBy e keys (fun field v => held field v ∧ IsOrdered v) y)
    (hvalues : ∀ key ∈ keys, valueOf values key = y.at (e.columnNamed key.field)) :
    g.acceptsAny s (branchesOf e values before keys) =
      (g.acceptsAll s (before.map (agrees e values)) &&
        !g.sceneLe (keys.map (orderKey e)) s y) := by
  induction keys generalizing before with
  | nil => exact (Bool.and_false _).symm
  | cons key keys ih =>
    have hkey := List.mem_cons_self (a := key) (l := keys)
    have hrest := ih (before ++ [key]) (fun k hk => hf k (List.mem_cons_of_mem _ hk)) hs.tail
      hy.tail fun k hk => hvalues k (List.mem_cons_of_mem _ hk)
    have hagrees : g.accepts s (agrees e values key) =
        (g.keyLe (orderKey e key) (s.at (e.columnNamed key.field))
            (y.at (e.columnNamed key.field)) &&
          g.keyLe (orderKey e key) (y.at (e.columnNamed key.field))
            (s.at (e.columnNamed key.field))) := by
      rw [agrees, hvalues key hkey]
      exact accepts_equals (hf key hkey) (hs.held key hkey) (hy.held key hkey)
    rw [List.map_append, List.map_singleton, Engine.acceptsAll_append, Engine.acceptsAll_singleton,
      hagrees] at hrest
    rw [branchesOf, Engine.acceptsAny_append, hrest, sceneLe_orderKeys_cons, hvalues key hkey,
      acceptsAny_branch hkey before (hf key hkey) hs hy]
    -- it comes after, or agrees and comes after by the keys that are left
    cases g.acceptsAll s (before.map (agrees e values)) <;>
      cases g.keyLe (orderKey e key) (s.at (e.columnNamed key.field))
        (y.at (e.columnNamed key.field)) <;>
      cases g.keyLe (orderKey e key) (y.at (e.columnNamed key.field))
        (s.at (e.columnNamed key.field)) <;> rfl

/-- The condition after some key values is true of the rows that come strictly after a row with
them. -/
theorem accepts_branchesOf (hf : ∀ key ∈ keys, g.FollowsOn (e.columnNamed key.field) (held key.field))
    (hs : IsKeyedBy e keys held s)
    (hy : IsKeyedBy e keys (fun field v => held field v ∧ IsOrdered v) y)
    (hvalues : ∀ key ∈ keys, valueOf values key = y.at (e.columnNamed key.field)) :
    g.accepts s (.disj (branchesOf e values [] keys)) =
      !g.sceneLe (keys.map (orderKey e)) s y := by
  rw [Engine.accepts_disj, acceptsAny_branchesOf [] hf hs hy hvalues]
  rfl

end

/-- The condition after a row is true of the rows that come strictly after it. -/
theorem accepts_after (hf : ∀ key ∈ keys, g.Follows (e.columnNamed key.field))
    (hr : IsKeyed e keys r) (hx : IsKeyed e keys x) :
    g.accepts (Scene.single e.table r) (.disj (branchesOf e (valuesOf keys x) [] keys)) =
      !recordLe g e keys r x := by
  have hx' : IsKeyedBy e keys (fun field v => (e.typeOf field).Sorts v ∧ IsOrdered v)
      (.single e.table x) :=
    ⟨fun key hkey => (hx.by.held key hkey).imp_right fun h => ⟨h, h.2.2⟩, hx.by.given⟩
  refine accepts_branchesOf (fun key hkey => (hf key hkey).on) hr.by hx' fun key hkey => ?_
  rw [at_columnNamed]
  exact valueOf_valuesOf x hkey

end Keyset

namespace Query

/-- The order of a cursor page. -/
theorem orderBy_keys (q : Query) {keys : List SortKey} (h : keys ≠ []) :
    q.orderBy keys = keys.map (Keyset.orderKey q.entity) := by
  obtain ⟨key, rest, rfl⟩ := List.exists_cons_of_ne_nil h
  rfl

end Query

end ListQuery
