import ListQuery.Condition.Keyset
import ListQuery.Proofs.Failure
import ListQuery.Proofs.Calendar.Text
import ListQuery.Proofs.Paging.Token

/-!
# The condition after a row

The condition that selects the rows after a row exists unless a key is a truth value, which has no
order. It is the disjunction of one condition for each key that the row has a value for.

* `predicate_eq_ok` — the condition, written without failures;
* `predicate_eq_error` — when there is none.
-/

namespace ListQuery.Keyset

open Sql

variable (e : Entity) (values : Entries Value)

/-- Values that are neither nothing nor a truth value. -/
def IsOrdered : Value → Prop
  | .null | .bool _ => False
  | _               => True

theorem isOrdered_iff {v : Value} : IsOrdered v ↔ v ≠ .null ∧ ∀ b, v ≠ .bool b := by
  cases v <;> simp [IsOrdered]

/-- Strictly after the value in the direction of the key. -/
def strictly (key : SortKey) (v : Value) : Predicate :=
  .compare (.column (e.columnNamed key.field)) (if key.direction = .descending then .lt else .gt)
    ((e.columnNamed key.field).bind v)

/-- Strictly after the value, or without a value. -/
def afterOf (key : SortKey) (v : Value) : Predicate :=
  if key.field = e.primaryKey then strictly e key v
  else .any [strictly e key v, .isNull (.column (e.columnNamed key.field)) false]

/-- The conditions of the keys that have a value. -/
def branchesOf (before : List SortKey) : List SortKey → List Predicate
  | []          => []
  | key :: keys =>
    (if (valueOf values key).isNull then []
      else [.conj (before.map (agrees e values) ++ [afterOf e key (valueOf values key)])]) ++
      branchesOf (before ++ [key]) keys

variable {e values}

theorem after_eq_ok {key : SortKey} {v : Value} (hv : IsOrdered v) :
    after e key v = .ok (afterOf e key v) := by
  have hordered : (e.columnNamed key.field).ordered
      (if key.direction = .descending then .lt else .gt) v = .ok (strictly e key v) := by
    cases v with
    | null => exact absurd hv id
    | bool b => exact absurd hv id
    | _ => rfl
  rw [after, hordered, afterOf]
  show Except.ok _ = _
  split <;> rfl

variable {before keys : List SortKey} {key : SortKey}

theorem branches_cons_null (h : valueOf values key = .null) :
    branches e values before (key :: keys) = branches e values (before ++ [key]) keys := by
  rw [branches, h]
  show (branches e values (before ++ [key]) keys >>= fun rest => Except.ok ([] ++ rest)) = _
  cases branches e values (before ++ [key]) keys <;> rfl

theorem branches_cons_bool {b : Bool} (h : valueOf values key = .bool b) :
    branches e values before (key :: keys) = .error .badOperand := by
  rw [branches, h]
  rfl

theorem branches_cons_ordered (h : IsOrdered (valueOf values key)) :
    branches e values before (key :: keys) =
      (branches e values (before ++ [key]) keys).map
        (.conj (before.map (agrees e values) ++ [afterOf e key (valueOf values key)]) :: ·) := by
  have hafter : after e key (valueOf values key) = .ok (afterOf e key (valueOf values key)) :=
    after_eq_ok h
  rw [branches]
  generalize valueOf values key = v at h hafter ⊢
  cases v with
  | null => exact absurd h id
  | bool b => exact absurd h id
  | _ =>
    dsimp only
    rw [hafter]
    cases branches e values (before ++ [key]) keys <;> rfl

theorem branches_eq_ok
    (h : ∀ key ∈ keys, valueOf values key ≠ .null → IsOrdered (valueOf values key)) :
    branches e values before keys = .ok (branchesOf e values before keys) := by
  induction keys generalizing before with
  | nil => rfl
  | cons key keys ih =>
    have hrest : ∀ key ∈ keys, valueOf values key ≠ .null → IsOrdered (valueOf values key) :=
      fun k hk => h k (List.mem_cons_of_mem key hk)
    rw [branchesOf]
    by_cases hnull : valueOf values key = .null
    · rw [branches_cons_null hnull, ih hrest, hnull]
      rfl
    · have hordered := h key List.mem_cons_self hnull
      have hnot : (valueOf values key).isNull = false := by
        generalize valueOf values key = v at hnull
        cases v with
        | null => exact absurd rfl hnull
        | _ => rfl
      rw [branches_cons_ordered hordered, ih hrest, hnot]
      rfl

/-- The condition after a row with an order by each of its keys. -/
theorem predicate_eq_ok
    (h : ∀ key ∈ keys, valueOf values key ≠ .null → IsOrdered (valueOf values key)) :
    predicate e keys values = .ok (.disj (branchesOf e values [] keys)) := by
  rw [predicate, branches_eq_ok h]
  rfl

theorem branches_eq_error (hkey : key ∈ keys) {b : Bool} (hb : valueOf values key = .bool b) :
    branches e values before keys = .error .badOperand := by
  induction keys generalizing before with
  | nil => exact absurd hkey List.not_mem_nil
  | cons k keys ih =>
    by_cases hk : ∃ b, valueOf values k = .bool b
    · obtain ⟨b', hb'⟩ := hk
      exact branches_cons_bool hb'
    · -- the truth value belongs to a later key
      have hkey' : key ∈ keys := by
        rcases List.mem_cons.mp hkey with rfl | hmem
        · exact absurd ⟨b, hb⟩ hk
        · exact hmem
      by_cases hnull : valueOf values k = .null
      · rw [branches_cons_null hnull, ih hkey']
      · have hordered : IsOrdered (valueOf values k) := isOrdered_iff.mpr ⟨hnull, not_exists.mp hk⟩
        rw [branches_cons_ordered hordered, ih hkey']
        rfl

/-- There is none after a row with a truth value for a key. -/
theorem predicate_eq_error (hkey : key ∈ keys) {b : Bool} (hb : valueOf values key = .bool b) :
    predicate e keys values = .error .badOperand := by
  rw [predicate, branches_eq_error hkey hb]
  rfl

end ListQuery.Keyset

/-!
## Key values that come back

A cursor carries key values as a document knows them, and each is read as a value of its column
again. What comes back is the value itself but for two kinds: a time of day comes back as its text,
and a timestamp without the lead of an offset of less than a second.

* `coerce_jsonForm` — what comes back of one value;
* `ofCursor?_encode` — of all keys.
-/

namespace ListQuery

open Number Calendar

-- ---------------------------------------------------------------------------
-- Values of a column
-- ---------------------------------------------------------------------------

/-- Values of the program's own kind for a column of the type. -/
def ColumnType.Holds (t : ColumnType) : Value → Prop
  | .int _       => t.native? = some .integer
  | .bool _      => t.native? = some .boolean
  | .float _     => t.native? = some .float
  | .decimal d   => t.native? = some .decimal ∧ d.InRange
  | .text _      => t.isText = true
  | .date _      => t = .date
  | .time _      => t = .time
  | .timestamp _ => ∃ zoned, t = .dateTime zoned
  | _            => False

/-- A value of the column, or nothing. -/
def ColumnType.Admits (t : ColumnType) (v : Value) : Prop := v = .null ∨ t.Holds v

theorem ColumnType.Admits.isScalar {t : ColumnType} {v : Value} (h : t.Admits v) :
    Json.IsScalar v := by
  rcases h with rfl | h
  · trivial
  · cases v <;> trivial

/-- What a cursor gives back for a value. -/
def returned : Value → Value
  | .time t      => .text t.text
  | .timestamp t => .timestamp (if t.IsSpellable then t else { t with offset := some .utc })
  | v            => v

/-- Values that a cursor gives back as they are. -/
def IsKept : Value → Prop
  | .time _      => False
  | .timestamp t => t.IsSpellable
  | _            => True

theorem not_isSpellable_ne {t : Timestamp} (h : ¬t.IsSpellable) :
    { t with offset := some Offset.utc } ≠ t := by
  intro heq
  refine h fun o ho => ?_
  rw [← heq] at ho
  obtain rfl := Option.some.inj ho
  exact Or.inl rfl

theorem returned_eq_iff {v : Value} : returned v = v ↔ IsKept v := by
  cases v with
  | time t => exact iff_of_false (fun h => Value.noConfusion h) id
  | timestamp t =>
    show Value.timestamp _ = Value.timestamp t ↔ t.IsSpellable
    by_cases h : t.IsSpellable
    · rw [if_pos h]
      exact iff_of_true rfl h
    · rw [if_neg h]
      exact iff_of_false (fun heq => not_isSpellable_ne h (Value.timestamp.inj heq)) h
  | _ => exact iff_of_true rfl trivial

theorem returned_eq_null_iff {v : Value} : returned v = .null ↔ v = .null := by
  cases v with
  | null => exact Iff.rfl
  | _ => exact iff_of_false (fun h => Value.noConfusion h) fun h => Value.noConfusion h

-- ---------------------------------------------------------------------------
-- Reading one value
-- ---------------------------------------------------------------------------

/-- A value of a column is read from its document without failing. -/
theorem coerce_jsonForm {t : ColumnType} {v : Value} (h : t.Admits v) :
    coerce t (Json.jsonForm v) = .ok (returned v) := by
  rcases h with rfl | h
  · rfl
  cases v with
  | null => rfl
  | list vs => exact absurd h id
  | map es => exact absurd h id
  | bool b =>
    have hn : t.native? = some .boolean := h
    unfold coerce
    dsimp only [Json.jsonForm]
    rw [hn]
    rfl
  | int n =>
    have hn : t.native? = some .integer := h
    unfold coerce
    dsimp only [Json.jsonForm]
    rw [hn]
    rfl
  | float d =>
    have hn : t.native? = some .float := h
    have htrim : Text.trim (Value.float d).display = d.text := trim_of_isPlain d.isPlain_text
    unfold coerce
    dsimp only [Json.jsonForm]
    rw [hn]
    dsimp only
    rw [readText, htrim, Double.readDouble_text]
    rfl
  | decimal d =>
    obtain ⟨hn, hrange⟩ : t.native? = some .decimal ∧ d.InRange := h
    have htrim : Text.trim (Value.text d.text).display = d.text := trim_of_isPlain d.isPlain_text
    unfold coerce
    dsimp only [Json.jsonForm]
    rw [hn]
    dsimp only
    rw [readText, htrim, Decimal.readDecimal_text hrange]
    rfl
  | text s =>
    have hn : t = .string ∨ t = .text := by
      cases t <;> first | exact Or.inl rfl | exact Or.inr rfl | exact absurd h Bool.false_ne_true
    rcases hn with rfl | rfl <;> rfl
  | date d =>
    obtain rfl : t = .date := h
    have htrim : Text.trim (Value.text d.text).display = d.text := d.trim_text
    show (readText readDate (.text d.text) .unreadable).map Value.date = _
    rw [readText, htrim, readDate_text]
    rfl
  | time x =>
    obtain rfl : t = .time := h
    rfl
  | timestamp x =>
    obtain ⟨zoned, rfl⟩ : ∃ zoned, t = .dateTime zoned := h
    have htrim : Text.trim (Value.text (x.textWith ' ')).display = x.textWith ' ' :=
      x.trim_textWith
    show (readText readTimestamp (.text (x.textWith ' ')) .unreadable).map Value.timestamp = _
    rw [readText, htrim, returned]
    by_cases hs : x.IsSpellable
    · rw [x.readTimestamp_textWith hs, if_pos hs]
      rfl
    · rw [x.readTimestamp_textWith_of_not hs, if_neg hs]
      rfl

-- ---------------------------------------------------------------------------
-- Reading all keys
-- ---------------------------------------------------------------------------

namespace Keyset

/-- The key values of a row, under the names of the keys. -/
def valuesOf (keys : List SortKey) (f : String → Value) : Entries Value :=
  Entries.ofList (keys.map fun key => (key.field, f key.field))

theorem get?_valuesOf (keys : List SortKey) (f : String → Value) (name : String) :
    (valuesOf keys f).get? name = if name ∈ keys.map (·.field) then some (f name) else none := by
  rw [← Entries.get?_ofList_map, List.map_map]
  rfl

theorem valueOf_valuesOf {keys : List SortKey} (f : String → Value) {key : SortKey}
    (h : key ∈ keys) : valueOf (valuesOf keys f) key = f key.field := by
  rw [valueOf, get?_valuesOf, if_pos (List.mem_map.mpr ⟨key, h, rfl⟩)]
  rfl

/-- The values under the names of the keys are those that were put there. -/
theorem mem_valuesOf {keys : List SortKey} {f : String → Value} {e : String × Value}
    (h : e ∈ valuesOf keys f) : ∃ key ∈ keys, e = (key.field, f key.field) := by
  obtain ⟨name, v⟩ := e
  have hget : (valuesOf keys f).get? name = some v :=
    Entries.get?_eq_some_of_mem (Entries.nodup_keys_ofList _) h
  rw [get?_valuesOf] at hget
  split at hget
  case isTrue hm =>
    obtain rfl := Option.some.inj hget
    obtain ⟨key, hkey, rfl⟩ := List.mem_map.mp hm
    exact ⟨key, hkey, rfl⟩
  case isFalse => cases hget

theorem mapM_id_some {α β : Type} (g : α → β) (l : List α) :
    (l.map fun a => some (g a)).mapM id = some (l.map g) := by
  induction l with
  | nil => rfl
  | cons a l ih =>
    rw [List.map_cons, List.mapM_cons, ih]
    rfl

/-- The key values of a token are read, each as what comes back of it. -/
theorem ofCursor?_encode {e : Entity} {keys : List SortKey} {f : String → Value} {token : String}
    (hadmits : ∀ key ∈ keys, (e.typeOf key.field).Admits (f key.field))
    (hpk : e.primaryKey ∈ keys.map (·.field)) (hpkv : f e.primaryKey ≠ .null)
    (h : Cursor.encode (.record (valuesOf keys f)) = .ok token) :
    ofCursor? e keys (.text token) = .ok (some (valuesOf keys (returned ∘ f))) := by
  have hscalar : ∀ x ∈ valuesOf keys f, Json.IsScalar x.2 := by
    intro x hx
    obtain ⟨key, hkey, rfl⟩ := mem_valuesOf hx
    exact (hadmits key hkey).isScalar
  obtain ⟨hne, decoded, hdecode, hlookup⟩ :=
    Cursor.decode?_encode hscalar (Entries.nodup_keys_ofList _) h
  -- each key is found and read
  have hvalue : ∀ key ∈ keys, keyValue? e decoded key =
      .ok (some (key.field, returned (f key.field))) := by
    intro key hkey
    have hget : decoded.get? key.field = some (Json.jsonForm (f key.field)) := by
      rw [hlookup, get?_valuesOf, if_pos (List.mem_map.mpr ⟨key, hkey, rfl⟩)]
      rfl
    rw [keyValue?, hget]
    dsimp only
    rw [coerce_jsonForm (hadmits key hkey)]
  have hmapM : keys.mapM (keyValue? e decoded) =
      .ok (keys.map fun key => some (key.field, returned (f key.field))) := by
    rw [mapM_eq_ok, List.forall₂_map_right_iff, List.forall₂_same]
    exact hvalue
  have hvoid : (Value.text token).isVoid = false := by
    rw [Value.isVoid]
    exact beq_eq_false_iff_ne.mpr hne
  have hpkget : (valuesOf keys (returned ∘ f)).get? e.primaryKey =
      some (returned (f e.primaryKey)) := by
    rw [get?_valuesOf, if_pos hpk]
    rfl
  rw [ofCursor?, Cursor.ofValue?, hvoid]
  simp only [Bool.false_eq_true, if_false, hdecode]
  show ofDecoded? e keys decoded = _
  rw [ofDecoded?, hmapM]
  simp only [bind, Except.bind, mapM_id_some]
  split
  case h_1 heq => cases hpkget.symm.trans heq
  case h_2 heq =>
    exact absurd (returned_eq_null_iff.mp (Option.some.inj (hpkget.symm.trans heq))) hpkv
  case h_3 => rfl

end Keyset

end ListQuery
