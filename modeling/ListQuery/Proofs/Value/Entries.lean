import Mathlib.Data.List.Dedup
import ListQuery.Value.Mapping

/-!
# Entries

Laws of entries under text keys: looking up what was written, in whatever order the entries come, and
leaving out the entries of some keys.

* `get?_perm` — what stands under a key in whatever order;
* `get?_ofList_map`, `get?_foldl_put`, `ofList_of_nodup` — entries that are written one after the
  other;
* `filter_ofList` — entries of which some keys are left out;
* `Each.put`, `foldl_addPiece` — entries that are right one by one, and values that come in pieces.
-/

namespace ListQuery.Entries

variable {α β : Type} {es fs : Entries α} {key : String}

theorem get?_eq_some_of_mem (hn : es.keys.Nodup) {v : α} (h : (key, v) ∈ es) :
    es.get? key = some v := by
  induction es with
  | nil => exact absurd h List.not_mem_nil
  | cons e es ih =>
    obtain ⟨k, w⟩ := e
    obtain ⟨hk, hn'⟩ := List.nodup_cons.mp hn
    rw [get?, List.lookup_cons]
    rcases List.mem_cons.mp h with hhere | hthere
    · obtain ⟨rfl, rfl⟩ := Prod.mk.inj hhere
      rw [beq_self_eq_true]
    · have hne : key ≠ k := fun heq => hk (List.mem_map.mpr ⟨(key, v), hthere, heq⟩)
      rw [beq_eq_false_iff_ne.mpr hne]
      exact ih hn' hthere

theorem mem_of_get?_eq_some {v : α} (h : es.get? key = some v) : (key, v) ∈ es := by
  induction es with
  | nil => cases h
  | cons e es ih =>
    obtain ⟨k, w⟩ := e
    rw [get?, List.lookup_cons] at h
    cases hk : key == k with
    | true =>
      rw [hk] at h
      obtain rfl := Option.some.inj h
      rw [beq_iff_eq.mp hk]
      exact List.mem_cons_self
    | false =>
      rw [hk] at h
      exact List.mem_cons_of_mem _ (ih h)

theorem get?_of_notMem (h : key ∉ es.keys) : es.get? key = none := by
  cases hget : es.get? key with
  | none => rfl
  | some v => exact absurd (List.mem_map.mpr ⟨_, mem_of_get?_eq_some hget, rfl⟩) h

theorem isSome_get?_iff : (es.get? key).isSome = true ↔ key ∈ es.keys := by
  rw [get?, List.lookup_isSome_iff, keys, List.mem_map]
  refine exists_congr fun e => and_congr_right fun _ => ?_
  rw [beq_iff_eq]
  exact eq_comm

/-- Where an entry stands does not matter for looking it up. -/
theorem get?_perm (hn : es.keys.Nodup) (hp : es.Perm fs) : es.get? key = fs.get? key := by
  have hn' : fs.keys.Nodup := (hp.map _).nodup_iff.mp hn
  refine Option.ext fun v => ⟨fun h => ?_, fun h => ?_⟩
  · exact get?_eq_some_of_mem hn' (hp.mem_iff.mp (mem_of_get?_eq_some h))
  · exact get?_eq_some_of_mem hn (hp.mem_iff.mpr (mem_of_get?_eq_some h))

theorem get?_map (f : α → β) :
    get? key (es.map fun e => (e.1, f e.2)) = (es.get? key).map f := by
  induction es with
  | nil => rfl
  | cons e es ih =>
    obtain ⟨k, w⟩ := e
    rw [get?, List.map_cons, List.lookup_cons, get?, List.lookup_cons]
    cases key == k with
    | true => rfl
    | false => exact ih

theorem keys_map (f : α → β) : keys (es.map fun e => (e.1, f e.2)) = es.keys := by
  rw [keys, List.map_map]
  rfl

-- ---------------------------------------------------------------------------
-- Writing entries
-- ---------------------------------------------------------------------------

theorem keys_put (v : α) :
    keys (put key v es) = if key ∈ keys es then keys es else keys es ++ [key] := by
  induction es with
  | nil => rfl
  | cons e es ih =>
    obtain ⟨k, w⟩ := e
    rw [put]
    by_cases h : k = key
    · rw [if_pos h]
      exact (if_pos (List.mem_cons.mpr (Or.inl h.symm))).symm
    · rw [if_neg h]
      show k :: keys (put key v es) = if key ∈ k :: keys es then _ else _
      rw [ih]
      by_cases hm : key ∈ keys es
      · rw [if_pos hm, if_pos (List.mem_cons_of_mem _ hm)]
        rfl
      · have hm' : ¬key ∈ k :: keys es := fun hm' =>
          (List.mem_cons.mp hm').elim (fun e => h e.symm) hm
        rw [if_neg hm, if_neg hm']
        rfl

theorem mem_keys_put {other : String} (v : α) :
    other ∈ keys (put key v es) ↔ other ∈ es.keys ∨ other = key := by
  rw [keys_put]
  split
  case isTrue hkey => exact (or_iff_left_of_imp fun heq => heq ▸ hkey).symm
  case isFalse => rw [List.mem_append, List.mem_singleton]

theorem nodup_keys_put (v : α) (hn : es.keys.Nodup) : (keys (put key v es)).Nodup := by
  rw [keys_put]
  split
  · exact hn
  case isFalse h =>
    exact hn.append (List.nodup_singleton key)
      (List.disjoint_singleton.mpr h)

theorem nodup_keys_foldl_put (l : List (String × α)) (hn : es.keys.Nodup) :
    (keys (l.foldl (fun m e => put e.1 e.2 m) es)).Nodup := by
  induction l generalizing es with
  | nil => exact hn
  | cons e l ih => exact ih (nodup_keys_put e.2 hn)

theorem nodup_keys_ofList (l : List (String × α)) : (keys (ofList l)).Nodup :=
  nodup_keys_foldl_put l List.nodup_nil

theorem put_of_notMem (v : α) (h : key ∉ es.keys) : put key v es = es ++ [(key, v)] := by
  induction es with
  | nil => rfl
  | cons e es ih =>
    obtain ⟨k, w⟩ := e
    have hk : k ≠ key := fun hk => h (List.mem_cons.mpr (Or.inl hk.symm))
    rw [put, if_neg hk, ih fun hm => h (List.mem_cons_of_mem _ hm)]
    rfl

theorem foldl_put_of_nodup (l : List (String × α)) (hn : (keys (es ++ l)).Nodup) :
    l.foldl (fun m e => put e.1 e.2 m) es = es ++ l := by
  induction l generalizing es with
  | nil => rw [List.foldl_nil, List.append_nil]
  | cons e l ih =>
    have hmem : e.1 ∉ es.keys := by
      rw [keys, List.map_append] at hn
      intro hm
      exact (List.disjoint_of_nodup_append hn) hm (List.mem_map.mpr ⟨e, List.mem_cons_self, rfl⟩)
    rw [List.foldl_cons, put_of_notMem e.2 hmem, ih (by rwa [List.append_assoc]),
      List.append_assoc]
    rfl

/-- Entries with distinct keys are kept as they are. -/
theorem ofList_of_nodup (hn : es.keys.Nodup) : ofList es = es := foldl_put_of_nodup es hn

/-- Of entries under distinct keys that are written over others. -/
theorem get?_foldl_put {l : List (String × α)} (hn : (keys l).Nodup) (es : Entries α) :
    get? key (l.foldl (fun m e => put e.1 e.2 m) es) = (get? key l).or (es.get? key) := by
  induction l generalizing es with
  | nil => rfl
  | cons e l ih =>
    obtain ⟨k, w⟩ := e
    obtain ⟨hk, hn⟩ := List.nodup_cons.mp hn
    rw [List.foldl_cons, ih hn]
    by_cases hkey : key = k
    · rw [get?_of_notMem fun hm => hk (hkey ▸ hm), Option.none_or, hkey, get?_put_self, get?,
        List.lookup_cons, beq_self_eq_true]
      rfl
    · have hother : get? key ((k, w) :: l) = get? key l := by
        rw [get?, List.lookup_cons, beq_eq_false_iff_ne.mpr hkey]
        rfl
      rw [hother, get?_put_of_ne _ _ hkey]

/-- What is written under other keys leaves what stands under a key. -/
theorem get?_foldl_put_of_notMem {l : List (String × α)} (h : key ∉ keys l) :
    get? key (l.foldl (fun m e => put e.1 e.2 m) es) = es.get? key := by
  induction l generalizing es with
  | nil => rfl
  | cons e l ih =>
    obtain ⟨hkey, hrest⟩ := not_or.mp fun hm => h (List.mem_cons.mpr hm)
    rw [List.foldl_cons, ih hrest, get?_put_of_ne _ _ hkey]

-- ---------------------------------------------------------------------------
-- Values given by their names
-- ---------------------------------------------------------------------------

theorem keys_map_name (names : List String) (f : String → α) :
    keys (names.map fun n => (n, f n)) = names := by
  rw [keys, List.map_map]
  exact List.map_id _

theorem get?_map_name {names : List String} (f : String → α) {name : String} (h : name ∈ names) :
    get? name (names.map fun n => (n, f n)) = some (f name) := by
  induction names with
  | nil => exact absurd h List.not_mem_nil
  | cons n names ih =>
    rw [List.map_cons, get?, List.lookup_cons]
    by_cases heq : name = n
    · rw [heq, beq_self_eq_true]
    · rw [beq_eq_false_iff_ne.mpr heq]
      exact ih ((List.mem_cons.mp h).resolve_left heq)

theorem get?_foldl_put_map (names : List String) (f : String → α) (es : Entries α) (name : String) :
    get? name ((names.map fun n => (n, f n)).foldl (fun m e => put e.1 e.2 m) es) =
      if name ∈ names then some (f name) else es.get? name := by
  induction names generalizing es with
  | nil => exact (if_neg List.not_mem_nil).symm
  | cons n names ih =>
    rw [List.map_cons, List.foldl_cons, ih]
    by_cases hm : name ∈ names
    · rw [if_pos hm, if_pos (List.mem_cons_of_mem _ hm)]
    · rw [if_neg hm]
      by_cases hn : name = n
      · rw [if_pos (List.mem_cons.mpr (Or.inl hn)), hn, get?_put_self]
      · rw [if_neg fun h => (List.mem_cons.mp h).elim hn hm, get?_put_of_ne _ _ hn]

/-- What stands under a name when each of some names has its value. -/
theorem get?_ofList_map (names : List String) (f : String → α) (name : String) :
    get? name (ofList (names.map fun n => (n, f n))) =
      if name ∈ names then some (f name) else none :=
  get?_foldl_put_map names f [] name

-- ---------------------------------------------------------------------------
-- Leaving keys out
-- ---------------------------------------------------------------------------

theorem filter_put (p : String → Bool) (v : α) :
    (put key v es).filter (fun e => p e.1) =
      if p key then put key v (es.filter fun e => p e.1) else es.filter fun e => p e.1 := by
  induction es with
  | nil =>
    rw [put, List.filter_cons]
    rfl
  | cons e es ih =>
    obtain ⟨k, w⟩ := e
    rw [put]
    by_cases hk : k = key
    · subst hk
      rw [if_pos rfl, List.filter_cons, List.filter_cons]
      by_cases hp : p k = true
      · rw [if_pos hp, if_pos hp, if_pos hp, put, if_pos rfl]
      · rw [if_neg hp, if_neg hp, if_neg hp]
    · rw [if_neg hk, List.filter_cons, List.filter_cons, ih]
      by_cases hp : p k = true
      · rw [if_pos hp, if_pos hp]
        split
        · rw [put, if_neg hk]
        · rfl
      · rw [if_neg hp, if_neg hp]

theorem filter_foldl_put (p : String → Bool) (l : List (String × α)) :
    (l.foldl (fun m e => put e.1 e.2 m) es).filter (fun e => p e.1) =
      (l.filter fun e => p e.1).foldl (fun m e => put e.1 e.2 m) (es.filter fun e => p e.1) := by
  induction l generalizing es with
  | nil => rfl
  | cons e l ih =>
    rw [List.foldl_cons, ih, filter_put, List.filter_cons]
    split <;> rfl

theorem get?_filter_of_kept (p : String → Bool) (hkey : p key = true) :
    get? key (es.filter fun e => p e.1) = es.get? key := by
  induction es with
  | nil => rfl
  | cons e es ih =>
    obtain ⟨k, w⟩ := e
    rw [List.filter_cons, get?, get?, List.lookup_cons]
    cases hk : key == k with
    | true =>
      rw [if_pos (by rw [← beq_iff_eq.mp hk]; exact hkey), List.lookup_cons, hk]
    | false =>
      split
      · rw [List.lookup_cons, hk]
        exact ih
      · exact ih

/-- Keys can be left out before or after the entries are written. -/
theorem filter_ofList (p : String → Bool) (l : List (String × α)) :
    (ofList l).filter (fun e => p e.1) = ofList (l.filter fun e => p e.1) :=
  filter_foldl_put p l

-- ---------------------------------------------------------------------------
-- Entries of which each is as it should be
-- ---------------------------------------------------------------------------

theorem mem_put {v : α} {e : String × α} (h : e ∈ put key v es) : e = (key, v) ∨ e ∈ es := by
  induction es with
  | nil => exact .inl (List.mem_singleton.mp h)
  | cons e' es ih =>
    obtain ⟨k, w⟩ := e'
    rw [put] at h
    split at h
    case isTrue hk =>
      rw [hk] at h
      exact (List.mem_cons.mp h).imp_right (List.mem_cons_of_mem _)
    case isFalse =>
      rcases List.mem_cons.mp h with rfl | h
      · exact .inr List.mem_cons_self
      · exact (ih h).imp_right (List.mem_cons_of_mem _)

theorem put_ne_nil (v : α) : put key v es ≠ [] := by
  match es with
  | []          => exact List.cons_ne_nil _ _
  | (k, w) :: _ =>
    rw [put]
    split <;> exact List.cons_ne_nil _ _

/-- Distinct keys, each with a value that is right for it. -/
def Each (P : String → α → Prop) (es : Entries α) : Prop :=
  es.keys.Nodup ∧ ∀ e ∈ es, P e.1 e.2

variable {P : String → α → Prop}

theorem each_nil : Each P [] := ⟨List.nodup_nil, List.forall_mem_nil _⟩

theorem Each.put (h : es.Each P) {v : α} (hv : P key v) : Each P (es.put key v) := by
  refine ⟨nodup_keys_put v h.1, fun e he => ?_⟩
  rcases mem_put he with rfl | he
  · exact hv
  · exact h.2 e he

theorem Each.get? (h : es.Each P) {v : α} (hget : es.get? key = some v) : P key v :=
  h.2 _ (mem_of_get?_eq_some hget)

theorem forall_get?_put (h : ∀ k w, es.get? k = some w → P k w) {v : α} (hv : P key v) :
    ∀ k w, (es.put key v).get? k = some w → P k w := by
  intro k w hget
  by_cases hk : k = key
  · rw [hk, get?_put_self] at hget
    exact hk ▸ Option.some.inj hget ▸ hv
  · rw [get?_put_of_ne _ _ hk] at hget
    exact h k w hget

theorem exists_get?_put {names : List String} (h : ∀ k ∈ names, ∃ w, es.get? k = some w) (v : α) :
    ∀ k ∈ names ++ [key], ∃ w, (es.put key v).get? k = some w := by
  intro k hmem
  by_cases hk : k = key
  · exact ⟨v, by rw [hk, get?_put_self]⟩
  · obtain ⟨w, hw⟩ := h k ((List.mem_append.mp hmem).resolve_right fun hlast =>
      hk (List.mem_singleton.mp hlast))
    exact ⟨w, by rw [get?_put_of_ne _ _ hk, hw]⟩

-- ---------------------------------------------------------------------------
-- Values that come in pieces
-- ---------------------------------------------------------------------------

section
variable (step : Option α → β → α)

/-- One piece of the value of a key. -/
def addPiece (es : Entries α) (piece : String × β) : Entries α :=
  es.put piece.1 (step (es.get? piece.1) piece.2)

/-- The value that pieces make, one after the other. -/
def assemble (existing : Option α) (pieces : List β) : Option α :=
  pieces.foldl (fun x piece => some (step x piece)) existing

theorem put_put (v w : α) : put key w (put key v es) = put key w es := by
  induction es with
  | nil => exact if_pos rfl
  | cons e es ih =>
    obtain ⟨k, u⟩ := e
    by_cases hk : k = key
    · simp [put, hk]
    · simp [put, hk, ih]

/-- The pieces of one value. -/
theorem foldl_addPiece_same {pieces : List β} (hne : pieces ≠ []) {v : α}
    (h : assemble step (es.get? key) pieces = some v) :
    (pieces.map fun piece => (key, piece)).foldl (addPiece step) es = es.put key v := by
  induction pieces generalizing es with
  | nil => exact absurd rfl hne
  | cons piece pieces ih =>
    rw [List.map_cons, List.foldl_cons]
    by_cases hlast : pieces = []
    · subst hlast
      obtain rfl := Option.some.inj h
      rfl
    · rw [ih hlast ?_, addPiece, put_put]
      rw [addPiece, get?_put_self]
      exact h

/-- Entries whose values are given piece by piece come back as they were. -/
theorem foldl_addPiece {pieces : α → List β}
    (h : ∀ e ∈ es, assemble step none (pieces e.2) = some e.2) (hn : (keys (fs ++ es)).Nodup) :
    (es.flatMap fun e => (pieces e.2).map fun piece => (e.1, piece)).foldl (addPiece step) fs =
      fs ++ es := by
  induction es generalizing fs with
  | nil => exact (List.append_nil fs).symm
  | cons e es ih =>
    obtain ⟨he, hes⟩ := List.forall_mem_cons.mp h
    have hkey : e.1 ∉ keys fs := by
      rw [keys, List.map_append] at hn
      exact fun hm => List.disjoint_of_nodup_append hn hm List.mem_cons_self
    have hne : pieces e.2 ≠ [] := by
      intro hnil
      rw [hnil] at he
      cases he
    rw [List.flatMap_cons, List.foldl_append,
      foldl_addPiece_same step hne (by rw [get?_of_notMem hkey, he]), put_of_notMem e.2 hkey,
      ih hes (by rwa [List.append_assoc]), List.append_assoc]
    rfl

end
end ListQuery.Entries

/-- A record is known by its entries. -/
theorem ListQuery.Value.record_injective : Function.Injective (record : Entries Value → Value) := by
  intro es fs h
  rw [← textEntries_record es, ← textEntries_record fs, map.inj h]

/-- What stands under a text in the map that a record is. -/
theorem ListQuery.Mapping.get?_record (es : Entries Value) (key : String) :
    Mapping.get? (.text key) (es.map fun e => (.text e.1, e.2)) = es.get? key := by
  induction es with
  | nil => rfl
  | cons e es ih =>
    obtain ⟨k, v⟩ := e
    rw [Mapping.get?, List.map_cons, List.find?_cons, Value.same_text, Entries.get?,
      List.lookup_cons]
    by_cases h : key = k
    · rw [h, decide_eq_true rfl, beq_self_eq_true]
      rfl
    · rw [decide_eq_false fun hk => h hk.symm, beq_eq_false_iff_ne.mpr h]
      exact ih

namespace ListQuery.Row

/-- What a row has in a column; nothing if it lacks the column. -/
def «at» (row : Row) (column : String) : Value := (row.get? column).getD .null

theorem at_of_get? {row : Row} {column : String} {v : Value} (h : row.get? column = some v) :
    row.at column = v := by
  rw [Row.at, h]
  rfl

end ListQuery.Row
