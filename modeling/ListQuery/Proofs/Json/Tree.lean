import ListQuery.Proofs.Json.Record
import ListQuery.Proofs.Value.Same
import ListQuery.Value.Equal

/-!
# Trees of values

The values that a document gives back as they are: words, integers, texts, and the lists and records
of such values, in each other as deep as one likes. The order of the entries is no part of a record,
so a tree comes back with its entries in another order; `Reordered` says so at every level.

* `equal_of_reordered` — an order of the entries makes no difference to equality;
* `chars_of_reordered` — nor to the document;
* `reordered_canonical` — the order in which a document has them.
-/

namespace ListQuery.Json

open Number Value

/-- Words, integers that can be read again, texts, and lists and records of trees. -/
inductive IsTree : Value → Prop
  | null : IsTree .null
  | bool (b : Bool) : IsTree (.bool b)
  | int {n : Int} (h : digitCount n.natAbs ≤ maxIntegerDigits) : IsTree (.int n)
  | text (s : String) : IsTree (.text s)
  | list {vs : List Value} (h : ∀ v ∈ vs, IsTree v) : IsTree (.list vs)
  | record {es : Entries Value} (hn : es.keys.Nodup) (h : ∀ e ∈ es, IsTree e.2) :
      IsTree (.record es)

mutual

/-- The greatest number of lists and records that stand inside each other. -/
def depth : Value → Nat
  | .list vs => itemsDepth vs + 1
  | .map es  => entriesDepth es + 1
  | _        => 0

def itemsDepth : List Value → Nat
  | []      => 0
  | v :: vs => max (depth v) (itemsDepth vs)

def entriesDepth : List (Value × Value) → Nat
  | []      => 0
  | e :: es => max (depth e.2) (entriesDepth es)

end

/-- The same value, with the entries of its records in whatever order at every level. -/
inductive Reordered : Value → Value → Prop
  | leaf {v : Value} (h : IsScalar v) : Reordered v v
  | list {vs ws : List Value} (hlength : vs.length = ws.length)
      (hitems : ∀ p ∈ vs.zip ws, Reordered p.1 p.2) : Reordered (.list vs) (.list ws)
  | record {es fs gs : Entries Value} (hkeys : es.keys = fs.keys)
      (hvalues : ∀ p ∈ es.zip fs, Reordered p.1.2 p.2.2) (hperm : fs.Perm gs) :
      Reordered (.record es) (.record gs)

theorem isTree_list {vs : List Value} (h : IsTree (.list vs)) : ∀ v ∈ vs, IsTree v := by
  cases h with
  | list h => exact h

theorem isTree_record {es : Entries Value} (h : IsTree (.record es)) :
    es.keys.Nodup ∧ ∀ e ∈ es, IsTree e.2 := by
  generalize hv : Value.record es = v at h
  cases h with
  | record hn h =>
    obtain rfl := record_injective hv
    exact ⟨hn, h⟩
  | _ => cases hv

-- ---------------------------------------------------------------------------
-- Depth
-- ---------------------------------------------------------------------------

theorem depth_of_isScalar {v : Value} (h : IsScalar v) : depth v = 0 := by
  cases v with
  | list vs => exact absurd h id
  | map es => exact absurd h id
  | _ => rw [depth] <;> simp

theorem itemsDepth_le {vs : List Value} {n : Nat} : itemsDepth vs ≤ n ↔ ∀ v ∈ vs, depth v ≤ n := by
  induction vs with
  | nil => simp [itemsDepth]
  | cons v vs ih => rw [itemsDepth, Nat.max_le, ih, List.forall_mem_cons]

theorem entriesDepth_le {es : List (Value × Value)} {n : Nat} :
    entriesDepth es ≤ n ↔ ∀ e ∈ es, depth e.2 ≤ n := by
  induction es with
  | nil => simp [entriesDepth]
  | cons e es ih => rw [entriesDepth, Nat.max_le, ih, List.forall_mem_cons]

theorem depth_record_le {es : Entries Value} {n : Nat} :
    depth (.record es) ≤ n + 1 ↔ ∀ e ∈ es, depth e.2 ≤ n := by
  rw [Value.record, depth, Nat.add_le_add_iff_right, entriesDepth_le]
  constructor
  · exact fun h e he => h _ (List.mem_map_of_mem he)
  · intro h e he
    obtain ⟨e', he', rfl⟩ := List.mem_map.mp he
    exact h e' he'

-- ---------------------------------------------------------------------------
-- Equality
-- ---------------------------------------------------------------------------

theorem equalItems_eq_true {vs ws : List Value}
    (h : ∀ p ∈ vs.zip ws, p.1.equal p.2 = .ok true) : equalItems vs ws = .ok true := by
  induction vs generalizing ws with
  | nil => rw [equalItems]; simp
  | cons v vs ih =>
    cases ws with
    | nil => rw [equalItems]; simp
    | cons w ws =>
      rw [List.zip_cons_cons, List.forall_mem_cons] at h
      rw [equalItems, h.1]
      exact ih h.2

theorem equalEntries_eq_true {fs : Mapping} {es : List (Value × Value)}
    (h : ∀ e ∈ es, ∃ w, Mapping.get? e.1 fs = some w ∧ e.2.equal w = .ok true) :
    equalEntries fs es = .ok true := by
  induction es with
  | nil => rw [equalEntries]
  | cons e es ih =>
    rw [List.forall_mem_cons] at h
    obtain ⟨⟨w, hget, hequal⟩, hes⟩ := h
    rw [equalEntries, hget]
    dsimp only
    rw [hequal]
    exact ih hes

theorem equalScalars_self {v : Value} (hv : IsTree v) (hs : IsScalar v) :
    v.equalScalars v = .ok true := by
  cases hv with
  | list => exact absurd hs id
  | record => exact absurd hs id
  | _ => simp [equalScalars, isSignalling, isNumber, same, keyForm?]

/-- What stands under a key after entries were replaced and put in another order. -/
theorem exists_get?_of_mem {es fs gs : Entries Value} (hn : es.keys.Nodup)
    (hkeys : es.keys = fs.keys) (hperm : fs.Perm gs) {e : String × Value} (he : e ∈ es) :
    ∃ f, (e, f) ∈ es.zip fs ∧ gs.get? e.1 = some f.2 := by
  have hlength : es.length = fs.length := by
    simpa only [Entries.keys, List.length_map] using congrArg List.length hkeys
  obtain ⟨i, hi, rfl⟩ := List.getElem_of_mem he
  have hi' : i < fs.length := hlength ▸ hi
  have hkey : es[i].1 = fs[i].1 := by
    have := List.getElem_of_eq hkeys (i := i) (by rwa [Entries.keys, List.length_map])
    simpa only [Entries.keys, List.getElem_map] using this
  have hn' : fs.keys.Nodup := hkeys ▸ hn
  refine ⟨fs[i], ?_, ?_⟩
  · exact List.mem_iff_getElem.mpr ⟨i, by rw [List.length_zip]; omega, List.getElem_zip⟩
  · rw [← Entries.get?_perm hn' hperm, hkey]
    exact Entries.get?_eq_some_of_mem hn' (List.getElem_mem hi')

/-- A tree equals itself with its entries in another order. -/
theorem equal_of_reordered {v w : Value} (h : Reordered v w) (hv : IsTree v) :
    v.equal w = .ok true := by
  induction h with
  | @leaf v hs =>
    have heq : v.equal v = v.equalScalars v := by
      cases v with
      | list vs => exact absurd hs id
      | map es => exact absurd hs id
      | _ => rw [Value.equal] <;> simp
    rw [heq]
    exact equalScalars_self hv hs
  | @list vs ws hlength hitems ih =>
    rw [Value.equal, if_pos hlength]
    refine equalItems_eq_true fun p hp => ih p hp ?_
    exact isTree_list hv p.1 (List.of_mem_zip hp).1
  | @record es fs gs hkeys hvalues hperm ih =>
    obtain ⟨hn, hes⟩ := isTree_record hv
    have hlength : es.length = gs.length := by
      rw [← hperm.length_eq]
      simpa only [Entries.keys, List.length_map] using congrArg List.length hkeys
    rw [Value.record, Value.record, Value.equal, List.length_map, List.length_map, if_pos hlength]
    refine equalEntries_eq_true fun e he => ?_
    obtain ⟨e', he', rfl⟩ := List.mem_map.mp he
    obtain ⟨f, hzip, hget⟩ := exists_get?_of_mem hn hkeys hperm he'
    exact ⟨f.2, (Mapping.get?_record gs e'.1).trans hget, ih (e', f) hzip (hes e' he')⟩

-- ---------------------------------------------------------------------------
-- Documents
-- ---------------------------------------------------------------------------

theorem keyLe_text (a b : String) : keyLe (.text a) (.text b) = decide (a ≤ b) := rfl

theorem pairwise_sorted (es : Entries Value) :
    (sorted es).Pairwise fun a b => keyLe (.text a.1) (.text b.1) = true := by
  refine List.pairwise_mergeSort (fun a b c hab hbc => ?_) (fun a b => ?_) es
  · rw [keyLe_text, decide_eq_true_eq] at *
    exact String.le_trans hab hbc
  · rw [keyLe_text, keyLe_text, Bool.or_eq_true, decide_eq_true_eq, decide_eq_true_eq]
    exact String.le_total a.1 b.1

/-- Entries under distinct keys are sorted in one way only. -/
theorem sorted_of_perm {es fs : Entries Value} (hn : es.keys.Nodup) (h : es.Perm fs) :
    sorted es = sorted fs := by
  have hperm : (sorted es).Perm (sorted fs) :=
    (sorted_perm es).trans (h.trans (sorted_perm fs).symm)
  refine hperm.eq_of_pairwise (fun a b ha hb hab hba => ?_) (pairwise_sorted es)
    (pairwise_sorted fs)
  rw [keyLe_text, decide_eq_true_eq] at hab hba
  have hkey : a.1 = b.1 := String.le_antisymm hab hba
  have ha' : a ∈ es := (sorted_perm es).mem_iff.mp ha
  have hb' : b ∈ es := h.mem_iff.mpr ((sorted_perm fs).mem_iff.mp hb)
  have hget := Entries.get?_eq_some_of_mem hn ha'
  rw [hkey, Entries.get?_eq_some_of_mem hn hb'] at hget
  exact Prod.ext hkey (Option.some.inj hget).symm

theorem chars_record_perm {es fs : Entries Value} (hn : es.keys.Nodup) (h : es.Perm fs) :
    chars (.record es) = chars (.record fs) := by
  rw [chars_record_eq, chars_record_eq, sorted_of_perm hn h]

/-- Entries whose texts are the same have the same document. -/
theorem chars_record_congr {es fs : Entries Value}
    (h : es.map (fun e => (e.1, entryText e)) = fs.map fun e => (e.1, entryText e)) :
    chars (.record es) = chars (.record fs) := by
  have hsorted : ∀ gs : Entries Value, (sorted gs).map entryText =
      ((gs.map fun e => (e.1, entryText e)).mergeSort fun a b =>
        keyLe (.text a.1) (.text b.1)).map (·.2) := by
    intro gs
    rw [← List.map_mergeSort (l := gs) (f := fun e => (e.1, entryText e))
      (r := fun a b => keyLe (.text a.1) (.text b.1)) fun _ _ _ _ => rfl, List.map_map]
    rfl
  have hmapM : ∀ gs : Entries Value, (sorted gs).mapM entryText =
      ((sorted gs).map entryText).mapM id := fun gs => by rw [List.mapM_map]; rfl
  rw [chars_record_eq, chars_record_eq, hmapM, hmapM, hsorted, hsorted, h]

theorem itemChars_eq (vs : List Value) : itemChars vs = vs.mapM chars := by
  induction vs with
  | nil => rw [itemChars]; rfl
  | cons v vs ih => rw [itemChars, List.mapM_cons, ih]; rfl

theorem map_eq_map_of_zip {α β : Type} {f : α → β} {l r : List α} (hlength : l.length = r.length)
    (h : ∀ p ∈ l.zip r, f p.1 = f p.2) : l.map f = r.map f := by
  induction l generalizing r with
  | nil => rw [List.length_eq_zero_iff.mp hlength.symm]
  | cons a l ih =>
    cases r with
    | nil => cases hlength
    | cons b r =>
      rw [List.zip_cons_cons, List.forall_mem_cons] at h
      rw [List.map_cons, List.map_cons, h.1, ih (Nat.succ.inj hlength) h.2]

/-- A tree has the same document in whatever order its entries come. -/
theorem chars_of_reordered {v w : Value} (h : Reordered v w) (hv : IsTree v) :
    chars v = chars w := by
  induction h with
  | leaf => rfl
  | @list vs ws hlength hitems ih =>
    have hmap : vs.map chars = ws.map chars :=
      map_eq_map_of_zip hlength fun p hp => ih p hp (isTree_list hv p.1 (List.of_mem_zip hp).1)
    have hmapM : ∀ us : List Value, us.mapM chars = (us.map chars).mapM id :=
      fun us => by rw [List.mapM_map]; rfl
    rw [chars, chars, itemChars_eq, itemChars_eq, hmapM, hmapM, hmap]
  | @record es fs gs hkeys hvalues hperm ih =>
    obtain ⟨hn, hes⟩ := isTree_record hv
    have hlength : es.length = fs.length := by
      simpa only [Entries.keys, List.length_map] using congrArg List.length hkeys
    rw [← chars_record_perm (hkeys ▸ hn) hperm]
    refine chars_record_congr (map_eq_map_of_zip hlength fun p hp => ?_)
    have hchars : chars p.1.2 = chars p.2.2 := ih p hp (hes p.1 (List.of_mem_zip hp).1)
    have hkey : p.1.1 = p.2.1 := by
      obtain ⟨i, hi, rfl⟩ := List.getElem_of_mem hp
      rw [List.length_zip] at hi
      have := List.getElem_of_eq hkeys (i := i) (by rw [Entries.keys, List.length_map]; omega)
      simpa only [Entries.keys, List.getElem_map, List.getElem_zip] using this
    rw [entryText, entryText, hchars, hkey]

-- ---------------------------------------------------------------------------
-- The order of a document
-- ---------------------------------------------------------------------------

mutual

/-- The value with the entries of its records in the order of their keys. -/
def canonical : Value → Value
  | .list vs => .list (canonicalItems vs)
  | .map es  => .map (sortByKey (canonicalEntries es))
  | v        => v

def canonicalItems : List Value → List Value
  | []      => []
  | v :: vs => canonical v :: canonicalItems vs

def canonicalEntries : List (Value × Value) → List (Value × Value)
  | []      => []
  | e :: es => (e.1, canonical e.2) :: canonicalEntries es

end

theorem canonical_list (vs : List Value) : canonical (.list vs) = .list (vs.map canonical) := by
  have hitems : canonicalItems vs = vs.map canonical := by
    induction vs with
    | nil => rw [canonicalItems, List.map_nil]
    | cons v vs ih => rw [canonicalItems, ih, List.map_cons]
  rw [canonical, hitems]

theorem canonical_record (es : Entries Value) :
    canonical (.record es) = .record ((sorted es).map fun e => (e.1, canonical e.2)) := by
  have hentries : ∀ l : List (Value × Value),
      canonicalEntries l = l.map fun e => (e.1, canonical e.2) := by
    intro l
    induction l with
    | nil => rw [canonicalEntries, List.map_nil]
    | cons e l ih => rw [canonicalEntries, ih, List.map_cons]
  have hsort : sortByKey (es.map fun e => (Value.text e.1, canonical e.2)) =
      (sorted es).map fun e => (Value.text e.1, canonical e.2) :=
    (List.map_mergeSort (l := es) (f := fun e => (Value.text e.1, canonical e.2))
      (r := fun a b : String × Value => keyLe (.text a.1) (.text b.1))
      (s := fun a b : Value × Value => keyLe a.1 b.1) fun _ _ _ _ => rfl).symm
  have hcompose : (es.map fun e => (Value.text e.1, e.2)).map (fun e => (e.1, canonical e.2)) =
      es.map fun e => (Value.text e.1, canonical e.2) := List.map_map
  rw [Value.record, canonical, hentries, hcompose, hsort, Value.record, List.map_map]
  rfl

theorem canonical_of_isScalar {v : Value} (h : IsScalar v) : canonical v = v := by
  cases v with
  | list vs => exact absurd h id
  | map es => exact absurd h id
  | _ => rw [canonical] <;> simp

theorem reordered_canonical {v : Value} (hv : IsTree v) : Reordered v (canonical v) := by
  induction hv with
  | @list vs h ih =>
    rw [canonical_list]
    refine .list (List.length_map _).symm fun p hp => ?_
    obtain ⟨i, hi, rfl⟩ := List.getElem_of_mem hp
    rw [List.getElem_zip, List.getElem_map]
    exact ih _ (List.getElem_mem _)
  | @record es hn h ih =>
    rw [canonical_record]
    refine .record (Entries.keys_map canonical).symm (fun p hp => ?_)
      ((sorted_perm es).symm.map _)
    obtain ⟨i, hi, rfl⟩ := List.getElem_of_mem hp
    rw [List.getElem_zip, List.getElem_map]
    exact ih _ (List.getElem_mem _)
  | null => exact .leaf trivial
  | bool b => exact .leaf trivial
  | int h => exact .leaf trivial
  | text s => exact .leaf trivial

end ListQuery.Json
