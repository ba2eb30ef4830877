import ListQuery.Proofs.Sql.Engine

/-!
# The order of rows

An engine that orders the values of each key column orders rows by any list of keys: whatever the
directions, and wherever rows without a value stand, the keys compared one after the other are a
total order again, in which only rows that agree by every key are equal.

* `IsTotalOn` — a comparison that is a total order of some elements;
* `IsTotalOn.keyLe`, `IsTotalOn.sceneLe` — one key, and a list of keys;
* `IsTotalOn.pairwise_mergeSort` — sorting by such a comparison.
-/

namespace ListQuery.Sql

/-- A comparison that is transitive and leaves no two of some elements incomparable. -/
structure IsTotalOn {α : Type} (le : α → α → Bool) (P : α → Prop) : Prop where
  total : ∀ {a b : α}, P a → P b → le a b = true ∨ le b a = true
  trans : ∀ {a b c : α}, P a → P b → P c → le a b = true → le b c = true → le a c = true

namespace IsTotalOn

variable {α β : Type} {le : α → α → Bool} {P : α → Prop} {a b c : α}

theorem refl (h : IsTotalOn le P) (ha : P a) : le a a = true := or_self_iff.mp (h.total ha ha)

theorem le_of_not_le (h : IsTotalOn le P) (ha : P a) (hb : P b) (hab : le a b = false) :
    le b a = true := by
  rcases h.total ha hb with h | h
  · rw [hab] at h
    cases h
  · exact h

theorem not_le_of_lt_of_le (h : IsTotalOn le P) (ha : P a) (hb : P b) (hc : P c)
    (hba : le b a = false) (hbc : le b c = true) : le c a = false := by
  refine Bool.eq_false_iff.mpr fun hca => ?_
  rw [h.trans hb hc ha hbc hca] at hba
  cases hba

theorem not_le_of_le_of_lt (h : IsTotalOn le P) (ha : P a) (hb : P b) (hc : P c)
    (hab : le a b = true) (hcb : le c b = false) : le c a = false := by
  refine Bool.eq_false_iff.mpr fun hca => ?_
  rw [h.trans hc ha hb hca hab] at hcb
  cases hcb

theorem comap (h : IsTotalOn le P) (f : β → α) :
    IsTotalOn (fun a b => le (f a) (f b)) fun b => P (f b) :=
  ⟨fun ha hb => h.total ha hb, fun ha hb hc => h.trans ha hb hc⟩

/-- The comparison the other way around. -/
theorem reverse (h : IsTotalOn le P) : IsTotalOn (fun a b => le b a) P :=
  ⟨fun ha hb => (h.total ha hb).symm, fun ha hb hc hab hbc => h.trans hc hb ha hbc hab⟩

/-- Elements that are all equal can stand before the others, or after them. -/
theorem setApart {le' : α → α → Bool} {out : α → Bool} {first : Bool} (h : IsTotalOn le P)
    (hout : ∀ {a b}, out a = true → out b = true → le' a b = true)
    (hbefore : ∀ {a b}, out a = true → out b = false → le' a b = first)
    (hafter : ∀ {a b}, out a = false → out b = true → le' a b = !first)
    (hin : ∀ {a b}, out a = false → out b = false → le' a b = le a b) :
    IsTotalOn le' fun a => out a = true ∨ P a where
  total := by
    intro a b ha hb
    cases hoa : out a with
    | true =>
      cases hob : out b with
      | true => exact .inl (hout hoa hob)
      | false =>
        rw [hbefore hoa hob, hafter hob hoa, Bool.not_eq_true']
        exact Bool.eq_false_or_eq_true first
    | false =>
      cases hob : out b with
      | true =>
        rw [hafter hoa hob, hbefore hob hoa, Bool.not_eq_true']
        exact (Bool.eq_false_or_eq_true first).symm
      | false =>
        rw [hin hoa hob, hin hob hoa]
        exact h.total (ha.resolve_left (Bool.eq_false_iff.mp hoa))
          (hb.resolve_left (Bool.eq_false_iff.mp hob))
  trans := by
    intro a b c ha hb hc hab hbc
    cases hoa : out a with
    | true =>
      cases hoc : out c with
      | true => exact hout hoa hoc
      | false =>
        rw [hbefore hoa hoc]
        cases hob : out b with
        | true => rwa [hbefore hob hoc] at hbc
        | false => rwa [hbefore hoa hob] at hab
    | false =>
      cases hoc : out c with
      | true =>
        rw [hafter hoa hoc]
        cases hob : out b with
        | true => rwa [hafter hoa hob] at hab
        | false => rwa [hafter hob hoc] at hbc
      | false =>
        cases hob : out b with
        | true =>
          -- the ones set apart would stand on both sides of the others
          rw [hafter hoa hob, Bool.not_eq_true'] at hab
          rw [hbefore hob hoc, hab] at hbc
          cases hbc
        | false =>
          rw [hin hoa hob] at hab
          rw [hin hob hoc] at hbc
          rw [hin hoa hoc]
          exact h.trans (ha.resolve_left (Bool.eq_false_iff.mp hoa))
            (hb.resolve_left (Bool.eq_false_iff.mp hob))
            (hc.resolve_left (Bool.eq_false_iff.mp hoc)) hab hbc

/-- A list of such elements is sorted by sorting it. -/
theorem pairwise_mergeSort (h : IsTotalOn le P) {l : List α} (hl : ∀ a ∈ l, P a) :
    (l.mergeSort le).Pairwise fun a b => le a b = true := by
  -- the elements are sorted together with the proof that they are comparable
  have hsorted : ((l.attachWith P hl).mergeSort fun a b => le a.1 b.1).Pairwise
      fun a b => le a.1 b.1 = true := by
    refine List.pairwise_mergeSort ?_ ?_ _
    · intro a b c
      exact h.trans a.2 b.2 c.2
    · intro a b
      rw [Bool.or_eq_true]
      exact h.total a.2 b.2
  have hmap : ((l.attachWith P hl).mergeSort fun a b => le a.1 b.1).map Subtype.val =
      l.mergeSort le := by
    rw [List.map_mergeSort (s := le) fun _ _ _ _ => rfl, List.attachWith_map_subtype_val]
  rw [← hmap]
  exact List.pairwise_map.mpr hsorted

end IsTotalOn

namespace Engine

variable {g : Engine}

-- ---------------------------------------------------------------------------
-- One key
-- ---------------------------------------------------------------------------

section
variable {k : OrderKey} {v w : Value}

theorem keyLe_null_null (hv : v.isNull = true) (hw : w.isNull = true) : g.keyLe k v w = true := by
  rw [keyLe, hv, hw]

theorem keyLe_null_value (hv : v.isNull = true) (hw : w.isNull = false) :
    g.keyLe k v w = (!k.nullsLast && g.nullsFirst k.direction) := by
  rw [keyLe, hv, hw]

theorem keyLe_value_null (hv : v.isNull = false) (hw : w.isNull = true) :
    g.keyLe k v w = !(!k.nullsLast && g.nullsFirst k.direction) := by
  rw [keyLe, hv, hw]

theorem keyLe_values (hv : v.isNull = false) (hw : w.isNull = false) :
    g.keyLe k v w =
      if k.direction = .descending then g.le k.column w v else g.le k.column v w := by
  rw [keyLe, hv, hw]
  cases k.direction <;> rfl

end

end Engine

namespace IsTotalOn

variable {g : Engine}

/-- A key orders the values of its column, and the rows without one. -/
theorem keyLe {k : OrderKey} {held : Value → Prop} (h : IsTotalOn (g.le k.column) held) :
    IsTotalOn (g.keyLe k) fun v => v.isNull = true ∨ held v := by
  by_cases hd : k.direction = .descending
  · refine h.reverse.setApart Engine.keyLe_null_null Engine.keyLe_null_value
      Engine.keyLe_value_null fun hv hw => ?_
    rw [Engine.keyLe_values hv hw, if_pos hd]
  · refine h.setApart Engine.keyLe_null_null Engine.keyLe_null_value
      Engine.keyLe_value_null fun hv hw => ?_
    rw [Engine.keyLe_values hv hw, if_neg hd]

end IsTotalOn

-- ---------------------------------------------------------------------------
-- Lists of keys
-- ---------------------------------------------------------------------------

namespace Engine

variable {g : Engine} {k : OrderKey} {ks : List OrderKey} {a b : Scene}

theorem sceneLe_cons :
    g.sceneLe (k :: ks) a b = true ↔
      g.keyLe k (a.at k.column) (b.at k.column) = true ∧
        (g.keyLe k (b.at k.column) (a.at k.column) = true → g.sceneLe ks a b = true) := by
  rw [sceneLe, Bool.and_eq_true, Bool.or_eq_true, Bool.not_eq_true']
  refine and_congr_right fun _ => ?_
  cases g.keyLe k (b.at k.column) (a.at k.column)
  · exact iff_of_true (.inl rfl) fun h => by cases h
  · exact ⟨fun h _ => h.resolve_left (by simp), fun h => .inr (h rfl)⟩

/-- Rows that are equal in the order agree by every key. -/
theorem keyLe_of_sceneLe (hab : g.sceneLe ks a b = true) (hba : g.sceneLe ks b a = true) :
    ∀ k ∈ ks, g.keyLe k (a.at k.column) (b.at k.column) = true ∧
      g.keyLe k (b.at k.column) (a.at k.column) = true := by
  induction ks with
  | nil => exact fun k hk => absurd hk List.not_mem_nil
  | cons k ks ih =>
    rw [sceneLe_cons] at hab hba
    intro k' hk'
    rcases List.mem_cons.mp hk' with rfl | hk'
    · exact ⟨hab.1, hba.1⟩
    · exact ih (hab.2 hba.1) (hba.2 hab.1) k' hk'

/-- Rows stand in the order in which others do that have the same values in the key columns. -/
theorem sceneLe_congr {a' b' : Scene} (ha : ∀ k ∈ ks, a.at k.column = a'.at k.column)
    (hb : ∀ k ∈ ks, b.at k.column = b'.at k.column) : g.sceneLe ks a b = g.sceneLe ks a' b' := by
  induction ks with
  | nil => rfl
  | cons k ks ih =>
    rw [sceneLe, sceneLe, ha k List.mem_cons_self, hb k List.mem_cons_self,
      ih (fun k hk => ha k (List.mem_cons_of_mem _ hk)) fun k hk => hb k (List.mem_cons_of_mem _ hk)]

end Engine

namespace IsTotalOn

variable {g : Engine} {Q : OrderKey → Value → Prop} {ks : List OrderKey}

/-- Keys that each order the values that rows have by them order the rows. -/
theorem sceneLe (h : ∀ k ∈ ks, IsTotalOn (g.keyLe k) (Q k)) :
    IsTotalOn (g.sceneLe ks) fun s => ∀ k ∈ ks, Q k (s.at k.column) := by
  induction ks with
  | nil => exact ⟨fun _ _ => .inl rfl, fun _ _ _ _ _ => rfl⟩
  | cons k ks ih =>
    have hk := h k List.mem_cons_self
    have ih := ih fun k' hk' => h k' (List.mem_cons_of_mem _ hk')
    constructor
    · intro a b ha hb
      have hak := ha k List.mem_cons_self
      have hbk := hb k List.mem_cons_self
      rw [Engine.sceneLe_cons, Engine.sceneLe_cons]
      rcases ih.total (fun k' hk' => ha k' (List.mem_cons_of_mem _ hk'))
        (fun k' hk' => hb k' (List.mem_cons_of_mem _ hk')) with hrest | hrest
      · -- the rows agree by this key, or one of the two orders is strict
        cases hab : g.keyLe k (a.at k.column) (b.at k.column) with
        | true => exact .inl ⟨rfl, fun _ => hrest⟩
        | false => exact .inr ⟨hk.le_of_not_le hak hbk hab, fun h => by cases h⟩
      · cases hba : g.keyLe k (b.at k.column) (a.at k.column) with
        | true => exact .inr ⟨rfl, fun _ => hrest⟩
        | false => exact .inl ⟨hk.le_of_not_le hbk hak hba, fun h => by cases h⟩
    · intro a b c ha hb hc hab hbc
      have hak := ha k List.mem_cons_self
      have hbk := hb k List.mem_cons_self
      have hck := hc k List.mem_cons_self
      rw [Engine.sceneLe_cons] at hab hbc ⊢
      refine ⟨hk.trans hak hbk hck hab.1 hbc.1, fun hca => ?_⟩
      -- the ends agree by this key, so the row between them does
      exact ih.trans (fun k' hk' => ha k' (List.mem_cons_of_mem _ hk'))
        (fun k' hk' => hb k' (List.mem_cons_of_mem _ hk'))
        (fun k' hk' => hc k' (List.mem_cons_of_mem _ hk'))
        (hab.2 (hk.trans hbk hck hak hbc.1 hca)) (hbc.2 (hk.trans hck hak hbk hca hab.1))

end IsTotalOn

end ListQuery.Sql
