import Mathlib.Data.List.Dedup
import ListQuery.Proofs.Failure
import ListQuery.Proofs.Sql.Order

/-!
# Walking through a changing list

Pages cut one after the other out of a list that may be another one each time. Each page holds the
first elements in order that come strictly after the last element of the page before, and the walk
ends at the first page that leaves nothing over. What was delivered is in strict order, and an
element that was in the list whenever a page was cut is among it when the walk has ended.

* `pages` — the pages of a walk;
* `isAfter_of_mem_pages` — the invariant: all that is still delivered comes after the mark;
* `pairwise_pages`, `mem_pages_of_ended` — order and completeness of a walk;
* `hasEnded_replicate`, `perm_delivered_replicate` — a walk through one list.
-/

namespace ListQuery.Walk

open Sql (IsTotalOn)

variable {α : Type} (le : α → α → Bool)

/-- Whether an element comes strictly after a mark, if there is one. -/
def isAfter (mark : Option α) (a : α) : Bool := mark.all fun x => !le a x

/-- The elements after a mark, in order. -/
def ahead (m : List α) (mark : Option α) : List α := (m.filter (isAfter le mark)).mergeSort le

/-- The pages of a walk from a mark on, each with whether another one follows. Each call has the
list as it is then and the size of its page. -/
def pages : List (List α × Nat) → Option α → List (List α × Bool)
  | [],              _    => []
  | (m, n) :: calls, mark =>
    let page := (ahead le m mark).take n
    if n < (ahead le m mark).length then (page, true) :: pages calls page.getLast?
    else [(page, false)]

/-- All that some pages deliver, in the order in which they do. -/
def delivered (ps : List (List α × Bool)) : List α := ps.flatMap (·.1)

/-- Whether the last of some pages says that no other one follows. -/
def hasEnded (ps : List (List α × Bool)) : Bool := ps.getLast?.any fun p => !p.2

variable {le}

theorem mem_ahead {m : List α} {mark : Option α} {a : α} :
    a ∈ ahead le m mark ↔ a ∈ m ∧ isAfter le mark a = true := by
  rw [ahead, List.mem_mergeSort, List.mem_filter]

-- ---------------------------------------------------------------------------
-- One page
-- ---------------------------------------------------------------------------

section
variable {m : List α} {n : Nat} {calls : List (List α × Nat)} {mark : Option α}

theorem pages_more (h : n < (ahead le m mark).length) :
    pages le ((m, n) :: calls) mark =
      ((ahead le m mark).take n, true) :: pages le calls ((ahead le m mark).take n).getLast? :=
  if_pos h

theorem pages_last (h : ¬n < (ahead le m mark).length) :
    pages le ((m, n) :: calls) mark = [(ahead le m mark, false)] := by
  rw [pages, if_neg h, List.take_of_length_le (by omega)]

/-- Each page is cut out of the list of its call. -/
theorem forall₂_pages (le : α → α → Bool) (calls : List (List α × Nat)) (mark : Option α) :
    List.Forall₂ (fun call p => ∀ a ∈ p.1, a ∈ call.1) (calls.take (pages le calls mark).length)
      (pages le calls mark) := by
  induction calls generalizing mark with
  | nil => exact .nil
  | cons call calls ih =>
    obtain ⟨m, n⟩ := call
    by_cases h : n < (ahead le m mark).length
    · rw [pages_more h, List.length_cons, List.take_succ_cons]
      exact .cons (fun a ha => (mem_ahead.mp (List.mem_of_mem_take ha)).1) (ih _)
    · rw [pages_last h]
      exact .cons (fun a ha => (mem_ahead.mp ha).1) .nil

/-- A page after which another one follows has a last element, if pages have room for one. -/
theorem exists_getLast? (hn : 1 ≤ n) (h : n < (ahead le m mark).length) :
    ∃ x, ((ahead le m mark).take n).getLast? = some x ∧ x ∈ (ahead le m mark).take n := by
  have hne : (ahead le m mark).take n ≠ [] := by
    intro hnil
    have hlength := congrArg List.length hnil
    rw [List.length_take, List.length_nil] at hlength
    omega
  exact ⟨_, List.getLast?_eq_some_getLast hne, List.getLast_mem hne⟩

end

-- ---------------------------------------------------------------------------
-- Order
-- ---------------------------------------------------------------------------

/-- Lists of comparable elements no two of which are equal in the order. -/
structure IsRanked (P : α → Prop) (le : α → α → Bool) (m : List α) : Prop where
  comparable : ∀ a ∈ m, P a
  distinct   : m.Pairwise fun a b => ¬(le a b = true ∧ le b a = true)

variable {P : α → Prop} {calls : List (List α × Nat)} {mark : Option α}

/-- A list of distinct elements is put in strict order. -/
theorem pairwise_ahead (h : IsTotalOn le P) {m : List α} (hm : IsRanked P le m) :
    (ahead le m mark).Pairwise fun a b => le b a = false := by
  have hsub : ∀ a ∈ m.filter (isAfter le mark), P a :=
    fun a ha => hm.comparable a (List.mem_filter.mp ha).1
  have hsorted := h.pairwise_mergeSort hsub
  have hdistinct : (ahead le m mark).Pairwise fun a b => ¬(le a b = true ∧ le b a = true) := by
    rw [ahead, (List.mergeSort_perm _ _).pairwise_iff fun hab hba => hab hba.symm]
    exact hm.distinct.filter _
  refine (hsorted.and hdistinct).imp fun {a b} hab => ?_
  rw [← Bool.not_eq_true]
  exact fun hba => hab.2 ⟨hab.1, hba⟩

theorem mem_of_getLast? {m : List α} {n : Nat} {x : α}
    (hx : ((ahead le m mark).take n).getLast? = some x) : x ∈ m :=
  (mem_ahead.mp (List.mem_of_mem_take (List.mem_of_mem_getLast? hx))).1

/-- The last of the first elements comes before all that are left over. -/
theorem isAfter_getLast {l : List α} (hl : l.Pairwise fun a b => le b a = false) {n : Nat} {x a : α}
    (hx : (l.take n).getLast? = some x) (ha : a ∈ l.drop n) : isAfter le (some x) a = true := by
  rw [← List.take_append_drop n l, List.pairwise_append] at hl
  rw [isAfter, Option.all_some, hl.2.2 x (List.mem_of_mem_getLast? hx) a ha]
  rfl

/-- The last of the first elements comes after none of them. -/
theorem le_getLast {l : List α} (h : IsTotalOn le P) (hP : ∀ a ∈ l, P a)
    (hl : l.Pairwise fun a b => le b a = false) {n : Nat} {x a : α}
    (hx : (l.take n).getLast? = some x) (ha : a ∈ l.take n) : le a x = true := by
  obtain ⟨init, hinit⟩ := List.getLast?_eq_some_iff.mp hx
  have hxP : P x := hP x (List.mem_of_mem_take (List.mem_of_mem_getLast? hx))
  have haP : P a := hP a (List.mem_of_mem_take ha)
  have hl' : (init ++ [x]).Pairwise fun a b => le b a = false :=
    hinit ▸ hl.sublist (List.take_sublist n l)
  rw [hinit, List.mem_append, List.mem_singleton] at ha
  rcases ha with ha | rfl
  · exact h.le_of_not_le hxP haP ((List.pairwise_append.mp hl').2.2 a ha x List.mem_cons_self)
  · exact h.refl hxP

/-- What comes after an element that comes after a mark comes after the mark. -/
theorem isAfter_trans (h : IsTotalOn le P) (hmark : ∀ y ∈ mark, P y) {x a : α} (hx : P x)
    (ha : P a) (hxm : isAfter le mark x = true) (hax : isAfter le (some x) a = true) :
    isAfter le mark a = true := by
  cases mark with
  | none => rfl
  | some y =>
    rw [isAfter, Option.all_some, Bool.not_eq_true'] at hxm hax ⊢
    have hy := hmark y rfl
    exact h.not_le_of_lt_of_le hy hx ha hxm (h.le_of_not_le ha hx hax)

/-- All that a walk still delivers comes after its mark. -/
theorem isAfter_of_mem_pages (h : IsTotalOn le P) (hcalls : ∀ call ∈ calls, IsRanked P le call.1)
    (hsize : ∀ call ∈ calls, 1 ≤ call.2) (hmark : ∀ y ∈ mark, P y) :
    ∀ a ∈ delivered (pages le calls mark), P a ∧ isAfter le mark a = true := by
  induction calls generalizing mark with
  | nil => exact fun a ha => absurd ha List.not_mem_nil
  | cons call calls ih =>
    obtain ⟨m, n⟩ := call
    have hm : IsRanked P le m := hcalls (m, n) List.mem_cons_self
    have hfirst : ∀ a ∈ ahead le m mark, P a ∧ isAfter le mark a = true := fun a ha =>
      ⟨hm.comparable a (mem_ahead.mp ha).1, (mem_ahead.mp ha).2⟩
    intro a ha
    by_cases hmore : n < (ahead le m mark).length
    · rw [pages_more hmore, delivered, List.flatMap_cons, List.mem_append] at ha
      obtain ⟨x, hx, hxmem⟩ := exists_getLast? (hsize (m, n) List.mem_cons_self) hmore
      obtain ⟨hxP, hxmark⟩ := hfirst x (List.mem_of_mem_take hxmem)
      rcases ha with ha | ha
      · exact hfirst a (List.mem_of_mem_take ha)
      · -- a later page comes after the last element of this one
        rw [hx] at ha
        have hmark' : ∀ y ∈ some x, P y := fun y hy => (Option.some.inj hy) ▸ hxP
        obtain ⟨haP, hax⟩ := ih (fun c hc => hcalls c (List.mem_cons_of_mem _ hc))
          (fun c hc => hsize c (List.mem_cons_of_mem _ hc)) hmark' a ha
        exact ⟨haP, isAfter_trans h hmark hxP haP hxmark hax⟩
    · rw [pages_last hmore, delivered, List.flatMap_singleton] at ha
      exact hfirst a ha

/-- What a walk delivers is in strict order. -/
theorem pairwise_pages (h : IsTotalOn le P) (hcalls : ∀ call ∈ calls, IsRanked P le call.1)
    (hsize : ∀ call ∈ calls, 1 ≤ call.2) :
    (delivered (pages le calls mark)).Pairwise fun a b => le b a = false := by
  induction calls generalizing mark with
  | nil => exact .nil
  | cons call calls ih =>
    obtain ⟨m, n⟩ := call
    have hm : IsRanked P le m := hcalls (m, n) List.mem_cons_self
    have hcalls' : ∀ call ∈ calls, IsRanked P le call.1 :=
      fun c hc => hcalls c (List.mem_cons_of_mem _ hc)
    have hsize' : ∀ call ∈ calls, 1 ≤ call.2 := fun c hc => hsize c (List.mem_cons_of_mem _ hc)
    have hstrict : (ahead le m mark).Pairwise fun a b => le b a = false := pairwise_ahead h hm
    have hP : ∀ a ∈ ahead le m mark, P a := fun a ha => hm.comparable a (mem_ahead.mp ha).1
    by_cases hmore : n < (ahead le m mark).length
    · obtain ⟨x, hx, hxmem⟩ := exists_getLast? (hsize (m, n) List.mem_cons_self) hmore
      have hxP : P x := hP x (List.mem_of_mem_take hxmem)
      rw [pages_more hmore, delivered, List.flatMap_cons, List.pairwise_append]
      refine ⟨hstrict.sublist (List.take_sublist n _), ih hcalls' hsize', fun a ha b hb => ?_⟩
      -- the page is up to its last element, and the later pages come after that
      rw [hx] at hb
      have hmark' : ∀ y ∈ some x, P y := fun y hy => (Option.some.inj hy) ▸ hxP
      obtain ⟨hbP, hbx⟩ := isAfter_of_mem_pages h hcalls' hsize' hmark' b hb
      rw [isAfter, Option.all_some, Bool.not_eq_true'] at hbx
      exact h.not_le_of_le_of_lt (hP a (List.mem_of_mem_take ha)) hxP hbP
        (le_getLast h hP hstrict hx ha) hbx
    · rw [pages_last hmore, delivered, List.flatMap_singleton]
      exact hstrict

-- ---------------------------------------------------------------------------
-- Completeness
-- ---------------------------------------------------------------------------

theorem hasEnded_cons_more (page : List α) (ps : List (List α × Bool)) :
    hasEnded ((page, true) :: ps) = hasEnded ps := by
  rw [hasEnded, hasEnded, List.getLast?_cons]
  cases ps.getLast? <;> rfl

/-- An element that had a stand-in in the list of every call of a walk that has ended was delivered
by one of them, if it comes after the mark from which the walk began. -/
theorem mem_pages_of_ended (h : IsTotalOn le P) (hcalls : ∀ call ∈ calls, IsRanked P le call.1)
    (hsize : ∀ call ∈ calls, 1 ≤ call.2) (hended : hasEnded (pages le calls mark) = true) {a : α}
    (hmark : isAfter le mark a = true) {standsIn : α → Prop}
    (hplace : ∀ b, standsIn b → ∀ x, le b x = le a x)
    (hpresent : ∀ call ∈ calls.take (pages le calls mark).length, ∃ b ∈ call.1, standsIn b) :
    ∃ b ∈ delivered (pages le calls mark), standsIn b := by
  induction calls generalizing mark with
  | nil => cases hended
  | cons call calls ih =>
    obtain ⟨m, n⟩ := call
    have hm : IsRanked P le m := hcalls (m, n) List.mem_cons_self
    have hplaceAfter : ∀ (mark : Option α) (b : α), standsIn b →
        isAfter le mark b = isAfter le mark a := by
      intro mark b hb
      cases mark with
      | none => rfl
      | some x => rw [isAfter, isAfter, Option.all_some, Option.all_some, hplace b hb]
    -- the stand-in of the first call is after the mark as the element is
    obtain ⟨b, hbm, hb⟩ : ∃ b ∈ m, standsIn b := by
      have hlength : 0 < (pages le ((m, n) :: calls) mark).length := by
        by_cases hmore : n < (ahead le m mark).length
        · rw [pages_more hmore]
          exact Nat.succ_pos _
        · rw [pages_last hmore]
          exact Nat.one_pos
      refine hpresent (m, n) ?_
      rw [← Nat.sub_add_cancel hlength, List.take_succ_cons]
      exact List.mem_cons_self
    have hahead : b ∈ ahead le m mark := mem_ahead.mpr ⟨hbm, (hplaceAfter mark b hb).trans hmark⟩
    by_cases hmore : n < (ahead le m mark).length
    · obtain ⟨x, hx, hxmem⟩ := exists_getLast? (hsize (m, n) List.mem_cons_self) hmore
      rw [pages_more hmore] at hended hpresent ⊢
      rw [hasEnded_cons_more] at hended
      rw [List.length_cons, List.take_succ_cons] at hpresent
      rw [delivered, List.flatMap_cons]
      rw [← List.take_append_drop n (ahead le m mark), List.mem_append] at hahead
      rcases hahead with hpage | hrest
      · exact ⟨b, List.mem_append_left _ hpage, hb⟩
      · -- what is left over comes after the last element of the page
        have hafter : isAfter le (some x) a = true :=
          (hplaceAfter (some x) b hb).symm.trans (isAfter_getLast (pairwise_ahead h hm) hx hrest)
        rw [hx] at hended hpresent ⊢
        obtain ⟨d, hd, hsd⟩ := ih (fun c hc => hcalls c (List.mem_cons_of_mem _ hc))
          (fun c hc => hsize c (List.mem_cons_of_mem _ hc)) hended hafter
          fun c hc => hpresent c (List.mem_cons_of_mem _ hc)
        exact ⟨d, List.mem_append_right _ hd, hsd⟩
    · rw [pages_last hmore, delivered, List.flatMap_singleton]
      exact ⟨b, hahead, hb⟩

-- ---------------------------------------------------------------------------
-- One list
-- ---------------------------------------------------------------------------

/-- After a page less of a list is ahead than before it. -/
theorem length_ahead_lt (h : IsTotalOn le P) {m : List α} (hm : IsRanked P le m)
    (hmark : ∀ y ∈ mark, P y) {x : α} (hx : x ∈ ahead le m mark) :
    (ahead le m (some x)).length < (ahead le m mark).length := by
  obtain ⟨hxm, hxmark⟩ := mem_ahead.mp hx
  have hxP : P x := hm.comparable x hxm
  have hsub : m.filter (isAfter le (some x)) =
      (m.filter (isAfter le mark)).filter (isAfter le (some x)) := by
    rw [List.filter_filter]
    refine List.filter_congr fun a ha => ?_
    cases hax : isAfter le (some x) a with
    | false => rfl
    | true => rw [isAfter_trans h hmark hxP (hm.comparable a ha) hxmark hax, Bool.and_true]
  rw [ahead, ahead, List.length_mergeSort, List.length_mergeSort, hsub,
    List.length_filter_lt_length_iff_exists]
  refine ⟨x, List.mem_filter.mpr ⟨hxm, hxmark⟩, ?_⟩
  rw [isAfter, Option.all_some, h.refl hxP]
  exact Bool.false_ne_true

/-- A walk through a list that stays as it is has ended after as many calls as there are elements
ahead, and one more. -/
theorem hasEnded_replicate (h : IsTotalOn le P) {m : List α} (hm : IsRanked P le m) {n : Nat}
    (hn : 1 ≤ n) {k : Nat} (hmark : ∀ y ∈ mark, P y) (hk : (ahead le m mark).length < k) :
    hasEnded (pages le (List.replicate k (m, n)) mark) = true := by
  induction k generalizing mark with
  | zero => exact absurd hk (Nat.not_lt_zero _)
  | succ k ih =>
    rw [List.replicate_succ]
    by_cases hmore : n < (ahead le m mark).length
    · obtain ⟨x, hx, hxmem⟩ := exists_getLast? hn hmore
      have hlt := length_ahead_lt h hm hmark (List.mem_of_mem_take hxmem)
      have hxP : P x := hm.comparable x (mem_ahead.mp (List.mem_of_mem_take hxmem)).1
      rw [pages_more hmore, hasEnded_cons_more, hx]
      exact ih (fun y hy => (Option.some.inj hy) ▸ hxP) (by omega)
    · rw [pages_last hmore]
      rfl

theorem length_ahead_le (m : List α) (mark : Option α) : (ahead le m mark).length ≤ m.length := by
  rw [ahead, List.length_mergeSort]
  exact List.length_filter_le _ _

/-- A walk through a list that stays as it is delivers each of its elements once. -/
theorem perm_delivered_replicate (h : IsTotalOn le P) {m : List α} (hm : IsRanked P le m) {n : Nat}
    (hn : 1 ≤ n) {k : Nat} (hk : m.length < k) :
    (delivered (pages le (List.replicate k (m, n)) none)).Perm m := by
  have hcalls : ∀ call ∈ List.replicate k (m, n), call = (m, n) := fun call hcall =>
    List.eq_of_mem_replicate hcall
  have hranked : ∀ call ∈ List.replicate k (m, n), IsRanked P le call.1 := by
    intro call hcall
    rw [hcalls call hcall]
    exact hm
  have hsize : ∀ call ∈ List.replicate k (m, n), 1 ≤ call.2 := by
    intro call hcall
    rw [hcalls call hcall]
    exact hn
  have hnone : ∀ y ∈ (none : Option α), P y := fun y hy => absurd hy (Option.not_mem_none y)
  have hP := isAfter_of_mem_pages h hranked hsize hnone
  have hnodup : (delivered (pages le (List.replicate k (m, n)) none)).Nodup := by
    refine (pairwise_pages h hranked hsize).imp_of_mem ?_
    rintro a b ha - hba rfl
    rw [h.refl (hP a ha).1] at hba
    cases hba
  have hnodup' : m.Nodup := by
    refine hm.distinct.imp_of_mem ?_
    rintro a b ha - hab rfl
    exact hab ⟨h.refl (hm.comparable a ha), h.refl (hm.comparable a ha)⟩
  rw [List.perm_ext_iff_of_nodup hnodup hnodup']
  intro a
  constructor
  · intro ha
    obtain ⟨p, hp, ha⟩ := List.mem_flatMap.mp ha
    obtain ⟨call, hcall, hall⟩ := exists_of_mem_forall₂ (forall₂_pages le _ none) hp
    have hmem := hall a ha
    rwa [hcalls call (List.mem_of_mem_take hcall)] at hmem
  · intro ha
    have hended := hasEnded_replicate h hm hn hnone (Nat.lt_of_le_of_lt (length_ahead_le m none) hk)
    obtain ⟨b, hb, rfl⟩ := mem_pages_of_ended h hranked hsize hended
      (rfl : isAfter le none a = true) (fun b (hb : b = a) x => by rw [hb]) (by
        intro call hcall
        rw [hcalls call (List.mem_of_mem_take hcall)]
        exact ⟨a, ha, rfl⟩)
    exact hb

end ListQuery.Walk
