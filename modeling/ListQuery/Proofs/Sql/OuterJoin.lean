import Mathlib.Data.List.Perm.Basic
import ListQuery.Proofs.Loading.Group
import ListQuery.Proofs.Sql.Order
import ListQuery.Proofs.Sql.Truth
import ListQuery.Proofs.Execution.OneTable

/-!
# Statements with one more join

An outer join loses no row: each row of the statement stays, once for each partner or once with
nothing in the columns of the joined table, and all else that is read of it stays as it was. Where no
row has two partners the rows even stay in their places, whatever the order and the cut.

* `Repeats` — a list whose elements come several times over;
* `found_joining` — the rows of a statement with one more join;
* `repeats_rows_joining`, `forall₂_rows_joining` — what is read of them.
-/

namespace ListQuery

-- ---------------------------------------------------------------------------
-- Elements that come several times over
-- ---------------------------------------------------------------------------

section
variable {α α' β β' : Type} {R : α → β → Prop} {S : α → α' → Prop} {T : β → β' → Prop}
  {R' : α' → β' → Prop} {as : List α} {as' : List α'} {bs : List β} {bs' : List β'}

/-- Every element of the first list has one counterpart or more in the second one, and these are
all there is, in some order. -/
def Repeats (R : α → β → Prop) (as : List α) (bs : List β) : Prop :=
  ∃ groups : List (List β), List.Forall₂ (fun a group => group ≠ [] ∧ ∀ b ∈ group, R a b) as groups ∧
    groups.flatten.Perm bs

/-- Counterparts that are found one element after the other, and then put in some order. -/
theorem repeats_of_perm_flatMap {γ : Type} {l : List γ} {f : γ → α} {k : γ → List β}
    (h : ∀ c ∈ l, k c ≠ [] ∧ ∀ b ∈ k c, R (f c) b) (hp : (l.flatMap k).Perm bs) :
    Repeats R (l.map f) bs := by
  refine ⟨l.map k, ?_, ?_⟩
  · rw [List.forall₂_map_left_iff, List.forall₂_map_right_iff, List.forall₂_same]
    exact h
  · rwa [← List.flatMap_def]

theorem exists_forall₂_flatten {groups : List (List β)} (h : List.Forall₂ T groups.flatten bs') :
    ∃ groups' : List (List β'), List.Forall₂ (List.Forall₂ T) groups groups' ∧
      groups'.flatten = bs' := by
  induction groups generalizing bs' with
  | nil =>
    obtain rfl := List.forall₂_nil_left_iff.mp h
    exact ⟨[], .nil, rfl⟩
  | cons group groups ih =>
    rw [List.flatten_cons] at h
    obtain ⟨groups', hgroups, hrest⟩ := ih (List.forall₂_drop_append _ _ _ h.flip).flip
    refine ⟨_ :: groups', .cons (List.forall₂_take_append _ _ _ h.flip).flip hgroups, ?_⟩
    rw [List.flatten_cons, hrest, List.take_append_drop]

/-- What becomes of the elements and of their counterparts. -/
theorem Repeats.trans (h : Repeats R as bs) (hS : List.Forall₂ S as as') (hT : List.Forall₂ T bs bs')
    (himp : ∀ {a b a' b'}, R a b → S a a' → T b b' → R' a' b') : Repeats R' as' bs' := by
  obtain ⟨groups, hgroups, hperm⟩ := h
  obtain ⟨bs₂, hT₂, hperm₂⟩ := List.perm_comp_forall₂ hperm hT
  obtain ⟨groups', hgroups', rfl⟩ := exists_forall₂_flatten hT₂
  refine ⟨groups', ?_, hperm₂⟩
  clear hperm hT hT₂ hperm₂
  induction hgroups generalizing as' groups' with
  | nil =>
    cases hS
    cases hgroups'
    exact .nil
  | @cons a group as groups hgroup _ ih =>
    obtain ⟨a', as', ha, has, rfl⟩ := List.forall₂_cons_left_iff.mp hS
    obtain ⟨group', groups', hg, hgs, rfl⟩ := List.forall₂_cons_left_iff.mp hgroups'
    refine .cons ⟨?_, fun b' hb' => ?_⟩ (ih has groups' hgs)
    · rintro rfl
      exact hgroup.1 (List.forall₂_nil_right_iff.mp hg)
    · obtain ⟨b, hb, hbb'⟩ := exists_of_mem_forall₂ hg hb'
      exact himp (hgroup.2 b hb) ha hbb'

theorem Repeats.exists_left (h : Repeats R as bs) {b : β} (hb : b ∈ bs) : ∃ a ∈ as, R a b := by
  obtain ⟨groups, hgroups, hperm⟩ := h
  obtain ⟨group, hgroup, hb⟩ := List.mem_flatten.mp (hperm.mem_iff.mpr hb)
  obtain ⟨a, ha, hag⟩ := exists_of_mem_forall₂ hgroups hgroup
  exact ⟨a, ha, hag.2 b hb⟩

theorem Repeats.exists_right (h : Repeats R as bs) {a : α} (ha : a ∈ as) : ∃ b ∈ bs, R a b := by
  obtain ⟨groups, hgroups, hperm⟩ := h
  obtain ⟨group, hgroup, hag⟩ := exists_of_mem_forall₂ hgroups.flip ha
  obtain ⟨b, hb⟩ := List.exists_mem_of_ne_nil group hag.1
  exact ⟨b, hperm.mem_iff.mp (List.mem_flatten.mpr ⟨group, hgroup, hb⟩), hag.2 b hb⟩

end

/-- A way to set rows against rows: it carries over to what becomes of them, and leaves no row
alone. -/
structure IsMatching (L : (Row → Row → Prop) → List Row → List Row → Prop) : Prop where
  refl  : ∀ {R : Row → Row → Prop} (as : List Row), (∀ a, R a a) → L R as as
  trans : ∀ {R S T R' : Row → Row → Prop} {as bs as' bs' : List Row}, L R as bs →
    List.Forall₂ S as as' → List.Forall₂ T bs bs' →
      (∀ {a b a' b' : Row}, R a b → S a a' → T b b' → R' a' b') → L R' as' bs'
  left  : ∀ {R : Row → Row → Prop} {as bs : List Row}, L R as bs → ∀ b ∈ bs, ∃ a ∈ as, R a b
  right : ∀ {R : Row → Row → Prop} {as bs : List Row}, L R as bs → ∀ a ∈ as, ∃ b ∈ bs, R a b

theorem isMatching_repeats : IsMatching Repeats where
  refl {R} as h := by
    have hself : Repeats R (as.map id) as := repeats_of_perm_flatMap
      (fun a _ => ⟨List.cons_ne_nil _ _, List.forall_mem_singleton.mpr (h a)⟩)
      (by rw [List.flatMap_singleton'])
    rwa [List.map_id] at hself
  trans := Repeats.trans
  left h _ := h.exists_left
  right h _ := h.exists_right

theorem isMatching_forall₂ : IsMatching List.Forall₂ where
  refl _ h := List.forall₂_same.mpr fun a _ => h a
  trans {R S T R' as bs as' bs'} h hS hT himp := by
    induction h generalizing as' bs' with
    | nil =>
      obtain rfl := List.forall₂_nil_left_iff.mp hS
      obtain rfl := List.forall₂_nil_left_iff.mp hT
      exact .nil
    | cons hab _ ih =>
      obtain ⟨a', as', ha, has, rfl⟩ := List.forall₂_cons_left_iff.mp hS
      obtain ⟨b', bs', hb, hbs, rfl⟩ := List.forall₂_cons_left_iff.mp hT
      exact .cons (himp hab ha hb) (ih has hbs)
  left h _ := exists_of_mem_forall₂ h
  right h _ := exists_of_mem_forall₂ h.flip

/-- The second row has what the first one has, but for the columns of some names. -/
def Row.AgreeOff (names : List String) (row row' : Row) : Prop :=
  ∀ name ∉ names, row'.get? name = row.get? name

namespace Sql

/-- The name under which a column is read. -/
def Output.name (o : Output) : String := o.label.getD o.column.name

/-- The statement with one more table, of which some columns are read. -/
def Statement.joining (st : Statement) (j : Join) (more : List Output) : Statement :=
  { st with
    joins := st.joins ++ [j]
    projection := match st.projection with
      | .columns os => .columns (os ++ more)
      | .count      => .count }

/-- The rows of the first table decide which rows are kept and how they are ordered, and only
columns of the tables that are there are read. -/
structure Statement.IsPlain (st : Statement) (os : List Output) : Prop where
  projection : st.projection = .columns os
  conditions : ∀ p ∈ st.conditions, p.IsOn st.table.label
  order      : ∀ k ∈ st.order, k.column.table = st.table.label
  outputs    : ∀ o ∈ os, o.column.table ∈ st.labels

namespace Engine

variable {g : Engine} {tables : Tables} {st : Statement} {os more : List Output} {j : Join}
  {s s' : Scene}

-- ---------------------------------------------------------------------------
-- One more table
-- ---------------------------------------------------------------------------

theorem label_notMem_labels (h : (st.joining j more).labels.Nodup) : j.table.label ∉ st.labels := by
  have hlabels : (st.joining j more).labels = st.labels ++ [j.table.label] := by
    show st.table.label :: (st.joins ++ [j]).map _ = _
    rw [List.map_append]
    rfl
  rw [hlabels] at h
  exact List.disjoint_singleton.mp (List.disjoint_of_nodup_append h)

/-- A row and those that it is joined to have the same in the tables that were there. -/
theorem eq_of_mem_extend (h : (st.joining j more).labels.Nodup) (hs : s' ∈ g.extend tables j s)
    {label : String} (hlabel : label ∈ st.labels) : s' label = s label :=
  at_of_mem_extend (fun heq => label_notMem_labels h (heq ▸ hlabel)) hs

/-- An outer join loses no row. -/
theorem extend_ne_nil (houter : j.outer = true) : g.extend tables j s ≠ [] := by
  rw [extend, houter, Bool.true_and]
  split
  case isTrue => exact List.cons_ne_nil _ _
  case isFalse hfound => exact fun hnil => hfound (List.isEmpty_iff.mpr hnil)

/-- A row with at most one partner stays one row. -/
theorem exists_extend_eq (houter : j.outer = true) (hsingle : (g.partners tables s j).length ≤ 1) :
    ∃ s', g.extend tables j s = [s'] := by
  have hne : g.extend tables j s ≠ [] := extend_ne_nil houter
  rw [extend] at hne ⊢
  split
  case isTrue => exact ⟨_, rfl⟩
  case isFalse hfound =>
    rw [if_neg hfound] at hne
    exact List.length_eq_one_iff.mp (Nat.le_antisymm hsingle (List.length_pos_iff.mpr hne))

/-- The rows of a statement with one more table: those that were found, each with its partners. -/
theorem found_joining (hplain : st.IsPlain os) (h : (st.joining j more).labels.Nodup) :
    g.found tables (st.joining j more) = (g.found tables st).flatMap (g.extend tables j) := by
  have hscenes : g.scenes tables (st.joining j more) =
      (g.scenes tables st).flatMap (g.extend tables j) := List.foldl_append
  have haccepts : ∀ s, ∀ s' ∈ g.extend tables j s,
      g.acceptsAll s' st.conditions = g.acceptsAll s st.conditions := fun s s' hs' =>
    acceptsAll_congr (eq_of_mem_extend h hs' List.mem_cons_self) hplain.conditions
  rw [found, hscenes, found, List.filter_flatMap, flatMap_filter_left]
  exact List.flatMap_congr fun s _ => List.filter_congr fun s' hs' => haccepts s s' hs'

/-- What was read of a row is still read of what it is joined to. -/
theorem agreeOff_project (hplain : st.IsPlain os) (h : (st.joining j more).labels.Nodup)
    (hs : s' ∈ g.extend tables j s) :
    Row.AgreeOff (more.map (·.name)) (project os s) (project (os ++ more) s') := by
  intro name hname
  have hkeys : name ∉ Entries.keys (more.map fun o => (o.name, s'.at o.column)) := by
    rw [Entries.keys, List.map_map]
    exact hname
  have hold : os.map (fun o => (o.name, s'.at o.column)) = os.map fun o => (o.name, s.at o.column) :=
    List.map_congr_left fun o ho =>
      congrArg (Prod.mk o.name) (at_congr (eq_of_mem_extend h hs (hplain.outputs o ho)) rfl)
  show Entries.get? name (Entries.ofList ((os ++ more).map fun o => (o.name, s'.at o.column))) = _
  rw [List.map_append, Entries.ofList, List.foldl_append, Entries.get?_foldl_put_of_notMem hkeys,
    hold]
  rfl

theorem sceneLe_of_mem_extend (hplain : st.IsPlain os) (h : (st.joining j more).labels.Nodup)
    {t t' : Scene} (hs : s' ∈ g.extend tables j s) (ht : t' ∈ g.extend tables j t) :
    g.sceneLe st.order s' t' = g.sceneLe st.order s t := by
  refine sceneLe_congr (fun k hk => ?_) fun k hk => ?_
  · exact at_congr (eq_of_mem_extend h hs List.mem_cons_self) (hplain.order k hk)
  · exact at_congr (eq_of_mem_extend h ht List.mem_cons_self) (hplain.order k hk)

-- ---------------------------------------------------------------------------
-- What is read
-- ---------------------------------------------------------------------------

variable (hplain : st.IsPlain os) (h : (st.joining j more).labels.Nodup) (houter : j.outer = true)

include hplain h houter

/-- Without a cut every row comes once for each partner, or once. -/
theorem repeats_rows_joining (hlimit : st.limit = none) :
    Repeats (Row.AgreeOff (more.map (·.name))) (g.rows tables st)
      (g.rows tables (st.joining j more)) := by
  have hprojection : (st.joining j more).projection = .columns (os ++ more) := by
    rw [Statement.joining, hplain.projection]
  have hrows : g.rows tables st =
      ((g.found tables st).mergeSort (g.sceneLe st.order)).map (project os) := by
    rw [rows, hplain.projection, hlimit]
    rfl
  have hrows' : g.rows tables (st.joining j more) =
      ((g.found tables (st.joining j more)).mergeSort (g.sceneLe st.order)).map
        (project (os ++ more)) := by
    rw [rows, hprojection]
    show (cut st.limit _ _).map _ = _
    rw [hlimit]
    rfl
  rw [hrows, hrows']
  refine repeats_of_perm_flatMap (fun s _ => ⟨?_, ?_⟩) (k := fun s =>
    (g.extend tables j s).map (project (os ++ more))) ?_
  · exact fun hnil => extend_ne_nil houter (List.map_eq_nil_iff.mp hnil)
  · rintro row hrow
    obtain ⟨s', hs', rfl⟩ := List.mem_map.mp hrow
    exact agreeOff_project hplain h hs'
  · rw [← List.map_flatMap]
    refine List.Perm.map _ (.trans ?_ (List.mergeSort_perm _ _).symm)
    rw [found_joining hplain h]
    exact (List.mergeSort_perm _ _).flatMap_right _

/-- Where no row has two partners every row keeps its place. -/
theorem forall₂_rows_joining
    (hsingle : ∀ s ∈ g.scenes tables st, (g.partners tables s j).length ≤ 1) :
    List.Forall₂ (Row.AgreeOff (more.map (·.name))) (g.rows tables st)
      (g.rows tables (st.joining j more)) := by
  -- the row that a row is joined to
  let joined (s : Scene) : Scene := ((g.extend tables j s).head?).getD s
  have hextend : ∀ s ∈ g.found tables st, g.extend tables j s = [joined s] := by
    intro s hs
    obtain ⟨s', hs'⟩ := exists_extend_eq houter (hsingle s (List.mem_of_mem_filter hs))
    show _ = [((g.extend tables j s).head?).getD s]
    rw [hs']
    rfl
  have hmem : ∀ s ∈ g.found tables st, joined s ∈ g.extend tables j s := fun s hs =>
    hextend s hs ▸ List.mem_singleton_self _
  have hfound : g.found tables (st.joining j more) = (g.found tables st).map joined := by
    rw [found_joining hplain h, List.map_eq_flatMap]
    exact List.flatMap_congr hextend
  have hsorted : ((g.found tables st).map joined).mergeSort (g.sceneLe st.order) =
      ((g.found tables st).mergeSort (g.sceneLe st.order)).map joined := by
    refine (List.map_mergeSort fun s hs t ht => ?_).symm
    exact (sceneLe_of_mem_extend hplain h (hmem s hs) (hmem t ht)).symm
  have hprojection : (st.joining j more).projection = .columns (os ++ more) := by
    rw [Statement.joining, hplain.projection]
  have hrows' : g.rows tables (st.joining j more) =
      (cut st.limit st.offset ((g.found tables st).mergeSort (g.sceneLe st.order))).map
        fun s => project (os ++ more) (joined s) := by
    rw [rows, hprojection]
    show (cut st.limit st.offset
      ((g.found tables (st.joining j more)).mergeSort (g.sceneLe st.order))).map _ = _
    rw [hfound, hsorted, cut_map, List.map_map]
    rfl
  have hrows : g.rows tables st =
      (cut st.limit st.offset ((g.found tables st).mergeSort (g.sceneLe st.order))).map
        (project os) := by
    rw [rows, hplain.projection]
  rw [hrows, hrows', List.forall₂_map_left_iff, List.forall₂_map_right_iff, List.forall₂_same]
  intro s hs
  have hs : s ∈ g.found tables st :=
    (List.mergeSort_perm _ _).mem_iff.mp (mem_of_mem_cut hs)
  exact agreeOff_project hplain h (hmem s hs)

end Engine

end Sql

end ListQuery

/-!
## Statements that join single rows

Outer joins from the first table, each of which leads to one row at most, set next to every row of
the first table the row that it leads to, or nothing. The rows of the first table that are found, their
order and the cut are those of the statement without the joins.

* `partner`, `joined` — what a row leads to;
* `scenes_joined` — the rows of the joined tables;
* `rows_joined` — what a statement reads of them.
-/

namespace ListQuery.Sql

/-- An outer join from a table to another one, that leads to one row at most from each row. -/
structure Engine.LeadsToOne (g : Engine) (tables : Tables) (base : String) (j : Join) : Prop where
  outer  : j.outer = true
  left   : j.left.table = base
  right  : j.right.table = j.table.label
  single : ∀ o ∈ tables base,
    ((tables j.table.name).filter fun x =>
      g.joins j.left j.right (o j.left.name) (x j.right.name)).length ≤ 1

namespace Engine

variable {g : Engine} {tables : Tables} {base : String} {j : Join} {js : List Join} {st : Statement}
  {os : List Output} {o : Record} {s : Scene}

/-- The row to which a row leads; without any there is nothing in its columns. -/
def partner (g : Engine) (tables : Tables) (j : Join) (o : Record) : Record :=
  ((tables j.table.name).find? fun x =>
    g.joins j.left j.right (o j.left.name) (x j.right.name)).getD fun _ => .null

/-- A row of the first table with the rows to which it leads. -/
def joined (g : Engine) (tables : Tables) (js : List Join) (o : Record) (s : Scene) : Scene :=
  js.foldl (fun s j => s.put j.table.label (g.partner tables j o)) s

theorem joined_of_notMem {label : String} (h : label ∉ js.map (·.table.label)) :
    g.joined tables js o s label = s label := by
  induction js generalizing s with
  | nil => rfl
  | cons j js ih =>
    obtain ⟨hne, hrest⟩ := not_or.mp fun hm => h (List.mem_cons.mpr hm)
    show g.joined tables js o (s.put _ _) label = _
    rw [ih hrest, Scene.put_of_ne _ _ hne]

theorem joined_of_mem (hn : (js.map (·.table.label)).Nodup) (hj : j ∈ js) :
    g.joined tables js o s j.table.label = g.partner tables j o := by
  induction js generalizing s with
  | nil => exact absurd hj List.not_mem_nil
  | cons first js ih =>
    obtain ⟨hfirst, hn⟩ := List.nodup_cons.mp hn
    show g.joined tables js o (s.put _ _) j.table.label = _
    rcases List.mem_cons.mp hj with rfl | hj
    · rw [joined_of_notMem hfirst, Scene.put_self]
    · exact ih hn hj

/-- A join that leads to one row at most leaves each row one row. -/
theorem extend_eq_partner (hj : g.LeadsToOne tables base j) (hne : base ≠ j.table.label)
    (ho : s base = o) (hmem : o ∈ tables base) :
    g.extend tables j s = [s.put j.table.label (g.partner tables j o)] := by
  have hpartners : g.partners tables s j =
      ((tables j.table.name).filter fun x =>
        g.joins j.left j.right (o j.left.name) (x j.right.name)).map fun x =>
          s.put j.table.label x := by
    rw [partners, List.filter_map]
    refine congrArg _ (List.filter_congr fun x _ => ?_)
    have hleft : (s.put j.table.label x).at j.left = o j.left.name := by
      rw [Scene.at, hj.left, Scene.put_of_ne _ _ hne, ho]
    have hright : (s.put j.table.label x).at j.right = x j.right.name := by
      rw [Scene.at, hj.right, Scene.put_self]
    show g.joins j.left j.right _ _ = _
    rw [hleft, hright]
  have hsingle := hj.single o hmem
  rw [partner, ← List.head?_filter]
  cases hfound : (tables j.table.name).filter fun x =>
      g.joins j.left j.right (o j.left.name) (x j.right.name) with
  | nil =>
    rw [extend, hpartners, hfound, hj.outer]
    rfl
  | cons x xs =>
    obtain rfl : xs = [] := by
      rw [hfound, List.length_cons] at hsingle
      exact List.length_eq_zero_iff.mp (by omega)
    rw [extend, hpartners, hfound, hj.outer]
    rfl

/-- Joins that lead to one row at most leave each row one row. -/
theorem follow_eq_joined (hjs : ∀ j ∈ js, g.LeadsToOne tables base j)
    (hne : base ∉ js.map (·.table.label)) (ho : s base = o) (hmem : o ∈ tables base) :
    g.follow tables js s = [g.joined tables js o s] := by
  induction js generalizing s with
  | nil => rfl
  | cons j js ih =>
    obtain ⟨hj, hjs⟩ := List.forall_mem_cons.mp hjs
    obtain ⟨hfirst, hne⟩ := not_or.mp fun hm => hne (List.mem_cons.mpr hm)
    rw [follow, extend_eq_partner hj hfirst ho hmem, List.flatMap_singleton]
    exact ih hjs hne (by rw [Scene.put_of_ne _ _ hfirst, ho])

variable (hjs : ∀ j ∈ st.joins, g.LeadsToOne tables base j) (ht : st.table = ⟨base, none⟩)
  (hlabels : st.labels.Nodup)

include ht hlabels in
theorem base_notMem_labels : base ∉ st.joins.map (·.table.label) := by
  have hbase : st.table.label = base := by rw [ht]; rfl
  exact hbase ▸ (List.nodup_cons.mp hlabels).1

include hjs ht hlabels

/-- The rows of the joined tables are the rows of the first one. -/
theorem scenes_joined :
    g.scenes tables st = (tables base).map fun o =>
      g.joined tables st.joins o (Scene.single base o) := by
  rw [scenes_eq_flatMap, ht, List.map_eq_flatMap]
  exact List.flatMap_congr fun o ho =>
    follow_eq_joined hjs (base_notMem_labels ht hlabels) (Scene.put_self _ _ _) ho

theorem found_joined (hplain : st.IsPlain os) :
    g.found tables st = (g.matching tables base st.conditions).map fun o =>
      g.joined tables st.joins o (Scene.single base o) := by
  have hbase : st.table.label = base := by rw [ht]; rfl
  rw [found, scenes_joined hjs ht hlabels, List.filter_map, matching]
  refine congrArg _ (List.filter_congr fun o _ => ?_)
  have hsame : g.joined tables st.joins o (Scene.single base o) base = Scene.single base o base :=
    joined_of_notMem (base_notMem_labels ht hlabels)
  exact acceptsAll_congr hsame (hbase ▸ hplain.conditions)

/-- What is read of the rows of the first table that are found, in their order and cut. -/
theorem rows_joined (hplain : st.IsPlain os) :
    g.rows tables st =
      (cut st.limit st.offset ((g.matching tables base st.conditions).mergeSort fun a b =>
        g.sceneLe st.order (Scene.single base a) (Scene.single base b))).map fun o =>
          project os (g.joined tables st.joins o (Scene.single base o)) := by
  have hbase : st.table.label = base := by rw [ht]; rfl
  have hat : ∀ o, ∀ k ∈ st.order, (g.joined tables st.joins o (Scene.single base o)).at k.column =
      (Scene.single base o).at k.column := fun o k hk =>
    at_congr (joined_of_notMem (base_notMem_labels ht hlabels)) ((hplain.order k hk).trans hbase)
  have hsort := List.map_mergeSort (l := g.matching tables base st.conditions)
    (f := fun o => g.joined tables st.joins o (Scene.single base o)) (s := g.sceneLe st.order)
    (r := fun a b => g.sceneLe st.order (Scene.single base a) (Scene.single base b))
    fun a _ b _ => (sceneLe_congr (hat a) (hat b)).symm
  rw [rows, hplain.projection]
  dsimp only
  rw [found_joined hjs ht hlabels hplain, ← hsort, cut_map, List.map_map]
  rfl

end Engine

end ListQuery.Sql
