import ListQuery.Execution.Row
import ListQuery.Proofs.Sql.OuterJoin

/-!
# Folded rows

Folding takes the labelled columns of each join off a row and puts the related row, or nothing, under
the relation's name. One join more takes its own labels and its own name, and leaves what the others
made of the row: a label of two joins would be missing when the second one looks for it.

* `get?_foldJoin_of_ne`, `get?_foldJoin_self` — one join;
* `agreeOff_fold` — rows that differ only in columns that no join takes;
* `agreeOff_fold_concat` — one join more;
* `ne_list_of_fold` — a joined relation is never a list.
-/

namespace ListQuery

theorem EagerJoin.label_injective (j : EagerJoin) : Function.Injective j.label := by
  intro name other h
  rw [label, label] at h
  exact String.append_right_inj _ |>.mp h

/-- The labels of the joined columns. -/
def EagerJoin.labels (j : EagerJoin) : List String := j.columns.map j.label

theorem EagerJoin.map_name_outputs (j : EagerJoin) : j.outputs.map (·.name) = j.labels := by
  rw [outputs, List.map_map]
  rfl

namespace Row

variable {j : EagerJoin} {row row' rest rest' joined joined' out out' : Row}
  {names taken : List String} {name other : String} {join : String × EagerJoin}
  {joins : List (String × EagerJoin)}

theorem get?_drop (row : Row) (name other : String) :
    Entries.get? other (row.drop name) = if other = name then none else row.get? other := by
  split
  case isTrue heq =>
    refine List.lookup_eq_none_iff.mpr fun e he => ?_
    have hkept := of_decide_eq_true (List.mem_filter.mp he).2
    rw [heq, bne_iff_ne]
    exact Ne.symm hkept
  case isFalse hne => exact Entries.get?_filter_of_kept (fun n => n ≠ name) (decide_eq_true hne)

-- ---------------------------------------------------------------------------
-- The columns of a join
-- ---------------------------------------------------------------------------

/-- The labels that are taken off a row were there, and no longer are. -/
theorem takeJoined_eq_ok (h : takeJoined j names row = .ok (joined, rest)) :
    (∀ name ∈ names, ∃ v, row.get? (j.label name) = some v) ∧
      ∀ other, rest.get? other = if other ∈ names.map j.label then none else row.get? other := by
  induction names generalizing row joined rest with
  | nil =>
    obtain ⟨-, rfl⟩ := Prod.mk.inj (Except.ok.inj h)
    exact ⟨List.forall_mem_nil _, fun other => (if_neg List.not_mem_nil).symm⟩
  | cons name names ih =>
    rw [takeJoined] at h
    split at h
    case h_1 => cases h
    case h_2 v hv =>
      obtain ⟨⟨joined₁, rest₁⟩, hrest, h⟩ := bind_eq_ok.mp h
      obtain ⟨-, rfl⟩ := Prod.mk.inj (Except.ok.inj h)
      obtain ⟨hthere, hget⟩ := ih hrest
      refine ⟨List.forall_mem_cons.mpr ⟨⟨v, hv⟩, fun name' hname' => ?_⟩, fun other => ?_⟩
      · obtain ⟨w, hw⟩ := hthere name' hname'
        rw [get?_drop] at hw
        split at hw
        · cases hw
        · exact ⟨w, hw⟩
      · rw [hget, get?_drop, List.map_cons]
        by_cases hhere : other = j.label name
        · rw [if_pos hhere, ite_self, if_pos (List.mem_cons.mpr (.inl hhere))]
        · rw [if_neg hhere]
          refine if_congr ?_ rfl rfl
          rw [List.mem_cons, or_iff_right hhere]

/-- Columns that are there can be taken off. -/
theorem exists_takeJoined {f : String → Value} (hn : names.Nodup)
    (hrow : ∀ name ∈ names, row.get? (j.label name) = some (f name)) :
    ∃ rest, takeJoined j names row = .ok (names.map fun name => (name, f name), rest) := by
  induction names generalizing row with
  | nil => exact ⟨row, rfl⟩
  | cons name names ih =>
    obtain ⟨hname, hn⟩ := List.nodup_cons.mp hn
    obtain ⟨hhere, hrow⟩ := List.forall_mem_cons.mp hrow
    have hothers : ∀ other ∈ names,
        Entries.get? (j.label other) (row.drop (j.label name)) = some (f other) := by
      intro other hother
      have hne : j.label other ≠ j.label name := fun heq =>
        hname (j.label_injective heq ▸ hother)
      rw [get?_drop, if_neg hne, hrow other hother]
    obtain ⟨rest, hrest⟩ := ih hn hothers
    refine ⟨rest, ?_⟩
    rw [takeJoined, hhere]
    show (takeJoined j names (row.drop (j.label name)) >>= _) = _
    rw [hrest]
    rfl

theorem agreeOff_drop (h : AgreeOff taken row row') (name : String) :
    AgreeOff taken (row.drop name) (row'.drop name) := by
  intro other hother
  rw [get?_drop, get?_drop, h other hother]

theorem agreeOff_put (h : AgreeOff taken row row') (name : String) (v : Value) :
    AgreeOff taken (row.put name v) (row'.put name v) := by
  intro other hother
  by_cases heq : other = name
  · rw [heq, Entries.get?_put_self, Entries.get?_put_self]
  · rw [Entries.get?_put_of_ne _ _ heq, Entries.get?_put_of_ne _ _ heq, h other hother]

theorem takeJoined_congr (hagree : AgreeOff taken row row')
    (hapart : ∀ name ∈ names, j.label name ∉ taken)
    (h : takeJoined j names row = .ok (joined, rest))
    (h' : takeJoined j names row' = .ok (joined', rest')) :
    joined' = joined ∧ AgreeOff taken rest rest' := by
  induction names generalizing row row' joined joined' rest rest' with
  | nil =>
    obtain ⟨rfl, rfl⟩ := Prod.mk.inj (Except.ok.inj h)
    obtain ⟨rfl, rfl⟩ := Prod.mk.inj (Except.ok.inj h')
    exact ⟨rfl, hagree⟩
  | cons name names ih =>
    obtain ⟨hname, hnames⟩ := List.forall_mem_cons.mp hapart
    rw [takeJoined] at h h'
    rw [hagree _ hname] at h'
    split at h
    case h_1 => cases h
    case h_2 v hv =>
      rw [hv] at h'
      obtain ⟨⟨joined₁, rest₁⟩, hrest, h⟩ := bind_eq_ok.mp h
      obtain ⟨⟨joined₂, rest₂⟩, hrest', h'⟩ := bind_eq_ok.mp h'
      obtain ⟨rfl, rfl⟩ := Prod.mk.inj (Except.ok.inj h)
      obtain ⟨rfl, rfl⟩ := Prod.mk.inj (Except.ok.inj h')
      obtain ⟨rfl, hagree'⟩ := ih (agreeOff_drop hagree _) hnames hrest hrest'
      exact ⟨rfl, hagree'⟩

-- ---------------------------------------------------------------------------
-- One join
-- ---------------------------------------------------------------------------

/-- The related row that the joined columns make. -/
def relatedOf (joined : Row) : Value :=
  if joined.all fun e => e.2.isNull then .null else .record joined

theorem relatedOf_ne_list (joined : Row) (vs : List Value) : relatedOf joined ≠ .list vs := by
  rw [relatedOf]
  split <;> exact fun h => by cases h

theorem foldJoin_eq_ok :
    foldJoin row join = .ok out ↔
      ∃ joined rest, takeJoined join.2 join.2.columns row = .ok (joined, rest) ∧
        out = rest.put join.1 (relatedOf joined) := by
  rw [foldJoin, bind_eq_ok]
  constructor
  · rintro ⟨⟨joined, rest⟩, htake, h⟩
    exact ⟨joined, rest, htake, (Except.ok.inj h).symm⟩
  · rintro ⟨joined, rest, htake, rfl⟩
    exact ⟨(joined, rest), htake, rfl⟩

theorem get?_foldJoin_self (h : foldJoin row join = .ok out) :
    ∃ joined, out.get? join.1 = some (relatedOf joined) := by
  obtain ⟨joined, rest, -, rfl⟩ := foldJoin_eq_ok.mp h
  exact ⟨joined, Entries.get?_put_self _ _ _⟩

theorem get?_foldJoin_of_ne (h : foldJoin row join = .ok out) (hother : other ≠ join.1) :
    out.get? other = if other ∈ join.2.labels then none else row.get? other := by
  obtain ⟨joined, rest, htake, rfl⟩ := foldJoin_eq_ok.mp h
  rw [Entries.get?_put_of_ne _ _ hother]
  exact (takeJoined_eq_ok htake).2 other

/-- The labels of a join are there when it is folded. -/
theorem exists_of_mem_labels (h : foldJoin row join = .ok out) {label : String}
    (hlabel : label ∈ join.2.labels) : ∃ v, row.get? label = some v := by
  obtain ⟨joined, rest, htake, -⟩ := foldJoin_eq_ok.mp h
  obtain ⟨name, hname, rfl⟩ := List.mem_map.mp hlabel
  exact (takeJoined_eq_ok htake).1 name hname

/-- A join whose columns are there can be folded. -/
theorem exists_foldJoin {f : String → Value} (hn : join.2.columns.Nodup)
    (hrow : ∀ name ∈ join.2.columns, row.get? (join.2.label name) = some (f name)) :
    ∃ out, foldJoin row join = .ok out ∧
      out.get? join.1 = some (relatedOf (join.2.columns.map fun name => (name, f name))) := by
  obtain ⟨rest, hrest⟩ := exists_takeJoined hn hrow
  exact ⟨_, foldJoin_eq_ok.mpr ⟨_, rest, hrest, rfl⟩, Entries.get?_put_self _ _ _⟩

theorem agreeOff_foldJoin (hagree : AgreeOff taken row row')
    (hapart : ∀ label ∈ join.2.labels, label ∉ taken) (h : foldJoin row join = .ok out)
    (h' : foldJoin row' join = .ok out') : AgreeOff taken out out' := by
  obtain ⟨joined, rest, htake, rfl⟩ := foldJoin_eq_ok.mp h
  obtain ⟨joined', rest', htake', rfl⟩ := foldJoin_eq_ok.mp h'
  have hnames : ∀ name ∈ join.2.columns, join.2.label name ∉ taken := fun name hname =>
    hapart _ (List.mem_map.mpr ⟨name, hname, rfl⟩)
  obtain ⟨rfl, hrest⟩ := takeJoined_congr hagree hnames htake htake'
  exact agreeOff_put hrest _ _

-- ---------------------------------------------------------------------------
-- All joins
-- ---------------------------------------------------------------------------

theorem fold_cons_eq_ok :
    fold (join :: joins) row = .ok out ↔
      ∃ mid, foldJoin row join = .ok mid ∧ fold joins mid = .ok out := by
  rw [fold, List.foldlM_cons, bind_eq_ok]
  rfl

theorem fold_concat_eq_ok :
    fold (joins ++ [join]) row = .ok out ↔
      ∃ mid, fold joins row = .ok mid ∧ foldJoin mid join = .ok out := by
  rw [fold, List.foldlM_append, bind_eq_ok]
  simp only [List.foldlM_cons, List.foldlM_nil, bind_pure]
  rfl

/-- Rows that differ only in columns that no join takes still do when they are folded. -/
theorem agreeOff_fold (hagree : AgreeOff taken row row')
    (hapart : ∀ join ∈ joins, ∀ label ∈ join.2.labels, label ∉ taken)
    (h : fold joins row = .ok out) (h' : fold joins row' = .ok out') : AgreeOff taken out out' := by
  induction joins generalizing row row' with
  | nil =>
    obtain rfl := Except.ok.inj h
    obtain rfl := Except.ok.inj h'
    exact hagree
  | cons join joins ih =>
    obtain ⟨mid, hmid, h⟩ := fold_cons_eq_ok.mp h
    obtain ⟨mid', hmid', h'⟩ := fold_cons_eq_ok.mp h'
    obtain ⟨hjoin, hjoins⟩ := List.forall_mem_cons.mp hapart
    exact ih (agreeOff_foldJoin hagree hjoin hmid hmid') hjoins h h'

/-- A join does not take what an earlier one gave, nor what it needs itself. -/
def FoldApart (first later : String × EagerJoin) : Prop :=
  first.1 ∉ later.2.labels ∧ first.2.labels.Disjoint later.2.labels

/-- Joins whose columns are there can be folded: under the name of each there is what its columns
make, and what is no label and no name stays. -/
theorem exists_fold {f : String × EagerJoin → String → Value}
    (hcolumns : ∀ join ∈ joins, join.2.columns.Nodup) (hnames : (joins.map (·.1)).Nodup)
    (hapart : joins.Pairwise FoldApart)
    (hrow : ∀ join ∈ joins, ∀ name ∈ join.2.columns,
      row.get? (join.2.label name) = some (f join name)) :
    ∃ out, fold joins row = .ok out ∧
      (∀ join ∈ joins,
        out.get? join.1 = some (relatedOf (join.2.columns.map fun name => (name, f join name)))) ∧
      ∀ other, other ∉ joins.map (·.1) → other ∉ joins.flatMap (·.2.labels) →
        out.get? other = row.get? other := by
  induction joins generalizing row with
  | nil => exact ⟨row, rfl, List.forall_mem_nil _, fun _ _ _ => rfl⟩
  | cons first joins ih =>
    obtain ⟨hfirstColumns, hcolumns⟩ := List.forall_mem_cons.mp hcolumns
    obtain ⟨hfirstName, hnames⟩ := List.nodup_cons.mp hnames
    obtain ⟨hfirstApart, hapart⟩ := List.pairwise_cons.mp hapart
    obtain ⟨hfirstRow, hrow⟩ := List.forall_mem_cons.mp hrow
    obtain ⟨mid, hmid, hfirst⟩ := exists_foldJoin hfirstColumns hfirstRow
    have hmidRow : ∀ join ∈ joins, ∀ name ∈ join.2.columns,
        mid.get? (join.2.label name) = some (f join name) := by
      intro join hjoin name hname
      have hlabel : join.2.label name ∈ join.2.labels := List.mem_map.mpr ⟨name, hname, rfl⟩
      obtain ⟨hne, hdisjoint⟩ := hfirstApart join hjoin
      have hother : join.2.label name ≠ first.1 := fun heq => hne (heq ▸ hlabel)
      rw [get?_foldJoin_of_ne hmid hother, if_neg fun hboth => hdisjoint hboth hlabel,
        hrow join hjoin name hname]
    obtain ⟨out, hout, hjoins, hrest⟩ := ih hcolumns hnames hapart hmidRow
    refine ⟨out, fold_cons_eq_ok.mpr ⟨mid, hmid, hout⟩, List.forall_mem_cons.mpr ⟨?_, hjoins⟩, ?_⟩
    · have hlabel : first.1 ∉ joins.flatMap (·.2.labels) := by
        intro hlabel
        obtain ⟨join, hjoin, hlabel⟩ := List.mem_flatMap.mp hlabel
        exact (hfirstApart join hjoin).1 hlabel
      rw [hrest _ hfirstName hlabel, hfirst]
    · intro other hname hlabel
      obtain ⟨hne, hname⟩ := not_or.mp fun hm => hname (List.mem_cons.mpr hm)
      obtain ⟨hhere, hlabel⟩ := not_or.mp fun hm => hlabel (List.mem_append.mpr hm)
      rw [hrest other hname hlabel, get?_foldJoin_of_ne hmid hne, if_neg hhere]

/-- Joins that can be folded one after the other share no label. -/
theorem nodup_labels (hcolumns : ∀ join ∈ joins, join.2.columns.Nodup)
    (hapart : joins.Pairwise FoldApart) : (joins.flatMap (·.2.labels)).Nodup := by
  refine List.nodup_flatMap.mpr ⟨fun join hjoin => ?_, hapart.imp fun h => h.2⟩
  exact (hcolumns join hjoin).map join.2.label_injective

theorem get?_fold_eq_none (hother : other ∉ joins.map (·.1)) (hnone : row.get? other = none)
    (h : fold joins row = .ok out) : out.get? other = none := by
  induction joins generalizing row with
  | nil =>
    obtain rfl := Except.ok.inj h
    exact hnone
  | cons join joins ih =>
    obtain ⟨mid, hmid, h⟩ := fold_cons_eq_ok.mp h
    obtain ⟨hne, hrest⟩ := not_or.mp fun hm => hother (List.mem_cons.mpr hm)
    refine ih hrest ?_ h
    rw [get?_foldJoin_of_ne hmid hne, hnone, ite_self]

/-- The labels of the joins are gone from a folded row. -/
theorem get?_fold_label (hjoin : join ∈ joins) {label : String} (hlabel : label ∈ join.2.labels)
    (hnames : label ∉ joins.map (·.1)) (h : fold joins row = .ok out) : out.get? label = none := by
  induction joins generalizing row with
  | nil => exact absurd hjoin List.not_mem_nil
  | cons first joins ih =>
    obtain ⟨mid, hmid, hmore⟩ := fold_cons_eq_ok.mp h
    obtain ⟨hne, hrest⟩ := not_or.mp fun hm => hnames (List.mem_cons.mpr hm)
    rcases List.mem_cons.mp hjoin with rfl | hjoin
    · refine get?_fold_eq_none hrest ?_ hmore
      rw [get?_foldJoin_of_ne hmid hne, if_pos hlabel]
    · exact ih hjoin hrest hmore

/-- One join more takes its own labels and its own name, and leaves the rest of the row. -/
theorem agreeOff_fold_concat (hagree : AgreeOff join.2.labels row row')
    (hnames : ∀ label ∈ join.2.labels, label ∉ joins.map (·.1)) (h : fold joins row = .ok out)
    (h' : fold (joins ++ [join]) row' = .ok out') :
    AgreeOff (join.1 :: join.2.labels) out out' := by
  obtain ⟨mid, hmid, hlast⟩ := fold_concat_eq_ok.mp h'
  have hapart : ∀ other ∈ joins, ∀ label ∈ other.2.labels, label ∉ join.2.labels := by
    intro other hother label hlabel hboth
    obtain ⟨v, hv⟩ := exists_of_mem_labels hlast hboth
    cases hv.symm.trans (get?_fold_label hother hlabel (hnames label hboth) hmid)
  intro name hname
  obtain ⟨hne, hlabel⟩ := not_or.mp fun hm => hname (List.mem_cons.mpr hm)
  rw [get?_foldJoin_of_ne hlast hne, if_neg hlabel, agreeOff_fold hagree hapart h hmid name hlabel]

/-- Under the name of a joined relation there is no list. -/
theorem ne_list_of_fold {r : String}
    (hr : r ∈ joins.map (·.1) ∨ ∀ vs, row.get? r ≠ some (.list vs)) (h : fold joins row = .ok out)
    (vs : List Value) : out.get? r ≠ some (.list vs) := by
  induction joins generalizing row with
  | nil =>
    obtain rfl := Except.ok.inj h
    exact hr.resolve_left List.not_mem_nil vs
  | cons join joins ih =>
    obtain ⟨mid, hmid, h⟩ := fold_cons_eq_ok.mp h
    refine ih ?_ h
    by_cases heq : r = join.1
    · refine .inr fun vs hvs => ?_
      obtain ⟨joined, hjoined⟩ := get?_foldJoin_self hmid
      rw [heq, hjoined] at hvs
      exact relatedOf_ne_list joined vs (Option.some.inj hvs)
    · refine hr.imp (fun hm => (List.mem_cons.mp hm).resolve_left heq) fun hrow vs hvs => ?_
      rw [get?_foldJoin_of_ne hmid heq] at hvs
      split at hvs
      · cases hvs
      · exact hrow vs hvs

end Row

end ListQuery
