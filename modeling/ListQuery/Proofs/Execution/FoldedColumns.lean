import ListQuery.Proofs.Execution.Attached
import ListQuery.Proofs.Execution.Folded
import ListQuery.Proofs.Execution.OneTable
import ListQuery.Proofs.Query.Defaults
import ListQuery.Proofs.Query.TableNames
import ListQuery.Proofs.Query.WellFormed

/-!
# The columns of a delivered row

Which columns a row has, and in which order, on its way to the client. A join takes its labels off
and puts the relation's name last, if that is not there yet. It is there only as the label of a
later join, which then takes it off again: such a relation is missing from the folded row, and the
row of the later one has its related row in the place of a value.

* `keys_takeJoined`, `keys_foldJoin` — one join;
* `keptNames`, `keptNames_eq_iff` — the relations that are not taken off again;
* `exists_fold_keys` — all joins;
* `keys_attach`, `attach_ne_missing`, `keys_stripHidden` — what comes after them.
-/

namespace ListQuery.Row

variable {j : EagerJoin} {row rest out : Row} {joined : Row} {names : List String}
  {join : String × EagerJoin} {joins : List (String × EagerJoin)}

-- ---------------------------------------------------------------------------
-- One join
-- ---------------------------------------------------------------------------

theorem keys_drop (row : Row) (name : String) :
    Entries.keys (row.drop name) = row.keys.filter (· ≠ name) := by
  simp only [Entries.drop, Entries.keys, List.filter_map]
  rfl

/-- A written column is there afterwards, in its place or as the last one. -/
theorem keys_put_eq_keepNew (row : Row) (name : String) (v : Value) :
    Entries.keys (row.put name v) = keepNew row.keys name := by
  rw [Entries.keys_put]
  simp [keepNew]

/-- A column is there just if it has a value. -/
theorem exists_value_iff {name : String} : (∃ v, row.value name = .ok v) ↔ name ∈ row.keys := by
  rw [← Entries.isSome_get?_iff, value]
  cases row.get? name <;> simp

/-- Labels that are there can be taken off, and nothing else is. -/
theorem keys_takeJoined (hn : names.Nodup) (hthere : ∀ name ∈ names, j.label name ∈ row.keys) :
    ∃ joined rest, takeJoined j names row = .ok (joined, rest) ∧
      rest.keys = row.keys.filter (· ∉ names.map j.label) := by
  induction names generalizing row with
  | nil => exact ⟨[], row, rfl, by simp⟩
  | cons name names ih =>
    obtain ⟨hname, hn⟩ := List.nodup_cons.mp hn
    obtain ⟨hhere, hthere⟩ := List.forall_mem_cons.mp hthere
    obtain ⟨v, hv⟩ := Option.isSome_iff_exists.mp (Entries.isSome_get?_iff.mpr hhere)
    have hrest : ∀ other ∈ names, j.label other ∈ Entries.keys (row.drop (j.label name)) := by
      intro other hother
      have hne : j.label other ≠ j.label name := fun heq =>
        hname (j.label_injective heq ▸ hother)
      rw [keys_drop]
      exact List.mem_filter.mpr ⟨hthere other hother, decide_eq_true hne⟩
    obtain ⟨joined, rest, htake, hkeys⟩ := ih hn hrest
    refine ⟨(name, v) :: joined, rest, ?_, ?_⟩
    · simp only [takeJoined, hv, htake]
      rfl
    · rw [hkeys, keys_drop, List.filter_filter]
      refine List.filter_congr fun other _ => ?_
      simp [Bool.and_comm]

/-- A folded join leaves what is no label of it, and the name of the relation is there. -/
theorem keys_foldJoin (hn : join.2.columns.Nodup)
    (hthere : ∀ label ∈ join.2.labels, label ∈ row.keys) :
    ∃ out, foldJoin row join = .ok out ∧
      out.keys = keepNew (row.keys.filter (· ∉ join.2.labels)) join.1 := by
  have hlabels : ∀ name ∈ join.2.columns, join.2.label name ∈ row.keys := fun name hname =>
    hthere _ (List.mem_map.mpr ⟨name, hname, rfl⟩)
  obtain ⟨joined, rest, htake, hkeys⟩ := keys_takeJoined hn hlabels
  refine ⟨_, foldJoin_eq_ok.mpr ⟨joined, rest, htake, rfl⟩, ?_⟩
  rw [keys_put_eq_keepNew, hkeys]
  rfl

-- ---------------------------------------------------------------------------
-- All joins
-- ---------------------------------------------------------------------------

/-- The labels that the joins take off. -/
def labelsOf (joins : List (String × EagerJoin)) : List String := joins.flatMap (·.2.labels)

/-- The relations that no later join takes off. -/
def keptNames : List (String × EagerJoin) → List String
  | []            => []
  | join :: joins => if join.1 ∈ labelsOf joins then keptNames joins else join.1 :: keptNames joins

theorem keptNames_sublist (joins : List (String × EagerJoin)) :
    (keptNames joins).Sublist (joins.map (·.1)) := by
  induction joins with
  | nil => exact .slnil
  | cons join joins ih =>
    rw [keptNames, List.map_cons]
    split
    · exact ih.cons _
    · exact ih.cons_cons _

/-- All relations are kept just if none has the name of a label that is taken off after it. -/
theorem keptNames_eq_iff :
    keptNames joins = joins.map (·.1) ↔
      joins.Pairwise fun first later => first.1 ∉ later.2.labels := by
  induction joins with
  | nil => simp [keptNames]
  | cons join joins ih =>
    have hlater : join.1 ∉ labelsOf joins ↔ ∀ later ∈ joins, join.1 ∉ later.2.labels := by
      simp [labelsOf]
    rw [List.pairwise_cons, ← hlater, ← ih, keptNames, List.map_cons]
    by_cases htaken : join.1 ∈ labelsOf joins
    · -- one name is missing, so the lists differ in length
      have hshort := (keptNames_sublist joins).length_le
      rw [if_pos htaken]
      refine iff_of_false (fun heq => ?_) fun h => h.1 htaken
      have hlength := congrArg List.length heq
      simp only [List.length_cons] at hlength
      omega
    · simp [htaken]

/-- Joins whose labels are there can be folded. What stays of the row are the columns that are no
labels, and then come the relations that no later join takes off. -/
theorem exists_fold_keys (hlabels : (labelsOf joins).Nodup) (hnames : (joins.map (·.1)).Nodup)
    (hthere : ∀ label ∈ labelsOf joins, label ∈ row.keys)
    (hfresh : ∀ join ∈ joins, join.1 ∈ row.keys → join.1 ∈ labelsOf joins) :
    ∃ out, fold joins row = .ok out ∧
      out.keys = row.keys.filter (· ∉ labelsOf joins) ++ keptNames joins := by
  induction joins generalizing row with
  | nil => exact ⟨row, rfl, by simp [labelsOf, keptNames]⟩
  | cons first joins ih =>
    have hcons : labelsOf (first :: joins) = first.2.labels ++ labelsOf joins := rfl
    rw [hcons] at hlabels hthere hfresh ⊢
    obtain ⟨hfirst, hlabels, hdisjoint⟩ := List.nodup_append'.mp hlabels
    obtain ⟨hname, hnames⟩ := List.nodup_cons.mp hnames
    obtain ⟨hthereFirst, hthere⟩ := List.forall_mem_append.mp hthere
    obtain ⟨mid, hmid, hkeys⟩ := keys_foldJoin (hfirst.of_map _) hthereFirst
    have hmem : ∀ name, name ∈ mid.keys ↔
        (name ∈ row.keys ∧ name ∉ first.2.labels) ∨ name = first.1 := by
      intro name
      rw [hkeys, mem_keepNew, List.mem_filter, decide_eq_true_eq]
    obtain ⟨out, hout, houtKeys⟩ := ih hlabels hnames
      (fun label hlabel => (hmem label).mpr
        (.inl ⟨hthere label hlabel, fun hboth => hdisjoint hboth hlabel⟩))
      fun join hjoin hhere => by
        have hne : join.1 ≠ first.1 := fun heq =>
          hname (List.mem_map.mpr ⟨join, hjoin, heq⟩)
        obtain ⟨hrow, hnot⟩ := ((hmem join.1).mp hhere).resolve_right hne
        have hlabel := hfresh join (List.mem_cons_of_mem _ hjoin) hrow
        exact (List.mem_append.mp hlabel).resolve_left hnot
    refine ⟨out, fold_cons_eq_ok.mpr ⟨mid, hmid, hout⟩, ?_⟩
    have hfilter : (row.keys.filter (· ∉ first.2.labels)).filter (· ∉ labelsOf joins) =
        row.keys.filter (· ∉ first.2.labels ++ labelsOf joins) := by
      rw [List.filter_filter]
      exact List.filter_congr fun name _ => by simp [Bool.and_comm]
    rw [houtKeys, hkeys, keptNames, ← hfilter, keepNew]
    by_cases htaken : first.1 ∈ labelsOf joins
    · -- the name is a label that is still there, and goes with it
      have hhere : first.1 ∈ row.keys.filter (· ∉ first.2.labels) :=
        List.mem_filter.mpr
          ⟨hthere _ htaken, decide_eq_true fun hboth => hdisjoint hboth htaken⟩
      rw [if_pos (List.contains_iff_mem.mpr hhere), if_pos htaken]
    · have hnew : first.1 ∉ row.keys.filter (· ∉ first.2.labels) := by
        intro hhere
        obtain ⟨hrow, hnot⟩ := List.mem_filter.mp hhere
        have hlabel := hfresh first List.mem_cons_self hrow
        exact htaken ((List.mem_append.mp hlabel).resolve_left (of_decide_eq_true hnot))
      have hlast : [first.1].filter (· ∉ labelsOf joins) = [first.1] := by simp [htaken]
      rw [if_neg fun hhere => hnew (List.contains_iff_mem.mp hhere), if_neg htaken,
        List.filter_append, hlast, List.append_assoc, List.singleton_append]

-- ---------------------------------------------------------------------------
-- Loaded relations and hidden columns
-- ---------------------------------------------------------------------------

variable {primaryKey : String} {included : Included}

/-- Loaded relations come behind the columns that are there. -/
theorem keys_attach (hn : included.keys.Nodup) (h : attach primaryKey included row = .ok out) :
    out.keys = row.keys ++ included.keys.filter (· ∉ row.keys) := by
  rw [← foldl_keepNew_of_nodup hn]
  refine of_foldlM_eq_ok
    (P := fun done out => out.keys = (Entries.keys done).foldl keepNew row.keys)
    (fun loaded _ done mid out hdone hstep => ?_) rfl h
  obtain ⟨-, rfl⟩ := attachPath_eq_ok hstep
  have hkeys : Entries.keys (done ++ [loaded]) = Entries.keys done ++ [loaded.1] := List.map_append
  rw [keys_put_eq_keepNew, hdone, hkeys, List.foldl_append]
  rfl

/-- A row with its key does not miss it when relations are attached. -/
theorem attach_ne_missing (hkey : primaryKey ∈ row.keys) :
    attach primaryKey included row ≠ .error .missing := by
  induction included generalizing row with
  | nil => exact fun h => by cases h
  | cons loaded included ih =>
    obtain ⟨key, hvalue⟩ := exists_value_iff.mpr hkey
    rw [attach, List.foldlM_cons, attachPath, hvalue]
    by_cases hisKey : key.isKey = true
    · let mid : Row := row.put loaded.1 (.list ((loaded.2.rowsOf key).map .record))
      have hmid : primaryKey ∈ mid.keys := (Entries.mem_keys_put _).mpr (.inl hkey)
      simpa [bind, Except.bind, hisKey, attach] using ih hmid
    · simp [bind, Except.bind, hisKey]

theorem keys_stripHidden (hidden : List String) (row : Row) :
    Entries.keys (stripHidden hidden row) = row.keys.filter (· ∉ hidden) := by
  rw [stripHidden_eq_filter, Entries.keys, Entries.keys, List.filter_map]
  refine congrArg _ (List.filter_congr fun e _ => ?_)
  simp

end ListQuery.Row

/-!
## The columns that a query reads

A query reads the fields that were asked for, then those that the cursor and the includes need
besides, then the labels of the joined relations. On an entity whose declared names are apart no name
comes twice among them, and a folded row has the fields, the hidden columns and the joined relations.

* `ColumnsApart` — names that are apart;
* `projectedFields_of_selection`, `projectedFields_of_default` — the fields that were asked for;
* `nodup_readNames` — what is read;
* `exists_fold_read` — what is folded.
-/

namespace ListQuery

open Sql

-- ---------------------------------------------------------------------------
-- Columns of an entity
-- ---------------------------------------------------------------------------

namespace Entity

variable {e : Entity} {names : List String} {name : String}

theorem nodup_orderedFields (htypes : e.types.keys.Nodup) : (e.orderedFields names).Nodup := by
  refine List.nodup_append'.mpr ⟨htypes.filter _, nodup_distinct _, fun name hdeclared hrest => ?_⟩
  rw [mem_distinct, List.mem_mergeSort, List.mem_filter, Bool.not_eq_true', ← Bool.not_eq_true,
    List.contains_iff_mem] at hrest
  exact hrest.2 hdeclared

theorem nodup_defaultFields (htypes : e.types.keys.Nodup)
    (hselection : ∀ names ∈ e.defaultSelection, names.Nodup) : e.defaultFields.Nodup := by
  rw [defaultFields]
  cases hdefault : e.defaultSelection with
  | none => exact nodup_orderedFields htypes
  | some names => exact hselection names hdefault

end Entity

namespace Query

/-- No type is declared twice and no field selected twice by default, no include has the name of a
column, and no label of a joined relation that of a column or of another label. -/
structure ColumnsApart (q : Query) (schema : Schema) : Prop where
  types     : q.entity.types.keys.Nodup
  selection : ∀ names ∈ q.entity.defaultSelection, names.Nodup
  includes  : ∀ path ∈ q.entity.includePaths, path ∉ q.entity.columnNames
  labels    : (Row.labelsOf (q.eagerJoins schema)).Nodup
  columns   : ∀ label ∈ Row.labelsOf (q.eagerJoins schema), label ∉ q.entity.columnNames

variable {q : Query} {schema : Schema} {paginate : Bool} {c : Compiled} {keys : List SortKey}
  {names : List String} {name : String}

-- ---------------------------------------------------------------------------
-- The fields that were asked for
-- ---------------------------------------------------------------------------

/-- Selected fields are columns, so all of them are read. -/
theorem projectedFields_of_selection (hfields : q.fields = some names)
    (hselection : IsSelection q.entity names) : q.projectedFields = names := by
  have hcolumns : ∀ name ∈ names, (q.entity.column? name).isSome = true := fun name hname =>
    Entity.isSome_column?_iff_mem_columnNames.mpr
      (q.entity.declares.selected name (List.contains_iff_mem.mp (hselection.allowed name hname)))
  rw [projectedFields, hfields]
  cases names with
  | nil => exact absurd rfl hselection.nonempty
  | cons first names => exact List.filter_eq_self.mpr hcolumns

theorem nodup_projectedFields (hq : q.WellFormed) (hapart : q.ColumnsApart schema) :
    q.projectedFields.Nodup := by
  have hdefault := Entity.nodup_defaultFields hapart.types hapart.selection
  rcases hq.fields with hnone | hall | ⟨names, hfields, hselection⟩
  · rw [projectedFields_of_default (.inl hnone)]
    exact hdefault.filter _
  · rw [projectedFields_of_default (.inr hall)]
    exact hdefault.filter _
  · rw [projectedFields_of_selection hfields hselection]
    exact hselection.nodup

theorem mem_columnNames_of_projected (h : name ∈ q.projectedFields) :
    name ∈ q.entity.columnNames :=
  Entity.isSome_column?_iff_mem_columnNames.mp (List.mem_filter.mp h).2

-- ---------------------------------------------------------------------------
-- The hidden columns
-- ---------------------------------------------------------------------------

/-- The keys of a page are columns. -/
theorem mem_columnNames_of_key {key : SortKey} (h : key ∈ q.keysFor paginate) :
    key.field ∈ q.entity.columnNames := by
  have hprimary := q.entity.declares.primaryKey
  have hordering : ∀ s ∈ q.ordering, s.field ∈ q.entity.columnNames := fun s hs =>
    Entity.isSome_column?_iff_mem_columnNames.mp (List.mem_filter.mp hs).2
  rw [keysFor] at h
  split at h
  case isFalse => exact absurd h List.not_mem_nil
  case isTrue =>
    rw [withPrimaryKey] at h
    split at h
    case isTrue => exact hordering key h
    case isFalse =>
      rcases List.mem_append.mp h with h | h
      · exact hordering key h
      · exact List.mem_singleton.mp h ▸ hprimary

theorem mem_columnNames_of_hidden (h : name ∈ q.hiddenFor (q.keysFor paginate)) :
    name ∈ q.entity.columnNames := by
  rcases (q.mem_hiddenFor.mp h).1 with hprimary | hkey
  · split at hprimary
    case isTrue => exact absurd hprimary List.not_mem_nil
    case isFalse =>
      rw [List.mem_singleton.mp hprimary]
      exact q.entity.declares.primaryKey
  · obtain ⟨key, hmem, rfl⟩ := List.mem_map.mp hkey
    exact mem_columnNames_of_key hmem

theorem mem_columnNames_of_plain
    (h : name ∈ q.projectedFields ++ q.hiddenFor (q.keysFor paginate)) :
    name ∈ q.entity.columnNames := by
  rcases List.mem_append.mp h with hprojected | hhidden
  · exact mem_columnNames_of_projected hprojected
  · exact mem_columnNames_of_hidden hhidden

/-- The primary key is read where relations are loaded. -/
theorem primaryKey_mem_read (hincludes : q.includes ≠ []) (keys : List SortKey) :
    q.entity.primaryKey ∈ q.projectedFields ++ q.hiddenFor keys := by
  by_cases hprojected : q.entity.primaryKey ∈ q.projectedFields
  · exact List.mem_append_left _ hprojected
  · refine List.mem_append_right _ (q.mem_hiddenFor.mpr ⟨.inl ?_, hprojected⟩)
    rw [if_neg fun hempty => hincludes (List.isEmpty_iff.mp hempty)]
    exact List.mem_singleton_self _

-- ---------------------------------------------------------------------------
-- The joined relations
-- ---------------------------------------------------------------------------

/-- The relations of the joins are the includes that are joined, in their order. -/
theorem map_fst_eagerJoins (q : Query) (schema : Schema) :
    (q.eagerJoins schema).map (·.1) = q.includes.filter (q.entity.joinsEagerly ·) := by
  rw [eagerJoins_eq_map, List.map_map]
  exact map_fst_joinedRelations

/-- The joined relations that a folded row has. -/
def keptRelations (q : Query) (schema : Schema) : List String := Row.keptNames (q.eagerJoins schema)

theorem mem_includes_of_kept (h : name ∈ q.keptRelations schema) : name ∈ q.includes := by
  have hjoined := (Row.keptNames_sublist _).subset h
  rw [map_fst_eagerJoins] at hjoined
  exact List.mem_of_mem_filter hjoined

/-- The folded row has all joined relations just if none has the name of a label of a later one. -/
theorem keptRelations_eq_iff :
    q.keptRelations schema = q.includes.filter (q.entity.joinsEagerly ·) ↔
      (q.eagerJoins schema).Pairwise fun first later => first.1 ∉ later.2.labels := by
  rw [← map_fst_eagerJoins q schema]
  exact Row.keptNames_eq_iff

/-- No include has the name of a column. -/
theorem notMem_columnNames_of_include (hq : q.WellFormed) (hapart : q.ColumnsApart schema)
    (h : name ∈ q.includes) : name ∉ q.entity.columnNames :=
  hapart.includes name (List.contains_iff_mem.mp (hq.includes name h))

-- ---------------------------------------------------------------------------
-- All that is read
-- ---------------------------------------------------------------------------

/-- The names of the columns that are read. -/
def readNames (q : Query) (schema : Schema) (keys : List SortKey) : List String :=
  q.projectedFields ++ q.hiddenFor keys ++ Row.labelsOf (q.eagerJoins schema)

theorem map_name_outputs (q : Query) (schema : Schema) (keys : List SortKey) :
    (q.outputs schema keys).map (·.name) = q.readNames schema keys := by
  have hlabels : ∀ joins : List (String × EagerJoin),
      (joins.flatMap fun j => j.2.outputs).map (·.name) = Row.labelsOf joins := by
    intro joins
    rw [List.map_flatMap, Row.labelsOf]
    exact List.flatMap_congr fun j _ => j.2.map_name_outputs
  rw [outputs, List.map_append, List.map_map, hlabels]
  refine congrArg (· ++ _) ?_
  exact List.map_id _

theorem nodup_readNames (hq : q.WellFormed) (hapart : q.ColumnsApart schema) (paginate : Bool) :
    (q.readNames schema (q.keysFor paginate)).Nodup := by
  have hplain : (q.projectedFields ++ q.hiddenFor (q.keysFor paginate)).Nodup :=
    List.nodup_append'.mpr ⟨nodup_projectedFields hq hapart, nodup_distinct _,
      fun name hprojected hhidden => (q.mem_hiddenFor.mp hhidden).2 hprojected⟩
  refine List.nodup_append'.mpr ⟨hplain, hapart.labels, fun name hname hlabel => ?_⟩
  exact hapart.columns name hlabel (mem_columnNames_of_plain hname)

/-- A compiled query reads these columns, and goes by them. -/
theorem columns_compile (h : q.compile schema paginate = .ok c) :
    c.joins = q.eagerJoins schema ∧ c.hidden = q.hiddenFor (q.keysFor paginate) ∧
      c.keyColumns = (q.keysFor paginate).map (·.field) ∧
      c.select.projection = .columns (q.outputs schema (q.keysFor paginate)) := by
  obtain ⟨tables, conditions, after, hc, hkeys, -⟩ := exists_compiles_keysFor h
  refine ⟨hc.joins, hc.hidden, hkeys, ?_⟩
  rw [hc.select]
  rfl

/-- A row with these columns can be folded. The folded row has the fields that were asked for, the
hidden columns and the joined relations. -/
theorem exists_fold_read (hq : q.WellFormed) (hapart : q.ColumnsApart schema) {row : Row}
    (hrow : row.keys = q.readNames schema (q.keysFor paginate)) :
    ∃ out, Row.fold (q.eagerJoins schema) row = .ok out ∧
      out.keys = q.projectedFields ++ q.hiddenFor (q.keysFor paginate) ++
        q.keptRelations schema := by
  have hnames : ((q.eagerJoins schema).map (·.1)).Nodup := by
    rw [map_fst_eagerJoins]
    exact hq.distinct.filter _
  have hfresh : ∀ join ∈ q.eagerJoins schema, join.1 ∈ row.keys →
      join.1 ∈ Row.labelsOf (q.eagerJoins schema) := by
    intro join hjoin hhere
    rw [hrow] at hhere
    refine (List.mem_append.mp hhere).resolve_left fun hplain => ?_
    have hjoined : join.1 ∈ (q.eagerJoins schema).map (·.1) := List.mem_map.mpr ⟨join, hjoin, rfl⟩
    rw [map_fst_eagerJoins] at hjoined
    exact notMem_columnNames_of_include hq hapart (List.mem_of_mem_filter hjoined)
      (mem_columnNames_of_plain hplain)
  obtain ⟨out, hout, hkeys⟩ := Row.exists_fold_keys hapart.labels hnames
    (fun label hlabel => hrow ▸ List.mem_append_right _ hlabel) hfresh
  have hplain : (q.projectedFields ++ q.hiddenFor (q.keysFor paginate)).filter
      (· ∉ Row.labelsOf (q.eagerJoins schema)) =
        q.projectedFields ++ q.hiddenFor (q.keysFor paginate) :=
    List.filter_eq_self.mpr fun name hname =>
      decide_eq_true fun hlabel => hapart.columns name hlabel (mem_columnNames_of_plain hname)
  have hlabels : (Row.labelsOf (q.eagerJoins schema)).filter
      (· ∉ Row.labelsOf (q.eagerJoins schema)) = [] :=
    List.filter_eq_nil_iff.mpr fun label hlabel hnot => of_decide_eq_true hnot hlabel
  refine ⟨out, hout, ?_⟩
  rw [hkeys, hrow, readNames, List.filter_append, hplain, hlabels, List.append_nil]
  rfl

end Query

end ListQuery
