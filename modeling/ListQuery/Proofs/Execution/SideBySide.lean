import ListQuery.Proofs.Execution.Folded
import ListQuery.Proofs.Execution.MorePaths
import ListQuery.Proofs.Query.MoreIncludes

/-!
# Includes side by side

What a further include does to one that a query already has. A relation that is joined leaves all
rows with what they had, and where no row has two partners it leaves them in their places. What is
loaded stays as well, unless the further include leads over the relations of an include that was not
loaded by them: these are loaded on the way, and a joined relation or an audit trail is then covered
by a list of what its relations lead to.

* `Displaces`, `displaces_only` — which includes are covered;
* `matching_read` — the rows that are read;
* `agreeAt_loadIncluded`, `rowsOf_of_displaces` — what is loaded for them.
-/

namespace ListQuery

open Sql Database

namespace Query

variable {q : Query} {schema : Schema} {p r : String} {tables tables₁ tables₂ : Tables} {g : Engine}
  {c c' : Compiled} {paginate : Bool} {read read' : List Row} {included included' : Included}

-- ---------------------------------------------------------------------------
-- What a further include takes
-- ---------------------------------------------------------------------------

/-- The names that a further include takes in the rows: those of its relation and of the joined
columns, if it is joined. -/
def takenNames (q : Query) (schema : Schema) (p : String) : List String :=
  (q.newJoin? schema p).toList.flatMap fun j => p :: j.labels

/-- None of these names is one of the primary key or of an include. -/
def TakesNew (q : Query) (schema : Schema) (p : String) : Prop :=
  ∀ name ∈ q.takenNames schema p, name ≠ q.entity.primaryKey ∧ name ∉ q.includes

/-- No row has two partners in the table that a further include joins. -/
def SinglePartners (q : Query) (schema : Schema) (p : String) (tables : Tables) : Prop :=
  ∀ j ∈ q.newJoin? schema p, ∀ x ∈ tables q.entity.table,
    ((tables j.table).filter fun y => (x j.leftColumn).links (y j.rightColumn)).length ≤ 1

/-- The relations of an include are loaded only since a further include leads over them. -/
def Displaces (q : Query) (schema : Schema) (p r : String) : Prop :=
  ¬Loading.LoadsRelation schema q.entity q.includes r ∧
    Loading.LoadsRelation schema q.entity (q.includePath p).includes r

/-- Only a longer path that is new displaces an include, and only one that is joined or a trail. -/
theorem displaces_only (hr : r ∈ q.includes) (h : q.Displaces schema p r) :
    (q.entity.allowsInclude p = true ∧ p ∉ q.includes) ∧ segments r <+: segments p ∧
      (q.entity.joinsEagerly r = true ∨ Audit.handles r = true) := by
  obtain ⟨hnot, hloads⟩ := h
  rw [includes_includePath] at hloads
  split at hloads
  case isFalse => exact absurd hloads hnot
  case isTrue hnew =>
    refine ⟨hnew, hloads.prefix_of_concat hnot, ?_⟩
    by_contra hplain
    obtain ⟨heager, hhandles⟩ := not_or.mp hplain
    exact hnot (Loading.loadsRelation_of_mem hr hloads.1 (Bool.not_eq_true _ ▸ heager)
      (Bool.not_eq_true _ ▸ hhandles))

-- ---------------------------------------------------------------------------
-- The rows that are read
-- ---------------------------------------------------------------------------

/-- The rows that are read agree but for the names that the further include takes. -/
theorem matching_read {L : (Row → Row → Prop) → List Row → List Row → Prop} (hL : IsMatching L)
    (hnew : q.TakesNew schema p) (hc : q.compile schema paginate = .ok c)
    (hmore : Compiled.JoinsMore q.entity p (q.newJoin? schema p) c c')
    (hrows : ∀ j t, j ∈ q.newJoin? schema p → j.join q.entity = .ok t →
      (c.select.joining t j.outputs).labels.Nodup →
        L (Row.AgreeOff (j.outputs.map (·.name))) (g.rows tables c.select)
          (g.rows tables (c.select.joining t j.outputs)))
    (h : (fetch g.database c.joins c.select).run tables = (.ok read, tables₁))
    (h' : (fetch g.database c'.joins c'.select).run tables = (.ok read', tables₂)) :
    L (Row.AgreeOff (q.takenNames schema p)) read read' := by
  obtain ⟨-, hfold, -⟩ := fetch_parts h
  obtain ⟨hlabels, hfold', -⟩ := fetch_parts h'
  have hselect := hmore.select
  rw [hmore.joins] at hfold'
  unfold TakesNew at hnew
  unfold takenNames at hnew ⊢
  generalize q.newJoin? schema p = j? at *
  cases j? with
  | none =>
    have hsame : c'.select = c.select := hselect
    rw [hsame] at hfold'
    rw [Option.toList_none, List.map_nil, List.append_nil, hfold] at hfold'
    obtain rfl := Except.ok.inj hfold'
    exact hL.refl _ fun _ _ _ => rfl
  | some j =>
    obtain ⟨t, ht, hselect⟩ := hselect
    rw [hselect] at hlabels hfold'
    rw [Option.toList_some, List.flatMap_singleton] at hnew ⊢
    refine hL.trans (hrows j t rfl ht hlabels) (mapM_eq_ok.mp hfold) (mapM_eq_ok.mp hfold') ?_
    intro row row' out out' hagree hout hout'
    show Row.AgreeOff ((p, j).1 :: (p, j).2.labels) out out'
    refine Row.agreeOff_fold_concat (j.map_name_outputs ▸ hagree) ?_ hout hout'
    intro label hlabel hjoin
    rw [joins_compile hc] at hjoin
    exact (hnew label (List.mem_cons_of_mem _ hlabel)).2 (mem_map_eagerJoins.mp hjoin).1

/-- The first table's row is left by the joins. -/
theorem mem_table_of_mem_scenes {st : Statement} (hlabels : st.labels.Nodup) {s : Scene}
    (hs : s ∈ g.scenes tables st) : s st.table.label ∈ tables st.table.name := by
  rw [Engine.scenes_eq_flatMap] at hs
  obtain ⟨x, hx, hs⟩ := List.mem_flatMap.mp hs
  have hlabel : ∀ j ∈ st.joins, j.table.label ≠ st.table.label := fun j hj heq =>
    (List.nodup_cons.mp hlabels).1 (heq ▸ List.mem_map.mpr ⟨j, hj, rfl⟩)
  rw [Engine.at_of_mem_follow hlabel hs, Scene.single, Scene.put_self]
  exact hx

/-- A row of the statement has as many partners as its row of the entity's table has. -/
theorem length_partners_le (hg : g.ComparesKeys) {st : Statement} {j : EagerJoin} {t : Join}
    (htable : st.table = ⟨q.entity.table, none⟩) (hlabels : st.labels.Nodup)
    (hmore : (st.joining t j.outputs).labels.Nodup) (hjoin : j.join q.entity = .ok t)
    (hsingle : ∀ x ∈ tables q.entity.table,
      ((tables j.table).filter fun y => (x j.leftColumn).links (y j.rightColumn)).length ≤ 1)
    {s : Scene} (hs : s ∈ g.scenes tables st) : (g.partners tables s t).length ≤ 1 := by
  have hbase := mem_table_of_mem_scenes hlabels hs
  have hlabel : st.table.label ≠ t.table.label := fun heq =>
    Engine.label_notMem_labels hmore (heq ▸ List.mem_cons_self)
  rw [htable] at hbase hlabel
  obtain ⟨-, rfl⟩ := EagerJoin.join_eq_ok.mp hjoin
  have hpartners : ∀ y, g.joins (q.entity.columnNamed j.leftColumn) (j.column j.rightColumn)
      ((s.put j.aliasName y).at (q.entity.columnNamed j.leftColumn))
      ((s.put j.aliasName y).at (j.column j.rightColumn)) =
        (s q.entity.table j.leftColumn).links (y j.rightColumn) := by
    intro y
    rw [hg.joins]
    refine congrArg₂ Value.links ?_ ?_
    · exact congrFun (Scene.put_of_ne y s hlabel) _
    · exact congrFun (Scene.put_self j.aliasName y s) _
  rw [Engine.partners, List.filter_map, List.length_map]
  refine le_trans (le_of_eq (congrArg List.length (List.filter_congr fun y _ => ?_)))
    (hsingle _ hbase)
  exact hpartners y

-- ---------------------------------------------------------------------------
-- What is loaded for them
-- ---------------------------------------------------------------------------

variable {L : (Row → Row → Prop) → List Row → List Row → Prop} {taken : List String}

/-- Rows that agree in their keys have the same keys. -/
theorem sameKeys_of_matching (hL : IsMatching L) {key : String} (hkey : key ∉ taken)
    (h : L (Row.AgreeOff taken) read read') :
    Loading.SameKeys (read.map (·.at key)) (read'.map (·.at key)) := by
  have hat : ∀ row row', Row.AgreeOff taken row row' → row'.at key = row.at key := by
    intro row row' hagree
    rw [Row.at, Row.at, hagree key hkey]
  intro k
  rw [Bool.eq_iff_iff, List.any_map, List.any_map, List.any_eq_true, List.any_eq_true]
  constructor
  · rintro ⟨row, hrow, hlinks⟩
    obtain ⟨row', hrow', hagree⟩ := hL.right h row hrow
    exact ⟨row', hrow', by rwa [Function.comp_apply, hat row row' hagree]⟩
  · rintro ⟨row', hrow', hlinks⟩
    obtain ⟨row, hrow, hagree⟩ := hL.left h row' hrow'
    exact ⟨row, hrow, by rwa [Function.comp_apply, ← hat row row' hagree]⟩

theorem matching_eq_nil_iff (hL : IsMatching L) {R : Row → Row → Prop} (h : L R read read') :
    read = [] ↔ read' = [] := by
  rw [List.eq_nil_iff_forall_not_mem, List.eq_nil_iff_forall_not_mem]
  constructor
  · intro hnone row' hrow'
    obtain ⟨row, hrow, -⟩ := hL.left h row' hrow'
    exact hnone row hrow
  · intro hnone row hrow
    obtain ⟨row', hrow', -⟩ := hL.right h row hrow
    exact hnone row' hrow'

/-- Nothing is loaded for no rows. -/
theorem loadIncluded_nil {σ : Type} {db : Database σ} {st st' : σ}
    (h : (q.loadIncluded db schema []).run st = (.ok included, st')) : included = [] := by
  rw [loadIncluded, List.isEmpty_nil, Bool.or_true, if_pos rfl] at h
  exact (Except.ok.inj (Prod.mk.inj h).1).symm

/-- The includes are loaded for the keys of the rows, those of the further include as well. -/
theorem includes_of_includePath (hread : read' ≠ []) (hr : r ∈ q.includes)
    (h : ((q.includePath p).loadIncluded g.database schema read').run tables =
      (.ok included, tables₁)) :
    (Loading.includes g.database schema q.entity (.list (read'.map (·.at q.entity.primaryKey)))
      (q.includePath p).includes).run tables = (.ok included, tables₁) := by
  have hloaded := includes_of_loadIncluded hread
    (List.ne_nil_of_mem (q.includes_subset p hr)) h
  rwa [entity_includePath] at hloaded

/-- What is loaded under an include that is not displaced stays. -/
theorem agreeAt_loadIncluded (hg : g.ComparesKeys) (hL : IsMatching L)
    (hkey : q.entity.primaryKey ∉ taken) (hread : L (Row.AgreeOff taken) read read')
    (hr : r ∈ q.includes) (hkept : ¬q.Displaces schema p r)
    (h : (q.loadIncluded g.database schema read).run tables = (.ok included, tables₁))
    (h' : ((q.includePath p).loadIncluded g.database schema read').run tables =
      (.ok included', tables₂)) : Included.AgreeAt r included included' := by
  by_cases hnone : read = []
  · obtain rfl := (matching_eq_nil_iff hL hread).mp hnone
    subst hnone
    rw [loadIncluded_nil h, loadIncluded_nil h']
    rfl
  · have hsome : read' ≠ [] := fun hnil => hnone ((matching_eq_nil_iff hL hread).mpr hnil)
    have hids : ∀ {rows : List Row}, rows ≠ [] →
        rows.map (·.at q.entity.primaryKey) ≠ [] := fun hrows hnil =>
      hrows (List.map_eq_nil_iff.mp hnil)
    refine Loading.agreeAt_of_includes hg (hids hnone) (hids hsome)
      (sameKeys_of_matching hL hkey hread) (q.includes_subset p) hr ?_
      (includes_of_loadIncluded hnone (List.ne_nil_of_mem hr) h)
      (includes_of_includePath hsome hr h')
    intro hloads
    by_contra hnot
    exact hkept ⟨hnot, hloads⟩

/-- What is loaded under an include that is displaced: what its relations lead to. -/
theorem rowsOf_of_displaces (hg : g.ComparesKeys) (hread : read' ≠ [])
    (h : q.Displaces schema p r)
    (h' : ((q.includePath p).loadIncluded g.database schema read').run tables =
      (.ok included', tables₂)) :
    (included'.get? r).map Grouped.rowsOf =
      some (Loading.attached tables schema q.entity (read'.map (·.at q.entity.primaryKey)) r) := by
  have hloads := loadIncluded_loads hg hread h'
  rw [entity_includePath] at hloads
  exact hloads.rowsOf_relation h.2

/-- Under a joined relation nothing is loaded, unless its relations are. -/
theorem get?_loadIncluded_eager (hg : g.ComparesKeys) (hr : r ∈ q.includes)
    (heager : q.entity.joinsEagerly r = true)
    (hnot : ¬Loading.LoadsRelation schema q.entity q.includes r)
    (h : (q.loadIncluded g.database schema read).run tables = (.ok included, tables₁)) :
    included.get? r = none := by
  by_cases hnone : read = []
  · subst hnone
    rw [loadIncluded_nil h]
    rfl
  · have hids : read.map (·.at q.entity.primaryKey) ≠ [] := fun hnil =>
      hnone (List.map_eq_nil_iff.mp hnil)
    refine Option.eq_none_iff_forall_ne_some.mpr fun grouped hgrouped => ?_
    rcases Loading.loads_of_get?_includes hg hids
      (includes_of_loadIncluded hnone (List.ne_nil_of_mem hr) h) hgrouped with hloads | htrail
    · exact hnot hloads
    · cases ((Loading.mem_trails_iff hr).mp htrail).1.symm.trans heager

theorem nodup_loadIncluded (hg : g.ComparesKeys)
    (h : (q.loadIncluded g.database schema read).run tables = (.ok included, tables₁)) :
    included.keys.Nodup := by
  by_cases hnone : read = []
  · subst hnone
    rw [loadIncluded_nil h]
    exact List.nodup_nil
  · exact (loadIncluded_loads hg hnone h).nodup

end Query

end ListQuery
