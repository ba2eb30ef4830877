import ListQuery.Proofs.Execution.OneTable
import ListQuery.Proofs.Loading.Paths
import ListQuery.Proofs.Loading.Trail

/-!
# Attached relations

What a row carries under an include path once its related rows are attached. Under an audit trail
and under a path of one relation these are the rows to which the row itself leads. The rows of a
nested path, however, are kept by the keys of the rows before the last relation, and looked up by
the key of the row they are attached to: the row carries what it leads to exactly when this happens
to be the same.

* `Row.get?_attach` — attaching what was loaded;
* `includes_loads` — what is loaded for some rows;
* `runAll_parts`, `runAll_carries` — a run, and what the rows of a query carry.
-/

namespace ListQuery

open Sql Database

-- ---------------------------------------------------------------------------
-- Attaching
-- ---------------------------------------------------------------------------

namespace Row

variable {primaryKey p : String} {included : Included} {grouped : Grouped} {row row' : Row}

theorem attachPath_eq_ok {loaded : String × Grouped}
    (h : attachPath primaryKey row loaded = .ok row') :
    (row.at primaryKey).isKey = true ∧
      row' = row.put loaded.1 (.list ((loaded.2.rowsOf (row.at primaryKey)).map .record)) := by
  rw [attachPath] at h
  obtain ⟨key, hkey, h⟩ := bind_eq_ok.mp h
  rw [value_eq_ok hkey]
  split at h
  case isTrue hisKey => exact ⟨hisKey, (Except.ok.inj h).symm⟩
  case isFalse => cases h

theorem at_put_of_ne {name other : String} (v : Value) (h : other ≠ name) :
    Row.at (row.put name v) other = row.at other := by
  rw [Row.at, Row.at, Entries.get?_put_of_ne _ _ h]

theorem at_put_self (name : String) (v : Value) : Row.at (row.put name v) name = v := by
  rw [Row.at, Entries.get?_put_self]
  rfl

theorem get?_attach_of_notMem (hp : p ∉ included.keys)
    (h : attach primaryKey included row = .ok row') : row'.get? p = row.get? p := by
  refine of_foldlM_eq_ok (P := fun _ out => out.get? p = row.get? p)
    (fun loaded hloaded _ mid out hdone hstep => ?_) rfl h
  obtain ⟨-, rfl⟩ := attachPath_eq_ok hstep
  have hne : p ≠ loaded.1 := fun heq => hp (heq ▸ List.mem_map_of_mem hloaded)
  rw [Entries.get?_put_of_ne _ _ hne, hdone]

/-- Under a path stand the rows that were loaded for the key of the row. -/
theorem get?_attach (hn : included.keys.Nodup) (hp : included.get? p = some grouped)
    (h : attach primaryKey included row = .ok row') :
    row'.get? p = some (.list ((grouped.rowsOf (row.at primaryKey)).map .record)) := by
  induction included generalizing row with
  | nil => cases hp
  | cons e included ih =>
    obtain ⟨path, grouped'⟩ := e
    obtain ⟨hpath, hn⟩ := List.nodup_cons.mp hn
    rw [attach, List.foldlM_cons] at h
    obtain ⟨row₁, hattach, h⟩ := bind_eq_ok.mp h
    obtain ⟨-, rfl⟩ := attachPath_eq_ok hattach
    rw [Entries.get?, List.lookup_cons] at hp
    cases hhere : p == path with
    | true =>
      rw [hhere] at hp
      obtain rfl := Option.some.inj hp
      obtain rfl := beq_iff_eq.mp hhere
      rw [get?_attach_of_notMem hpath h, Entries.get?_put_self]
    | false =>
      rw [hhere] at hp
      have hrest := ih hn hp h
      by_cases hkey : path = primaryKey
      · -- rows in the place of the key would be no key for the rest
        cases included with
        | nil => cases hp
        | cons e' included =>
          rw [List.foldlM_cons] at h
          obtain ⟨row₂, hattach', -⟩ := bind_eq_ok.mp h
          have hisKey := (attachPath_eq_ok hattach').1
          rw [hkey, at_put_self] at hisKey
          cases hisKey
      · rwa [at_put_of_ne _ (Ne.symm hkey)] at hrest

theorem get?_stripHidden {hidden : List String} (hp : p ∉ hidden) :
    (stripHidden hidden row).get? p = row.get? p := by
  have hkept : (!hidden.contains p) = true := by
    rw [Bool.not_eq_true', ← Bool.not_eq_true, List.contains_iff_mem]
    exact hp
  rw [stripHidden_eq_filter]
  exact Entries.get?_filter_of_kept (fun name => !hidden.contains name) hkept

theorem get?_stripHidden_of_mem {hidden : List String} (hp : p ∈ hidden) :
    (stripHidden hidden row).get? p = none := by
  rw [stripHidden_eq_filter]
  refine List.lookup_eq_none_iff.mpr fun e he => ?_
  have hkept := (List.mem_filter.mp he).2
  rw [Bool.not_eq_true', ← Bool.not_eq_true, List.contains_iff_mem] at hkept
  rw [bne_iff_ne]
  exact fun heq => hkept (heq ▸ hp)

-- ---------------------------------------------------------------------------
-- Rows under a path
-- ---------------------------------------------------------------------------

/-- The row has some rows under a path, in some order. -/
def Carries (row : Row) (p : String) (rows : List Row) : Prop :=
  ∃ found : List Row, row.get? p = some (.list (found.map .record)) ∧ found.Perm rows

theorem carries_iff {found rows : List Row} (h : row.get? p = some (.list (found.map .record))) :
    row.Carries p rows ↔ found.Perm rows := by
  constructor
  · rintro ⟨found', hfound', hperm⟩
    rw [h] at hfound'
    have hrecords := Value.list.inj (Option.some.inj hfound')
    rwa [List.map_injective_iff.mpr Value.record_injective hrecords]
  · exact fun hperm => ⟨found, h, hperm⟩

end Row

-- ---------------------------------------------------------------------------
-- What is loaded
-- ---------------------------------------------------------------------------

namespace Loading

/-- The paths that are loaded for some rows. -/
def wanted (e : Entity) (paths : List String) : List String :=
  (relationPaths paths).filter (!e.joinsEagerly ·)

/-- The paths that are loaded as audit trails. -/
def trails (e : Entity) (paths : List String) : List String :=
  (wanted e paths).filter Audit.handles

/-- The paths that are loaded by their relations. -/
def others (e : Entity) (paths : List String) : List String :=
  (wanted e paths).filter (!Audit.handles ·)

/-- The relations of a path are there, and it is loaded by them, or on the way to a longer one. -/
def LoadsRelation (schema : Schema) (e : Entity) (paths : List String) (p : String) : Prop :=
  Resolves schema e p ∧ ∃ p' ∈ others e paths, segments p <+: segments p'

/-- A path is loaded as a trail, and no longer path over it is loaded by relations. -/
def LoadsTrail (schema : Schema) (e : Entity) (paths : List String) (p : String) : Prop :=
  p ∈ trails e paths ∧ ¬LoadsRelation schema e paths p

/-- What is loaded for some rows. -/
structure LoadsIncludes (tables : Tables) (schema : Schema) (e : Entity) (ids : List Value)
    (paths : List String) (included : Included) : Prop where
  nodup    : included.keys.Nodup
  relation : ∀ p, LoadsRelation schema e paths p →
    ∃ grouped target keys, included.get? p = some grouped ∧
      reach tables schema e ids (segments p).dropLast = some (target, keys) ∧
      grouped.Holds keys (related tables schema target ((segments p).getLastD ""))
  trail    : ∀ p, LoadsTrail schema e paths p →
    ∃ grouped, included.get? p = some grouped ∧
      grouped.Holds ids (Audit.trail tables e.table e.primaryKey p)

variable {tables tables' : Tables} {schema : Schema} {e : Entity} {ids : List Value}
  {paths : List String} {g : Engine}

/-- Nothing is loaded where nothing is wanted. -/
theorem loadsIncludes_nil (hwanted : wanted e paths = []) :
    LoadsIncludes tables schema e ids paths [] where
  nodup := List.nodup_nil
  relation := by
    rintro p ⟨-, p', hp', -⟩
    rw [others, hwanted] at hp'
    cases hp'
  trail := by
    rintro p ⟨hp, -⟩
    rw [trails, hwanted] at hp
    cases hp

/-- Only paths whose relations there are are loaded by them. -/
theorem loadsRelation_of_get? {related : Included}
    (hrelated : LoadsAll tables schema e ids (others e paths) related) {p : String}
    {grouped : Grouped} (hp : related.get? p = some grouped) : LoadsRelation schema e paths p := by
  obtain ⟨before, name, target, keys, hsplit, hreach, hname, -⟩ := hrelated.isLoaded p grouped hp
  obtain ⟨hbefore, hlast⟩ := dropLast_getLastD hsplit
  refine ⟨⟨target, ?_, hlast ▸ hname⟩, hrelated.wanted p grouped hp⟩
  rw [← map_reach tables schema e ids, hbefore, hreach]
  rfl

/-- What the relations of the other paths lead to is put over the trails. -/
theorem loadsIncludes_foldl_put {audited related : Included}
    (haudited : Audit.LoadsTrails tables e.table e.primaryKey ids (trails e paths) audited)
    (hrelated : LoadsAll tables schema e ids (others e paths) related) :
    LoadsIncludes tables schema e ids paths
      (related.foldl (fun included entry => included.put entry.1 entry.2) audited) where
  nodup := Entries.nodup_keys_foldl_put related haudited.nodup
  relation := by
    rintro p ⟨⟨target, htarget, hname⟩, p', hp', rest, hrest⟩
    rw [← map_reach tables schema e ids] at htarget
    obtain ⟨⟨_, keys⟩, hreach, rfl⟩ := Option.map_eq_some_iff.mp htarget
    have hsegments := exists_segments p
    rw [hsegments, List.append_assoc] at hrest
    obtain ⟨grouped, hknown⟩ := hrelated.complete p' hp' _ _ rest _ keys hrest.symm hreach hname
    rw [← hsegments, join_segments] at hknown
    obtain ⟨before, name, target, keys', hsplit, hreach', -, hholds⟩ :=
      hrelated.isLoaded p grouped hknown
    obtain ⟨hbefore, hlast⟩ := dropLast_getLastD hsplit
    refine ⟨grouped, target, keys', ?_, hbefore ▸ hreach', hlast ▸ hholds⟩
    rw [Entries.get?_foldl_put hrelated.nodup, hknown]
    rfl
  trail := by
    rintro p ⟨hp, hnone⟩
    obtain ⟨grouped, hknown⟩ := haudited.complete p hp
    refine ⟨grouped, ?_, haudited.holds p grouped hknown⟩
    -- a path that is loaded by relations as well would be loaded by them
    have hunknown : related.get? p = none :=
      Option.eq_none_iff_forall_ne_some.mpr fun _ hgrouped' =>
        hnone (loadsRelation_of_get? hrelated hgrouped')
    rw [Entries.get?_foldl_put hrelated.nodup, hunknown, Option.none_or]
    exact hknown

section

variable {σ : Type} (db : Database σ)

/-- The audit trails, if there are any. -/
def loadTrails (e : Entity) (ids : Value) (ps : List String) : Session σ Included :=
  if ps.isEmpty then pure [] else Audit.paths db e.table e.primaryKey ids ps

/-- The other paths, if there are any. -/
def loadOthers (schema : Schema) (e : Entity) (ids : Value) (ps : List String) :
    Session σ Included :=
  if ps.isEmpty then pure [] else Loading.paths db schema e ids ps

/-- The trails are loaded first, and then the others. -/
theorem includes_eq (hids : ids ≠ []) (hwanted : wanted e paths ≠ []) :
    includes db schema e (.list ids) paths = (do
      let audited ← loadTrails db e (.list ids) (trails e paths)
      let related ← loadOthers db schema e (.list ids) (others e paths)
      pure (related.foldl (fun included entry => included.put entry.1 entry.2) audited)) := by
  have hsome : ((Value.list ids).isVoid || (wanted e paths).isEmpty) = false := by
    rw [Bool.or_eq_false_iff, List.isEmpty_eq_false_iff]
    exact ⟨List.isEmpty_eq_false_iff.mpr hids, hwanted⟩
  unfold includes loadTrails loadOthers
  dsimp only
  rw [if_neg (by rw [Bool.not_eq_true]; exact hsome)]
  -- a choice is made before what follows it
  change (if (trails e paths).isEmpty = true then _ else _) = _
  split
  case isTrue => exact bind_congr fun _ => (apply_ite (· >>= _) _ _ _).symm
  case isFalse => exact bind_congr fun _ => (apply_ite (· >>= _) _ _ _).symm

end

/-- What is loaded for some rows: the trails, and what the relations of the other paths lead to put
over them. -/
theorem includes_parts (hg : g.ComparesKeys) (hids : ids ≠ []) {included : Included}
    (h : (includes g.database schema e (.list ids) paths).run tables = (.ok included, tables')) :
    tables' = tables ∧ ∃ audited related,
      Audit.LoadsTrails tables e.table e.primaryKey ids (trails e paths) audited ∧
      (∀ p grouped, audited.get? p = some grouped → p ∈ trails e paths) ∧
      LoadsAll tables schema e ids (others e paths) related ∧
      included = related.foldl (fun included entry => included.put entry.1 entry.2) audited := by
  by_cases hwanted : wanted e paths = []
  · rw [includes] at h
    dsimp only at h
    rw [if_pos (by rw [Bool.or_eq_true]; exact .inr (List.isEmpty_iff.mpr hwanted))] at h
    obtain ⟨hnone, rfl⟩ := Prod.mk.inj h
    obtain rfl := Except.ok.inj hnone
    rw [trails, others, hwanted]
    exact ⟨rfl, [], [], Audit.loadsTrails_nil, fun _ _ hp => (by cases hp), loadsAll_nil, rfl⟩
  · rw [includes_eq _ hids hwanted, run_bind_eq_ok] at h
    obtain ⟨audited, st₁, haudited, h⟩ := h
    rw [run_bind_eq_ok] at h
    obtain ⟨related, st₂, hrelated, h⟩ := h
    obtain ⟨hincluded, rfl⟩ := Prod.mk.inj h
    obtain rfl := Except.ok.inj hincluded
    have htrails : st₁ = tables ∧
        Audit.LoadsTrails tables e.table e.primaryKey ids (trails e paths) audited ∧
        ∀ p grouped, audited.get? p = some grouped → p ∈ trails e paths := by
      rw [loadTrails] at haudited
      split at haudited
      case isTrue hempty =>
        obtain ⟨hnone, rfl⟩ := Prod.mk.inj haudited
        obtain rfl := Except.ok.inj hnone
        rw [List.isEmpty_iff.mp hempty]
        exact ⟨rfl, Audit.loadsTrails_nil, fun _ _ hp => (by cases hp)⟩
      case isFalse =>
        have hloads := Audit.paths_loadsTrails hg hids haudited
        rw [trails, List.filter_filter] at hloads
        simp only [Bool.and_self] at hloads
        exact ⟨hloads.1, hloads.2, fun _ _ => Audit.mem_of_paths haudited⟩
    obtain ⟨rfl, htrails, honly⟩ := htrails
    have hothers : st₂ = st₁ ∧ LoadsAll st₁ schema e ids (others e paths) related := by
      rw [loadOthers] at hrelated
      split at hrelated
      case isTrue hempty =>
        obtain ⟨hnone, rfl⟩ := Prod.mk.inj hrelated
        obtain rfl := Except.ok.inj hnone
        rw [List.isEmpty_iff.mp hempty]
        exact ⟨rfl, loadsAll_nil⟩
      case isFalse => exact paths_loadsAll hg hrelated
    obtain ⟨rfl, hothers⟩ := hothers
    exact ⟨rfl, audited, related, htrails, honly, hothers, rfl⟩

/-- What is loaded for some rows is what the includes lead to. -/
theorem includes_loads (hg : g.ComparesKeys) (hids : ids ≠ []) {included : Included}
    (h : (includes g.database schema e (.list ids) paths).run tables = (.ok included, tables')) :
    tables' = tables ∧ LoadsIncludes tables schema e ids paths included := by
  obtain ⟨rfl, audited, related, htrails, -, hothers, rfl⟩ := includes_parts hg hids h
  exact ⟨rfl, loadsIncludes_foldl_put htrails hothers⟩

/-- Nothing else is loaded. -/
theorem loads_of_get?_includes (hg : g.ComparesKeys) (hids : ids ≠ []) {included : Included}
    (h : (includes g.database schema e (.list ids) paths).run tables = (.ok included, tables'))
    {p : String} {grouped : Grouped} (hp : included.get? p = some grouped) :
    LoadsRelation schema e paths p ∨ p ∈ trails e paths := by
  obtain ⟨-, audited, related, -, honly, hothers, rfl⟩ := includes_parts hg hids h
  rw [Entries.get?_foldl_put hothers.nodup] at hp
  cases hrelated : related.get? p with
  | some grouped' => exact .inl (loadsRelation_of_get? hothers hrelated)
  | none =>
    rw [hrelated, Option.none_or] at hp
    exact .inr (honly p grouped hp)

end Loading

-- ---------------------------------------------------------------------------
-- What the rows of a query carry
-- ---------------------------------------------------------------------------

namespace Query

/-- What a delivered row has under the include paths, by the row that was read for it and the keys
of all rows that were read. -/
structure CarriesIncludes (q : Query) (tables : Tables) (schema : Schema) (hidden : List String)
    (ids : List Value) (row record : Row) : Prop where
  shown    : ∀ p, Loading.LoadsRelation schema q.entity q.includes p → p ∉ hidden →
    record.Carries p (Loading.attached tables schema q.entity ids p (row.at q.entity.primaryKey))
  relation : ∀ p, Loading.LoadsRelation schema q.entity q.includes p →
    (record.Carries p (Loading.reachable tables schema q.entity p (row.at q.entity.primaryKey)) ↔
      p ∉ hidden ∧
        (Loading.attached tables schema q.entity ids p (row.at q.entity.primaryKey)).Perm
          (Loading.reachable tables schema q.entity p (row.at q.entity.primaryKey)))
  single   : ∀ p name, Loading.LoadsRelation schema q.entity q.includes p → segments p = [name] →
    p ∉ hidden →
      record.Carries p (Loading.reachable tables schema q.entity p (row.at q.entity.primaryKey))
  trail    : ∀ p, Loading.LoadsTrail schema q.entity q.includes p → p ∉ hidden →
    record.Carries p
      (Audit.trail tables q.entity.table q.entity.primaryKey p (row.at q.entity.primaryKey))

variable {q : Query} {tables tables' : Tables} {schema : Schema} {g : Engine} {included : Included}
  {ids : List Value} {hidden : List String}

/-- A row that gets what was loaded for it and others. -/
theorem carriesIncludes_of_loads (h : Loading.LoadsIncludes tables schema q.entity ids q.includes
    included) {row row' : Row} (hid : row.at q.entity.primaryKey ∈ ids)
    (hattach : row.attach q.entity.primaryKey included = .ok row') :
    q.CarriesIncludes tables schema hidden ids row (row'.stripHidden hidden) := by
  have hrelation : ∀ p, Loading.LoadsRelation schema q.entity q.includes p →
      row'.get? p = some (.list ((Loading.attached tables schema q.entity ids p
        (row.at q.entity.primaryKey)).map .record)) := by
    intro p hp
    obtain ⟨grouped, target, keys, hknown, hreach, hholds⟩ := h.relation p hp
    rw [Row.get?_attach h.nodup hknown hattach, hholds.rowsOf, Loading.attached, hreach]
  have hshown : ∀ p, Loading.LoadsRelation schema q.entity q.includes p → p ∉ hidden →
      (row'.stripHidden hidden).get? p = some (.list ((Loading.attached tables schema q.entity ids p
        (row.at q.entity.primaryKey)).map .record)) := by
    intro p hp hhidden
    rw [Row.get?_stripHidden hhidden, hrelation p hp]
  refine ⟨?_, ?_, ?_, ?_⟩
  · intro p hp hhidden
    exact (Row.carries_iff (hshown p hp hhidden)).mpr (.refl _)
  · intro p hp
    by_cases hhidden : p ∈ hidden
    · refine iff_of_false ?_ fun h => h.1 hhidden
      rintro ⟨found, hfound, -⟩
      rw [Row.get?_stripHidden_of_mem hhidden] at hfound
      cases hfound
    · rw [Row.carries_iff (hshown p hp hhidden)]
      exact (and_iff_right hhidden).symm
  · intro p name hp hname hhidden
    rw [Row.carries_iff (hshown p hp hhidden), Loading.attached_eq_reachable hid hname]
  · intro p hp hhidden
    obtain ⟨grouped, hknown, hholds⟩ := h.trail p hp
    have htrail := Row.get?_attach h.nodup hknown hattach
    rw [← Row.get?_stripHidden hhidden] at htrail
    have hown : Audit.trail tables q.entity.table q.entity.primaryKey p
        (row.at q.entity.primaryKey) ≠ [] →
          ids.any (row.at q.entity.primaryKey).links = true := by
      intro hne
      obtain ⟨found, hfound⟩ := List.exists_mem_of_ne_nil _ hne
      exact List.any_eq_true.mpr ⟨_, hid, Audit.links_self_of_mem_trail hfound⟩
    rw [Row.carries_iff htrail, hholds.rowsOf]
    split
    case isTrue => exact .refl _
    case isFalse hnone => rw [Classical.byContradiction fun hne => hnone (hown hne)]

/-- The includes are loaded for the keys of the rows. -/
theorem includes_of_loadIncluded {σ : Type} {db : Database σ} {st st' : σ} {rows : List Row}
    (hrows : rows ≠ []) (hincludes : q.includes ≠ [])
    (h : (q.loadIncluded db schema rows).run st = (.ok included, st')) :
    (Loading.includes db schema q.entity (.list (rows.map (·.at q.entity.primaryKey)))
      q.includes).run st = (.ok included, st') := by
  have hsome : (q.includes.isEmpty || rows.isEmpty) = false := by
    rw [Bool.or_eq_false_iff, List.isEmpty_eq_false_iff, List.isEmpty_eq_false_iff]
    exact ⟨hincludes, hrows⟩
  rw [loadIncluded, hsome, if_neg Bool.false_ne_true, run_pureStep_bind_eq_ok] at h
  obtain ⟨ids, hids, h⟩ := h
  have hkeys : List.Forall₂ (fun row v => row.at q.entity.primaryKey = v) rows ids :=
    (mapM_eq_ok.mp hids).imp fun _ _ => Row.value_eq_ok
  have heq : rows.map (·.at q.entity.primaryKey) = ids := by
    rw [← List.forall₂_eq_eq_eq, List.forall₂_map_left_iff]
    exact hkeys
  rwa [heq]

/-- What is loaded for some rows is loaded for their keys. -/
theorem loadIncluded_loads (hg : g.ComparesKeys) {rows : List Row} (hrows : rows ≠ [])
    (h : (q.loadIncluded g.database schema rows).run tables = (.ok included, tables')) :
    Loading.LoadsIncludes tables schema q.entity (rows.map (·.at q.entity.primaryKey)) q.includes
      included := by
  by_cases hplain : q.includes = []
  · rw [loadIncluded, hplain] at h
    obtain ⟨hincluded, -⟩ := Prod.mk.inj h
    obtain rfl := Except.ok.inj hincluded
    rw [hplain]
    exact Loading.loadsIncludes_nil rfl
  · have hids : rows.map (·.at q.entity.primaryKey) ≠ [] := fun hnil =>
      hrows (List.map_eq_nil_iff.mp hnil)
    exact (Loading.includes_loads hg hids (includes_of_loadIncluded hrows hplain h)).2

/-- What is fetched are the rows that the statement reads, folded. -/
theorem fetch_parts {joins : List (String × EagerJoin)} {st : Statement} {rows : List Row}
    (h : (fetch g.database joins st).run tables = (.ok rows, tables')) :
    st.labels.Nodup ∧ (g.rows tables st).mapM (Row.fold joins) = .ok rows ∧ tables' = tables := by
  rw [fetch, run_bind_eq_ok] at h
  obtain ⟨read, st₁, hread, hfold⟩ := h
  obtain ⟨hlabels, rfl, rfl⟩ := Engine.run_readRows_eq_ok hread
  obtain ⟨hfold, htables⟩ := Prod.mk.inj hfold
  exact ⟨hlabels, hfold, htables.symm⟩

/-- A fetch leaves the tables as they are. -/
theorem fetch_tables {joins : List (String × EagerJoin)} {st : Statement} {rows : List Row}
    (h : (fetch g.database joins st).run tables = (.ok rows, tables')) : tables' = tables :=
  (fetch_parts h).2.2

/-- The parts of a run over all rows. The tables stay as they are until relations are loaded. -/
theorem runAll_parts {all : List Row} (h : q.runAll g.database schema tables = (.ok all, tables')) :
    ∃ c read included rows tables₂, q.compile schema false = .ok c ∧
      (fetch g.database c.joins c.select).run tables = (.ok read, tables) ∧
      (q.loadIncluded g.database schema read).run tables = (.ok included, tables₂) ∧
      read.mapM (Row.attach q.entity.primaryKey included) = .ok rows ∧
      all = rows.map (Row.stripHidden c.hidden) := by
  obtain ⟨st₁, hwork, -⟩ := withConnection_eq_ok g.database |>.mp h
  obtain ⟨c, read, st₂, included, rows, hc, hread, hincluded, hrows, hall⟩ := rowsWork_parts hwork
  obtain rfl := fetch_tables hread
  exact ⟨c, read, included, rows, st₁, hc, hread, hincluded, hrows, hall⟩

/-- Each delivered row of a run over all rows carries what is attached to the row that was read for
it. -/
theorem runAll_carries (hg : g.ComparesKeys) {all : List Row}
    (h : q.runAll g.database schema tables = (.ok all, tables')) :
    ∃ c read, q.compile schema false = .ok c ∧
      (fetch g.database c.joins c.select).run tables = (.ok read, tables) ∧
      List.Forall₂ (q.CarriesIncludes tables schema c.hidden (read.map (·.at q.entity.primaryKey)))
        read all := by
  obtain ⟨c, read, included, rows, st, hc, hread, hincluded, hrows, rfl⟩ := runAll_parts h
  refine ⟨c, read, hc, hread, ?_⟩
  rw [List.forall₂_map_right_iff]
  by_cases hnone : read = []
  · subst hnone
    obtain rfl := Except.ok.inj hrows
    exact .nil
  · have hloads := loadIncluded_loads hg hnone hincluded
    have hkeys : ∀ row ∈ read, row.at q.entity.primaryKey ∈
        read.map (·.at q.entity.primaryKey) :=
      fun row hrow => List.mem_map.mpr ⟨row, hrow, rfl⟩
    refine ((List.forall₂_and_left _ _).mpr ⟨hkeys, mapM_eq_ok.mp hrows⟩).imp fun row row' h => ?_
    exact carriesIncludes_of_loads hloads h.1 h.2

end Query

-- ---------------------------------------------------------------------------
-- Authors, their books and the reviews of these
-- ---------------------------------------------------------------------------

/-- The engine for integers tells keys apart as the program does. -/
theorem Sql.Engine.comparesKeys_integers : integers.ComparesKeys where
  joins _ _ _ _ := rfl
  member := by
    intro c ids v
    show (!v.isNull && ids.any v.same) = ids.any fun w => !v.isNull && v.same w
    cases v.isNull with
    | true =>
      symm
      exact List.any_eq_false.mpr fun _ _ => Bool.false_ne_true
    | false => rfl

def Relation.manyIn (table key target : String) : Relation where
  table           := table
  kind            := .hasMany
  foreignKey      := some key
  ownerKey        := "id"
  columns         := none
  eager           := false
  target          := some target
  pivot           := none
  pivotForeignKey := none
  pivotRelatedKey := none

/-- An entity of which only the key is shown. -/
def Entity.keyed (table : String) (relations : Entries Relation) : Entity where
  table            := table
  filterFields     := []
  sortFields       := []
  selectFields     := ["id"]
  includePaths     := []
  defaultSort      := none
  defaultSelection := some ["id"]
  searchFields     := []
  primaryKey       := "id"
  softDelete       := none
  types            := [("id", .integer)]
  relations        := relations

def Schema.library : Schema :=
  [("book", .keyed "books" [("reviews", .manyIn "reviews" "book_id" "review")]),
    ("review", .keyed "reviews" [])]

/-- The authors with the reviews of their books. -/
def Query.library : Query where
  entity   := .keyed "authors" [("books", .manyIn "books" "author_id" "book")]
  includes := ["books.reviews"]

def Sql.Record.ofInts (entries : Entries Int) : Record :=
  fun name => .optional .int (entries.get? name)

/-- One author has a book, whose key is the key of the other author; the book has a review. -/
def Sql.Tables.library : Tables
  | "authors" => [.ofInts [("id", 1)], .ofInts [("id", 2)]]
  | "books"   => [.ofInts [("id", 2), ("author_id", 1)]]
  | "reviews" => [.ofInts [("id", 5), ("book_id", 2)]]
  | _         => []

/-- The rows that a statement reads, sorted only where there is something to sort by. -/
def Sql.Engine.rowsAsAsked (g : Engine) (tables : Tables) (st : Statement) : List Row :=
  match st.projection, st.order, st.limit with
  | .columns os, [], none => (g.found tables st).map (project os)
  | _,           _,  _    => g.rows tables st

theorem Sql.Engine.rowsAsAsked_eq_rows (g : Engine) : g.rowsAsAsked = g.rows := by
  funext tables st
  rw [rowsAsAsked]
  split
  case h_1 hos horder hlimit => exact (rows_of_unordered hos horder hlimit).symm
  case h_2 => rfl

/-- The engine as a database that sorts only where there is something to sort by. -/
theorem Sql.Engine.database_eq (g : Engine) :
    g.database =
      { g.database with
        rows := fun st tables =>
          (if st.labels.Nodup then .ok (g.rowsAsAsked tables st) else .error ambiguous,
            tables) } := by
  rw [rowsAsAsked_eq_rows]
  rfl

namespace Query

/-- Here the run can be evaluated: none of its statements has anything to sort by. -/
theorem exists_runAll_library :
    ∃ all tables', library.runAll Engine.integers.database .library .library =
      (.ok all, tables') := by
  have hok : (library.runAll Engine.integers.database .library .library).1.isOk = true := by
    rw [Engine.database_eq]
    decide +kernel
  generalize library.runAll Engine.integers.database .library .library = result at hok
  obtain ⟨result, tables'⟩ := result
  cases result with
  | error e => cases hok
  | ok all => exact ⟨all, tables', rfl⟩

/-- One author lacks the review that is reached from it, and the other one carries it. -/
theorem runAll_carries_library :
    ∃ first second tables',
      library.runAll Engine.integers.database .library .library = (.ok [first, second], tables') ∧
      Loading.reachable .library .library library.entity "books.reviews" (.int 1) =
        [[("id", .int 5)]] ∧
      ¬first.Carries "books.reviews" [[("id", .int 5)]] ∧
      Loading.reachable .library .library library.entity "books.reviews" (.int 2) = [] ∧
      second.Carries "books.reviews" [[("id", .int 5)]] := by
  obtain ⟨all, tables', hrun⟩ := exists_runAll_library
  obtain ⟨c, read, hc, hread, hcarries⟩ := runAll_carries Engine.comparesKeys_integers hrun
  obtain rfl := Except.ok.inj hc
  have hrows : read = [[("id", .int 1)], [("id", .int 2)]] := by
    obtain ⟨-, hread, -⟩ := (fetch_eq_ok rfl).mp hread
    rw [hread, Engine.rows_of_unordered rfl rfl rfl]
    rfl
  subst hrows
  obtain ⟨first, rest, hfirst, hrest, rfl⟩ := List.forall₂_cons_left_iff.mp hcarries
  obtain ⟨second, rest', hsecond, hrest', rfl⟩ := List.forall₂_cons_left_iff.mp hrest
  obtain rfl := List.forall₂_nil_left_iff.mp hrest'
  have hloads : Loading.LoadsRelation .library library.entity library.includes "books.reviews" :=
    ⟨⟨_, rfl, rfl⟩, "books.reviews", by decide, List.prefix_rfl⟩
  refine ⟨first, second, tables', hrun, rfl, ?_, rfl, ?_⟩
  · intro hfound
    have hperm := ((hfirst.relation _ hloads).mp hfound).2
    exact List.not_perm_nil_cons _ _ hperm
  · exact hsecond.shown _ hloads List.not_mem_nil

end Query

end ListQuery
