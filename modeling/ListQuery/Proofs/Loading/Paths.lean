import ListQuery.Loading.Includes
import ListQuery.Proofs.Include
import ListQuery.Proofs.Loading.Related

/-!
# Following paths

A path leads from some rows to the related rows of its first relation, from these to those of the
second one, and so on. What is loaded for a path of two relations or more are the rows related to all
rows that the relation before the last one leads to, by the keys of those rows.

* `reach` — where the relations of a path lead;
* `IsLoaded` — what was loaded is what the paths lead to;
* `pathFrom_loads`, `Loads.isLoaded` — loading paths.
-/

namespace ListQuery.Loading

open Sql Database Text

-- ---------------------------------------------------------------------------
-- Keys of rows
-- ---------------------------------------------------------------------------

/-- The keys of some rows. -/
def keysIn (column : String) (rows : List Row) : List Value := rows.filterMap (·.get? column)

theorem mem_of_isAmong {v : Value} {seen : List Value} (h : isAmong v seen = .ok true) :
    ∃ w ∈ seen, w.equal v = .ok true := by
  induction seen with
  | nil => cases Except.ok.inj h
  | cons w seen ih =>
    rw [isAmong] at h
    obtain ⟨b, hb, h⟩ := bind_eq_ok.mp h
    cases b with
    | true => exact ⟨w, List.mem_cons_self, hb⟩
    | false =>
      obtain ⟨w', hw', heq⟩ := ih h
      exact ⟨w', List.mem_cons_of_mem w hw', heq⟩

theorem links_null (k : Value) {v : Value} (h : v.isNull = true) : k.links v = false := by
  rw [Value.links_comm, Value.links, h]
  rfl

/-- One more key counts, unless it is there already. -/
theorem any_links_addKey {seen seen' : List Value} {v : Value} (h : addKey seen v = .ok seen')
    (k : Value) : seen'.any k.links = (seen.any k.links || k.links v) := by
  rw [addKey] at h
  split at h
  case isTrue hnull =>
    obtain rfl := Except.ok.inj h
    rw [links_null k hnull, Bool.or_false]
  case isFalse =>
    obtain ⟨b, hb, h⟩ := bind_eq_ok.mp h
    cases b with
    | false =>
      obtain rfl := Except.ok.inj h
      rw [List.any_append, List.any_cons, List.any_nil, Bool.or_false]
    | true =>
      obtain rfl := Except.ok.inj h
      obtain ⟨w, hw, hequal⟩ := mem_of_isAmong hb
      have hform := Value.keyForm_of_equal hequal
      cases hlinks : k.links v with
      | false => rw [Bool.or_false]
      | true =>
        rw [Bool.or_true]
        refine List.any_eq_true.mpr ⟨w, hw, ?_⟩
        rwa [Value.links, Value.same_comm k, Value.same_congr hform, Value.same_comm v]

/-- The keys of rows, each once, are those of the rows. -/
theorem any_links_keysOf {column : String} {rows : List Row} {keys : List Value}
    (h : keysOf column rows = .ok keys) (k : Value) :
    keys.any k.links = (keysIn column rows).any k.links := by
  refine of_foldlM_eq_ok (P := fun done seen => seen.any k.links = done.any k.links)
    (fun v _ done seen seen' hdone hadd => ?_) rfl h
  rw [any_links_addKey hadd, hdone, List.any_append, List.any_cons, List.any_nil, Bool.or_false]

-- ---------------------------------------------------------------------------
-- Where paths lead
-- ---------------------------------------------------------------------------

variable (tables : Tables) (schema : Schema)

/-- One relation further: the entity of its rows and their keys. -/
def step? (place : Entity × List Value) (name : String) : Option (Entity × List Value) := do
  let r ← place.1.relation? name
  let target ← r.target.bind schema.get?
  some (target,
    keysIn target.primaryKey (place.2.flatMap (related tables schema place.1 name)))

/-- The entity to which some relations lead, one after the other, and the keys of its rows to which
they lead from some rows. -/
def reach (e : Entity) (keys : List Value) (names : List String) : Option (Entity × List Value) :=
  names.foldlM (step? tables schema) (e, keys)

theorem reach_concat (e : Entity) (keys : List Value) (before : List String) (name : String) :
    reach tables schema e keys (before ++ [name]) =
      (reach tables schema e keys before).bind fun place => step? tables schema place name := by
  rw [reach, List.foldlM_append]
  show (reach tables schema e keys before).bind _ = _
  refine congrArg _ (funext fun place => ?_)
  exact bind_pure _

/-- The entity to which some relations lead, whatever the rows are. -/
def entityAt? (e : Entity) (names : List String) : Option Entity :=
  names.foldlM (fun e name => (e.relation? name).bind fun r => r.target.bind schema.get?) e

theorem map_reach (e : Entity) (keys : List Value) (names : List String) :
    (reach tables schema e keys names).map (·.1) = entityAt? schema e names := by
  induction names generalizing e keys with
  | nil => rfl
  | cons name names ih =>
    rw [reach, entityAt?, List.foldlM_cons, List.foldlM_cons]
    show ((step? tables schema (e, keys) name).bind _).map _ =
      ((e.relation? name).bind fun r => r.target.bind schema.get?).bind _
    rw [step?]
    cases e.relation? name with
    | none => rfl
    | some r =>
      show ((r.target.bind schema.get?).bind _ |>.bind _).map _ =
        (r.target.bind schema.get?).bind _
      cases r.target.bind schema.get? with
      | none => rfl
      | some target => exact ih target _

/-- A path whose relations there are, the last one included. -/
def Resolves (e : Entity) (p : String) : Prop :=
  ∃ target, entityAt? schema e (segments p).dropLast = some target ∧
    (target.relation? ((segments p).getLastD "")).isSome = true

/-- The rows that are reached from the row with a key by following a path. -/
def reachable (e : Entity) (p : String) (k : Value) : List Row :=
  match reach tables schema e [k] (segments p).dropLast with
  | some (target, keys) => keys.flatMap (related tables schema target ((segments p).getLastD ""))
  | none                => []

/-- The rows that are attached to the row with a key, among rows with some keys: those related to
the row with this key that the relations before the last one lead to from any of the rows. -/
def attached (e : Entity) (ids : List Value) (p : String) (k : Value) : List Row :=
  match reach tables schema e ids (segments p).dropLast with
  | some (target, keys) =>
    if keys.any k.links then related tables schema target ((segments p).getLastD "") k else []
  | none => []

section
variable {tables schema} {e : Entity} {ids : List Value} {p : String} {before : List String}
  {name : String}

theorem dropLast_getLastD (h : segments p = before ++ [name]) :
    (segments p).dropLast = before ∧ (segments p).getLastD "" = name := by
  rw [h, List.dropLast_concat, List.getLastD_concat]
  exact ⟨rfl, rfl⟩

theorem exists_segments (p : String) :
    segments p = (segments p).dropLast ++ [(segments p).getLastD ""] := by
  rw [List.getLastD_eq_getLast?, List.getLast?_eq_some_getLast (segments_ne_nil p),
    Option.getD_some, List.dropLast_concat_getLast]

/-- To a path of one relation the row's own related rows are attached. -/
theorem attached_eq_reachable {k : Value} (hk : k ∈ ids) (hp : segments p = [name]) :
    attached tables schema e ids p k = reachable tables schema e p k := by
  have hp' : segments p = [] ++ [name] := hp
  obtain ⟨hbefore, hname⟩ := dropLast_getLastD hp'
  rw [attached, reachable, hbefore, hname]
  show (if ids.any k.links then related tables schema e name k else []) =
    [k].flatMap (related tables schema e name)
  rw [List.flatMap_singleton]
  split
  case isTrue => rfl
  case isFalse hnone =>
    symm
    refine List.eq_nil_iff_forall_not_mem.mpr fun row hrow => hnone ?_
    exact List.any_eq_true.mpr ⟨k, hk, links_self_of_mem_related hrow⟩

end

-- ---------------------------------------------------------------------------
-- One path
-- ---------------------------------------------------------------------------

/-- The related rows of one more path, unless they are known. -/
inductive Adds (e : Entity) (ids : List Value) (name path : String) : Included → Included → Prop
  | known {loaded : Included} {grouped : Grouped} (h : loaded.get? path = some grouped) :
    Adds e ids name path loaded loaded
  | read {loaded : Included} {grouped : Grouped} (h : loaded.get? path = none)
    (hholds : grouped.Holds ids (related tables schema e name)) :
    Adds e ids name path loaded (loaded.put path grouped)

/-- The related rows that are loaded on one path. -/
inductive Loads : Entity → List Value → List String → Included → List String → Included → Prop
  | done {e : Entity} {ids : List Value} {before : List String} {loaded : Included} :
    Loads e ids before loaded [] loaded
  | unknown {e : Entity} {ids : List Value} {before names : List String} {loaded : Included}
    {name : String} (hr : e.relation? name = none) : Loads e ids before loaded (name :: names) loaded
  | last {e : Entity} {ids : List Value} {before names : List String} {loaded loaded' : Included}
    {name : String} {r : Relation} (hr : e.relation? name = some r)
    (hadds : Adds tables schema e ids name (join "." (before ++ [name])) loaded loaded')
    (hend : names = [] ∨ r.target.bind schema.get? = none) :
    Loads e ids before loaded (name :: names) loaded'
  | next {e : Entity} {ids : List Value} {before names : List String}
    {loaded loaded₁ loaded' : Included} {name : String} {r : Relation} {target : Entity}
    {keys : List Value} (hr : e.relation? name = some r)
    (hadds : Adds tables schema e ids name (join "." (before ++ [name])) loaded loaded₁)
    (htarget : r.target.bind schema.get? = some target)
    (hkeys : keysOf target.primaryKey
      ((loaded₁.get? (join "." (before ++ [name]))).getD []).allRows = .ok keys)
    (hrest : Loads target keys (before ++ [name]) loaded₁ names loaded') :
    Loads e ids before loaded (name :: names) loaded'

variable {tables schema} {g : Engine} {tables' : Tables} {e e₀ : Entity} {ids ids₀ : List Value}
  {before names : List String} {loaded loaded' : Included}

/-- Reads the related rows of one more path, unless they are known. -/
def addPath {σ : Type} (db : Database σ) (schema : Schema) (e : Entity) (ids : List Value)
    (name path : String) (loaded : Included) : Session σ Included :=
  match loaded.get? path with
  | some _ => pure loaded
  | none   => do pure (loaded.put path (← relation db schema e name (.list ids)))

theorem pathFrom_cons {σ : Type} (db : Database σ) {name : String} {r : Relation}
    (hr : e.relation? name = some r) :
    pathFrom db schema e ids before loaded (name :: names) = (do
      let loaded ← addPath db schema e ids name (join "." (before ++ [name])) loaded
      match names, r.target.bind schema.get? with
      | _ :: _, some target => do
        let rows := ((loaded.get? (join "." (before ++ [name]))).getD []).allRows
        let keys ← pureStep (keysOf target.primaryKey rows)
        pathFrom db schema target keys (before ++ [name]) loaded names
      | _,      _           => pure loaded) := by
  rw [pathFrom, hr, addPath]
  dsimp only
  cases loaded.get? (join "." (before ++ [name])) with
  | some grouped => rfl
  | none =>
    symm
    refine (bind_assoc _ _ _).trans (bind_congr fun grouped => ?_)
    exact pure_bind _ _

theorem addPath_adds (hg : g.ComparesKeys) {name path : String}
    (h : (addPath g.database schema e ids name path loaded).run tables = (.ok loaded', tables')) :
    tables' = tables ∧ Adds tables schema e ids name path loaded loaded' := by
  rw [addPath] at h
  split at h
  case h_1 grouped hknown =>
    obtain ⟨hloaded, rfl⟩ := Prod.mk.inj h
    obtain rfl := Except.ok.inj hloaded
    exact ⟨rfl, .known hknown⟩
  case h_2 hnew =>
    rw [run_bind_eq_ok] at h
    obtain ⟨grouped, st₁, hrelation, h⟩ := h
    obtain ⟨hloaded, rfl⟩ := Prod.mk.inj h
    obtain rfl := Except.ok.inj hloaded
    obtain ⟨rfl, hholds⟩ := relation_holds hg hrelation
    exact ⟨rfl, .read hnew hholds⟩

/-- Loading along a path reads the related rows of one relation after the other. -/
theorem pathFrom_loads (hg : g.ComparesKeys)
    (h : (pathFrom g.database schema e ids before loaded names).run tables =
      (.ok loaded', tables')) :
    tables' = tables ∧ Loads tables schema e ids before loaded names loaded' := by
  induction names generalizing e ids before loaded with
  | nil =>
    obtain ⟨hloaded, rfl⟩ := Prod.mk.inj h
    obtain rfl := Except.ok.inj hloaded
    exact ⟨rfl, .done⟩
  | cons name names ih =>
    cases hr : e.relation? name with
    | none =>
      rw [pathFrom, hr] at h
      obtain ⟨hloaded, rfl⟩ := Prod.mk.inj h
      obtain rfl := Except.ok.inj hloaded
      exact ⟨rfl, .unknown hr⟩
    | some r =>
      rw [pathFrom_cons g.database hr, run_bind_eq_ok] at h
      obtain ⟨loaded₁, st₁, hadd, h⟩ := h
      obtain ⟨rfl, hadds⟩ := addPath_adds hg hadd
      have hlast : names = [] ∨ r.target.bind schema.get? = none → loaded₁ = loaded' ∧ st₁ = tables' →
          tables' = st₁ ∧ Loads st₁ schema e ids before loaded (name :: names) loaded' := by
        rintro hend ⟨rfl, rfl⟩
        exact ⟨rfl, .last hr hadds hend⟩
      cases names with
      | nil =>
        obtain ⟨hloaded, hst⟩ := Prod.mk.inj h
        exact hlast (.inl rfl) ⟨Except.ok.inj hloaded, hst⟩
      | cons name' names =>
        cases htarget : r.target.bind schema.get? with
        | none =>
          rw [htarget] at h
          obtain ⟨hloaded, hst⟩ := Prod.mk.inj h
          exact hlast (.inr htarget) ⟨Except.ok.inj hloaded, hst⟩
        | some target =>
          rw [htarget] at h
          dsimp only at h
          rw [run_pureStep_bind_eq_ok] at h
          obtain ⟨keys, hkeys, h⟩ := h
          obtain ⟨rfl, hrest⟩ := ih h
          exact ⟨rfl, .next hr hadds htarget hkeys hrest⟩

/-- What is known stays as it is. -/
theorem Adds.get? {name path : String} (h : Adds tables schema e ids name path loaded loaded')
    {p : String} {grouped : Grouped} (hp : loaded.get? p = some grouped) :
    loaded'.get? p = some grouped := by
  cases h with
  | known => exact hp
  | read hnew =>
    have hne : p ≠ path := by
      rintro rfl
      cases hnew.symm.trans hp
    rw [Entries.get?_put_of_ne _ _ hne]
    exact hp

theorem Adds.nodup {name path : String} (h : Adds tables schema e ids name path loaded loaded')
    (hn : loaded.keys.Nodup) : loaded'.keys.Nodup := by
  cases h with
  | known => exact hn
  | read => exact Entries.nodup_keys_put _ hn

/-- Afterwards the path is known. -/
theorem Adds.isSome {name path : String} (h : Adds tables schema e ids name path loaded loaded') :
    ∃ grouped, loaded'.get? path = some grouped := by
  cases h with
  | known hknown => exact ⟨_, hknown⟩
  | read => exact ⟨_, Entries.get?_put_self _ _ _⟩

theorem Loads.get? (h : Loads tables schema e ids before loaded names loaded') {p : String}
    {grouped : Grouped} (hp : loaded.get? p = some grouped) : loaded'.get? p = some grouped := by
  induction h with
  | done => exact hp
  | unknown => exact hp
  | last _ hadds => exact hadds.get? hp
  | next _ hadds _ _ _ ih => exact ih (hadds.get? hp)

theorem Loads.nodup (h : Loads tables schema e ids before loaded names loaded')
    (hn : loaded.keys.Nodup) : loaded'.keys.Nodup := by
  induction h with
  | done => exact hn
  | unknown => exact hn
  | last _ hadds => exact hadds.nodup hn
  | next _ hadds _ _ _ ih => exact ih (hadds.nodup hn)

-- ---------------------------------------------------------------------------
-- What was loaded
-- ---------------------------------------------------------------------------

/-- The same rows are linked to some keys as to others. -/
def SameKeys (ids keys : List Value) : Prop := ∀ k : Value, ids.any k.links = keys.any k.links

/-- What was loaded from some rows on is what the paths lead to: under a path stand, by the keys of
the rows to which the relations before the last one lead, the rows that the last one relates to
them. -/
def IsLoaded (tables : Tables) (schema : Schema) (e : Entity) (ids : List Value)
    (loaded : Included) : Prop :=
  ∀ p grouped, loaded.get? p = some grouped →
    ∃ before name target keys, segments p = before ++ [name] ∧
      reach tables schema e ids before = some (target, keys) ∧
      (target.relation? name).isSome = true ∧ grouped.Holds keys (related tables schema target name)

theorem exists_mem_related_of_sameKeys {keys : List Value} (hsame : SameKeys ids keys) {name : String}
    {row : Row} (h : ∃ k ∈ ids, row ∈ related tables schema e name k) :
    ∃ k ∈ keys, row ∈ related tables schema e name k := by
  obtain ⟨i, hi, hrow⟩ := h
  have hany : keys.any i.links = true := by
    rw [← hsame i]
    exact List.any_eq_true.mpr ⟨i, hi, links_self_of_mem_related hrow⟩
  obtain ⟨k, hk, hlinks⟩ := List.any_eq_true.mp hany
  rw [related_congr (Value.same_of_links hlinks)] at hrow
  exact ⟨k, hk, hrow⟩

theorem holds_of_sameKeys {keys : List Value} (hsame : SameKeys ids keys) {name : String}
    {grouped : Grouped} (h : grouped.Holds ids (related tables schema e name)) :
    grouped.Holds keys (related tables schema e name) where
  rowsOf k := by rw [h.rowsOf k, hsame k]
  allRows row := (h.allRows row).trans
    ⟨exists_mem_related_of_sameKeys hsame, exists_mem_related_of_sameKeys fun k => (hsame k).symm⟩

/-- Keys of the same rows. -/
theorem sameKeys_keysIn {column : String} {rows rows' : List Row}
    (h : ∀ row, row ∈ rows ↔ row ∈ rows') : SameKeys (keysIn column rows) (keysIn column rows') := by
  intro k
  rw [Bool.eq_iff_iff, List.any_eq_true, List.any_eq_true]
  simp only [keysIn, List.mem_filterMap, h]

/-- One more path is loaded as it should be. -/
theorem Adds.isLoaded {name : String} {keys : List Value}
    (h : Adds tables schema e ids name (join "." (before ++ [name])) loaded loaded')
    (hreach : reach tables schema e₀ ids₀ before = some (e, keys)) (hsame : SameKeys ids keys)
    (hname : (e.relation? name).isSome = true) (hsegments : ∀ n ∈ before ++ [name], IsSegment n)
    (hloaded : IsLoaded tables schema e₀ ids₀ loaded) : IsLoaded tables schema e₀ ids₀ loaded' := by
  cases h with
  | known => exact hloaded
  | @read grouped _ hholds =>
    intro p grouped' hp
    by_cases heq : p = join "." (before ++ [name])
    · rw [heq, Entries.get?_put_self] at hp
      obtain rfl := Option.some.inj hp
      refine ⟨before, name, e, keys, ?_, hreach, hname, holds_of_sameKeys hsame hholds⟩
      rw [heq, segments_join (List.append_ne_nil_of_right_ne_nil _ (List.cons_ne_nil _ _)) hsegments]
    · rw [Entries.get?_put_of_ne _ _ heq] at hp
      exact hloaded p grouped' hp

/-- The keys that a step goes on from are those to which the path leads. -/
theorem sameKeys_next {name : String} {keys keys' : List Value} {target : Entity}
    (hreach : reach tables schema e₀ ids₀ before = some (e, keys))
    (hsegments : ∀ n ∈ before ++ [name], IsSegment n)
    (hloaded : IsLoaded tables schema e₀ ids₀ loaded) {grouped : Grouped}
    (hknown : loaded.get? (join "." (before ++ [name])) = some grouped)
    (hkeys : keysOf target.primaryKey grouped.allRows = .ok keys') :
    SameKeys keys' (keysIn target.primaryKey (keys.flatMap (related tables schema e name))) := by
  obtain ⟨before', name', e', keys₁, hpath, hreach', -, hholds⟩ := hloaded _ _ hknown
  rw [segments_join (List.append_ne_nil_of_right_ne_nil _ (List.cons_ne_nil _ _)) hsegments] at hpath
  obtain ⟨rfl, hname⟩ := List.append_inj' hpath rfl
  obtain rfl := List.singleton_inj.mp hname
  obtain ⟨rfl, rfl⟩ := Prod.mk.inj (Option.some.inj (hreach.symm.trans hreach'))
  intro k
  rw [any_links_keysOf hkeys k]
  refine sameKeys_keysIn (fun row => ?_) k
  rw [hholds.allRows row, List.mem_flatMap]

/-- What is loaded along a path is what the path leads to. -/
theorem Loads.isLoaded (h : Loads tables schema e ids before loaded names loaded')
    {keys : List Value} (hreach : reach tables schema e₀ ids₀ before = some (e, keys))
    (hsame : SameKeys ids keys) (hsegments : ∀ n ∈ before ++ names, IsSegment n)
    (hloaded : IsLoaded tables schema e₀ ids₀ loaded) : IsLoaded tables schema e₀ ids₀ loaded' := by
  induction h generalizing keys with
  | done => exact hloaded
  | unknown => exact hloaded
  | @last e ids before names loaded loaded' name r hr hadds =>
    have hhere : ∀ n ∈ before ++ [name], IsSegment n := fun n hn => hsegments n (by
      rw [List.append_cons]
      exact List.mem_append_left _ hn)
    exact hadds.isLoaded hreach hsame (by rw [hr]; rfl) hhere hloaded
  | @next e ids before names loaded loaded₁ loaded' name r target keys' hr hadds htarget hkeys hrest
      ih =>
    have hhere : ∀ n ∈ before ++ [name], IsSegment n := fun n hn => hsegments n (by
      rw [List.append_cons]
      exact List.mem_append_left _ hn)
    have hloaded₁ := hadds.isLoaded hreach hsame (by rw [hr]; rfl) hhere hloaded
    obtain ⟨grouped, hknown⟩ := hadds.isSome
    rw [hknown] at hkeys
    refine ih ?_ (sameKeys_next hreach hhere hloaded₁ hknown hkeys) ?_ hloaded₁
    · rw [reach_concat, hreach, Option.bind_some, step?, hr]
      exact congrArg (Option.bind · _) htarget
    · rwa [← List.append_cons]

/-- Whether the relations of a path lead somewhere depends on no rows. -/
theorem reach_cons_eq_some {keys keys' : List Value} {name : String} {target : Entity}
    (h : reach tables schema e keys (name :: names) = some (target, keys')) :
    ∃ r e' keys₁, e.relation? name = some r ∧ r.target.bind schema.get? = some e' ∧
      reach tables schema e' keys₁ names = some (target, keys') := by
  rw [reach, List.foldlM_cons] at h
  obtain ⟨place, hstep, h⟩ := Option.bind_eq_some_iff.mp h
  obtain ⟨r, hr, hstep⟩ := Option.bind_eq_some_iff.mp hstep
  obtain ⟨e', he', hstep⟩ := Option.bind_eq_some_iff.mp hstep
  obtain rfl := Option.some.inj hstep
  exact ⟨r, e', _, hr, he', h⟩

/-- Every path is loaded whose relations there are, with all paths that lead to it. -/
theorem Loads.exists_get? (h : Loads tables schema e ids before loaded names loaded')
    {mid rest : List String} {name : String} (hnames : names = mid ++ name :: rest)
    {keys keys' : List Value} {target : Entity}
    (hreach : reach tables schema e keys mid = some (target, keys'))
    (hname : (target.relation? name).isSome = true) :
    ∃ grouped, loaded'.get? (join "." (before ++ mid ++ [name])) = some grouped := by
  induction h generalizing mid keys with
  | done => exact absurd hnames.symm (List.append_ne_nil_of_right_ne_nil _ (List.cons_ne_nil _ _))
  | @unknown e ids before names loaded name' hr =>
    cases mid with
    | nil =>
      obtain ⟨rfl, rfl⟩ := List.cons.inj hnames
      obtain ⟨rfl, -⟩ := Prod.mk.inj (Option.some.inj hreach)
      rw [hr] at hname
      cases hname
    | cons first mid =>
      obtain ⟨rfl, rfl⟩ := List.cons.inj hnames
      obtain ⟨r, e', keys₁, hr', -, -⟩ := reach_cons_eq_some hreach
      cases hr.symm.trans hr'
  | @last e ids before names loaded loaded' name' r hr hadds hend =>
    cases mid with
    | nil =>
      obtain ⟨rfl, rfl⟩ := List.cons.inj hnames
      rw [List.append_nil]
      exact hadds.isSome
    | cons first mid =>
      obtain ⟨rfl, rfl⟩ := List.cons.inj hnames
      obtain ⟨r', e', keys₁, hr', he', -⟩ := reach_cons_eq_some hreach
      obtain rfl := Option.some.inj (hr.symm.trans hr')
      rcases hend with hend | hend
      · exact absurd hend (List.append_ne_nil_of_right_ne_nil _ (List.cons_ne_nil _ _))
      · cases hend.symm.trans he'
  | @next e ids before names loaded loaded₁ loaded' name' r target' keys₂ hr hadds htarget hkeys hrest
      ih =>
    cases mid with
    | nil =>
      obtain ⟨rfl, rfl⟩ := List.cons.inj hnames
      rw [List.append_nil]
      obtain ⟨grouped, hknown⟩ := hadds.isSome
      exact ⟨grouped, hrest.get? hknown⟩
    | cons first mid =>
      obtain ⟨rfl, rfl⟩ := List.cons.inj hnames
      obtain ⟨r', e', keys₁, hr', he', hreach'⟩ := reach_cons_eq_some hreach
      obtain rfl := Option.some.inj (hr.symm.trans hr')
      obtain rfl := Option.some.inj (htarget.symm.trans he')
      obtain ⟨grouped, hknown⟩ := ih rfl hreach'
      refine ⟨grouped, ?_⟩
      rwa [List.append_cons before name' mid]

/-- Only paths are loaded that lead to the one that is wanted. -/
theorem Loads.of_get? (h : Loads tables schema e ids before loaded names loaded') {p : String}
    {grouped : Grouped} (hp : loaded'.get? p = some grouped) :
    loaded.get? p = some grouped ∨
      ∃ mid name rest, names = mid ++ name :: rest ∧ p = join "." (before ++ mid ++ [name]) := by
  have hadded : ∀ {e : Entity} {ids : List Value} {name path : String} {loaded loaded' : Included},
      Adds tables schema e ids name path loaded loaded' → loaded'.get? p = some grouped →
        loaded.get? p = some grouped ∨ p = path := by
    intro e ids name path loaded loaded' hadds hp
    cases hadds with
    | known => exact .inl hp
    | read =>
      by_cases heq : p = path
      · exact .inr heq
      · rw [Entries.get?_put_of_ne _ _ heq] at hp
        exact .inl hp
  induction h with
  | done => exact .inl hp
  | unknown => exact .inl hp
  | @last e ids before names loaded loaded' name r hr hadds =>
    refine (hadded hadds hp).imp_right fun heq => ⟨[], name, names, rfl, ?_⟩
    rw [List.append_nil]
    exact heq
  | @next e ids before names loaded loaded₁ loaded' name r target keys hr hadds htarget hkeys hrest
      ih =>
    rcases ih hp with hknown | ⟨mid, name', rest, rfl, rfl⟩
    · refine (hadded hadds hknown).imp_right fun heq => ⟨[], name, names, rfl, ?_⟩
      rw [List.append_nil]
      exact heq
    · refine .inr ⟨name :: mid, name', rest, rfl, ?_⟩
      rw [List.append_cons before name mid]

-- ---------------------------------------------------------------------------
-- All paths
-- ---------------------------------------------------------------------------

/-- What the relations of some paths lead to is loaded for all of them. -/
structure LoadsAll (tables : Tables) (schema : Schema) (e : Entity) (ids : List Value)
    (ps : List String) (loaded : Included) : Prop where
  nodup    : loaded.keys.Nodup
  isLoaded : IsLoaded tables schema e ids loaded
  wanted   : ∀ p grouped, loaded.get? p = some grouped → ∃ p' ∈ ps, segments p <+: segments p'
  complete : ∀ p' ∈ ps, ∀ before name rest target keys, segments p' = before ++ name :: rest →
    reach tables schema e ids before = some (target, keys) →
    (target.relation? name).isSome = true →
    ∃ grouped, loaded.get? (join "." (before ++ [name])) = some grouped

theorem loadsAll_nil : LoadsAll tables schema e ids [] [] where
  nodup := List.nodup_nil
  isLoaded _ _ h := by cases h
  wanted _ _ h := by cases h
  complete _ hp := absurd hp List.not_mem_nil

/-- What one more path leads to. -/
theorem LoadsAll.add {ps : List String} {p : String} (h : LoadsAll tables schema e ids ps loaded)
    (hloads : Loads tables schema e ids [] loaded (segments p) loaded') :
    LoadsAll tables schema e ids (ps ++ [p]) loaded' := by
  have hsegments : ∀ n ∈ [] ++ segments p, IsSegment n := fun n hn => isSegment_of_mem_segments hn
  refine ⟨hloads.nodup h.nodup, hloads.isLoaded rfl (fun _ => rfl) hsegments h.isLoaded, ?wanted,
    ?complete⟩
  case wanted =>
    intro p' grouped hp'
    rcases hloads.of_get? hp' with hknown | ⟨mid, name, rest, hsplit, rfl⟩
    · obtain ⟨p'', hp'', hprefix⟩ := h.wanted p' grouped hknown
      exact ⟨p'', List.mem_append_left _ hp'', hprefix⟩
    · refine ⟨p, List.mem_append_right _ List.mem_cons_self, ?_⟩
      have hhere : ∀ n ∈ mid ++ [name], IsSegment n := by
        intro n hn
        refine isSegment_of_mem_segments (p := p) ?_
        rw [hsplit, List.append_cons]
        exact List.mem_append_left _ hn
      rw [List.nil_append,
        segments_join (List.append_ne_nil_of_right_ne_nil _ (List.cons_ne_nil _ _)) hhere,
        hsplit, List.append_cons mid name rest]
      exact List.prefix_append _ _
  case complete =>
    intro p' hp' before name rest target keys hsplit hreach hname
    rcases List.mem_append.mp hp' with hp' | hp'
    · obtain ⟨grouped, hknown⟩ := h.complete p' hp' before name rest target keys hsplit hreach hname
      exact ⟨grouped, hloads.get? hknown⟩
    · obtain rfl := List.mem_singleton.mp hp'
      exact hloads.exists_get? hsplit hreach hname

/-- What the relations of some paths lead to is loaded. -/
theorem paths_loadsAll (hg : g.ComparesKeys) {ps : List String}
    (h : (paths g.database schema e (.list ids) ps).run tables = (.ok loaded', tables')) :
    tables' = tables ∧ LoadsAll tables schema e ids ps loaded' := by
  refine of_run_foldlM
    (P := fun done loaded st => st = tables ∧ LoadsAll tables schema e ids done loaded)
    (fun p _ done loaded₁ loaded₂ st st' hdone hstep => ?_) ⟨rfl, loadsAll_nil⟩ h
  obtain ⟨rfl, hdone⟩ := hdone
  rw [run_pureStep_bind_eq_ok] at hstep
  obtain ⟨keys, hkeys, hpath⟩ := hstep
  obtain rfl := Except.ok.inj hkeys
  obtain ⟨rfl, hloads⟩ := pathFrom_loads hg hpath
  exact ⟨rfl, hdone.add hloads⟩

end ListQuery.Loading
