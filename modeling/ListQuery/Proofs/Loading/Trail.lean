import ListQuery.Loading.Audit
import ListQuery.Proofs.Loading.Group

/-!
# Following audit trails

An audit trail leads from a row to its actor, to the memberships of the actor, and to the
organization and the position of each. A link that is missing on the way stands for nothing, and a
trail has a row as long as there is something in the column that tells so.

* `trail` — the rows of a trail for one row, by its key;
* `path_holds` — what is read of a trail;
* `paths_loadsTrails` — loading trails.
-/

namespace ListQuery.Audit

open Sql Database Text

-- ---------------------------------------------------------------------------
-- The meaning of a trail
-- ---------------------------------------------------------------------------

variable (tables : Tables)

/-- The rows of a table that hold a value in a column, or nothing in their place. -/
def linkedOrNothing (table column : String) (v : Value) : List Record :=
  let found := (tables table).filter fun x => v.links (x column)
  if found.isEmpty then [fun _ => .null] else found

def membershipsOf (u : Record) : List Record :=
  linkedOrNothing tables "user_organizations" "user_id" (u "id")

def organizationsOf (m : Record) : List Record :=
  linkedOrNothing tables "organizations" "id" (m "organization_id")

def positionsOf (m : Record) : List Record :=
  linkedOrNothing tables "organization_positions" "id" (m "organization_position_id")

def levelsOf (p : Record) : List Record :=
  linkedOrNothing tables "organization_position_levels" "id" (p "organization_position_level_id")

/-- What a trail of so many segments reads from its actor on. -/
def fromActor (depth : Nat) (u : Record) : List Row :=
  match depth with
  | 1 => [[("id", u "id"), ("name", u "name"), ("email", u "email")]]
  | 2 =>
    (membershipsOf tables u).flatMap fun m =>
      (organizationsOf tables m).map fun o => [("org_id", o "id"), ("org_name", o "name")]
  | 3 =>
    (membershipsOf tables u).flatMap fun m =>
      (positionsOf tables m).map fun p => [("position_id", p "id"), ("position_name", p "name")]
  | _ =>
    (membershipsOf tables u).flatMap fun m =>
      (organizationsOf tables m).flatMap fun o =>
        (positionsOf tables m).flatMap fun p =>
          (levelsOf tables p).map fun l =>
            [("user_id", u "id"), ("user_name", u "name"), ("user_email", u "email"),
              ("org_id", o "id"), ("org_name", o "name"), ("position_id", p "id"),
              ("position_name", p "name"), ("level_id", l "id"), ("level_name", l "name"),
              ("level_order", l "level")]

/-- The rows of a trail for the row with a key. -/
def trail (table primaryKey path : String) (k : Value) : List Row :=
  match actorColumns.get? (rootOf path) with
  | none       => []
  | some actor =>
    (((tables table).filter fun r => (r primaryKey).links k).flatMap fun r =>
      (linkedOrNothing tables "sys_users" "id" (r actor)).flatMap
        (fromActor tables (depthOf path))).filter
          (Grouped.counts (some (presentColumn (depthOf path))))

variable {tables}

/-- Only a key that can be linked to has a trail. -/
theorem links_self_of_mem_trail {table primaryKey path : String} {k : Value} {row : Row}
    (h : row ∈ trail tables table primaryKey path k) : k.links k = true := by
  rw [trail] at h
  split at h
  case h_1 => exact absurd h List.not_mem_nil
  case h_2 =>
    obtain ⟨r, hr, -⟩ := List.mem_flatMap.mp (List.mem_filter.mp h).1
    exact Value.links_self_of_links (List.mem_filter.mp hr).2

-- ---------------------------------------------------------------------------
-- What the statement reads
-- ---------------------------------------------------------------------------

variable {g : Engine} {j : Join} {js : List Join}

/-- A row is put next to each of the rows that it is linked to, or to nothing. -/
theorem follow_outer (hg : g.ComparesKeys) (houter : j.outer = true) {column : String} {s : Scene}
    (hright : j.right = col j.table.label column) {v : Value}
    (hleft : ∀ x, (s.put j.table.label x).at j.left = v) :
    g.follow tables (j :: js) s =
      (linkedOrNothing tables j.table.name column v).flatMap fun x =>
        g.follow tables js (s.put j.table.label x) := by
  have hpartners : g.partners tables s j =
      ((tables j.table.name).filter fun x => v.links (x column)).map
        fun x => s.put j.table.label x := by
    rw [Engine.partners, List.filter_map]
    refine congrArg _ (List.filter_congr fun x _ => ?_)
    rw [Function.comp_apply, hg.joins, hleft, hright]
    show v.links ((s.put j.table.label x) j.table.label column) = _
    rw [Scene.put_self]
  rw [Engine.follow, Engine.extend, hpartners, houter, linkedOrNothing]
  rw [List.isEmpty_map, Bool.true_and]
  split
  · rfl
  · rw [List.flatMap_map]

section
variable (hg : g.ComparesKeys) (s : Scene)

include hg

theorem follow_membership :
    g.follow tables (membershipJoin :: js) s =
      (membershipsOf tables (s "u")).flatMap fun m => g.follow tables js (s.put "uo" m) :=
  follow_outer hg rfl rfl fun _ => rfl

theorem follow_organization :
    g.follow tables (organizationJoin :: js) s =
      (organizationsOf tables (s "uo")).flatMap fun o => g.follow tables js (s.put "o" o) :=
  follow_outer hg rfl rfl fun _ => rfl

theorem follow_position :
    g.follow tables (positionJoin :: js) s =
      (positionsOf tables (s "uo")).flatMap fun p => g.follow tables js (s.put "p" p) :=
  follow_outer hg rfl rfl fun _ => rfl

theorem follow_level :
    g.follow tables (levelJoin :: js) s =
      (levelsOf tables (s "p")).flatMap fun l => g.follow tables js (s.put "l" l) :=
  follow_outer hg rfl rfl fun _ => rfl

/-- What is read of the rows to which an actor leads. -/
theorem map_follow_link (depth : Nat) (u : Record) (hu : s "u" = u) :
    (g.follow tables (link depth).1 s).map (Engine.project (link depth).2) =
      fromActor tables depth u := by
  have hnil : ∀ s, g.follow tables [] s = [s] := fun _ => rfl
  have hmap : ∀ {f : Scene → Row} {put : Record → Scene} {rs : List Record},
      (rs.flatMap fun r => g.follow tables [] (put r)).map f = rs.map fun r => f (put r) := by
    intro f put rs
    rw [List.map_flatMap]
    exact List.map_eq_flatMap.symm
  subst hu
  match depth with
  | 1 => rfl
  | 2 =>
    show (g.follow tables [membershipJoin, organizationJoin] s).map _ = _
    rw [follow_membership hg, List.map_flatMap]
    refine List.flatMap_congr fun m _ => ?_
    rw [follow_organization hg, hmap]
    rfl
  | 3 =>
    show (g.follow tables [membershipJoin, positionJoin] s).map _ = _
    rw [follow_membership hg, List.map_flatMap]
    refine List.flatMap_congr fun m _ => ?_
    rw [follow_position hg, hmap]
    rfl
  | 0 | n + 4 =>
    show (g.follow tables [membershipJoin, organizationJoin, positionJoin, levelJoin] s).map _ = _
    rw [follow_membership hg, List.map_flatMap]
    refine List.flatMap_congr fun m _ => ?_
    rw [follow_organization hg, List.map_flatMap]
    refine List.flatMap_congr fun o _ => ?_
    rw [follow_position hg, List.map_flatMap]
    refine List.flatMap_congr fun p _ => ?_
    rw [follow_level hg, hmap]
    rfl

end

/-- The statement of a trail. -/
def trailStatement (table primaryKey actor : String) (depth : Nat) (ids : List Value) : Statement :=
  { projection := .columns ({ column := col table primaryKey, label := some recordId } ::
      (link depth).2)
    table := ⟨table, none⟩
    joins := { table := users, left := col table actor, right := col "u" "id" } :: (link depth).1
    conditions := [Loading.isAnyOf (col table primaryKey) ids] }

variable {table primaryKey actor : String} {depth : Nat} {ids : List Value}

theorem get?_recordId (depth : Nat) (key : Column) (s : Scene) :
    (Engine.project ({ column := key, label := some recordId } :: (link depth).2) s).get? recordId =
      some (s.at key) := by
  match depth with
  | 1 | 2 | 3 | 0 | n + 4 => rfl

theorem drop_recordId (depth : Nat) (key : Column) (s : Scene) :
    (Engine.project ({ column := key, label := some recordId } :: (link depth).2) s).drop recordId =
      Engine.project (link depth).2 s := by
  match depth with
  | 1 | 2 | 3 | 0 | n + 4 => rfl

/-- The rows of a trail for a key. -/
theorem map_linked (hg : g.ComparesKeys)
    (hlabels : (trailStatement table primaryKey actor depth ids).labels.Nodup) (k : Value) :
    (g.linked tables (trailStatement table primaryKey actor depth ids) (col table primaryKey) k).map
        (Engine.project (link depth).2) =
      ((tables table).filter fun r => (r primaryKey).links k).flatMap fun r =>
        (linkedOrNothing tables "sys_users" "id" (r actor)).flatMap (fromActor tables depth) := by
  have hlabel : ∀ j ∈ (trailStatement table primaryKey actor depth ids).joins,
      j.table.label ≠ table := by
    intro j hj heq
    exact (List.nodup_cons.mp hlabels).1 (List.mem_map.mpr ⟨j, hj, heq⟩)
  have huser : table ≠ "u" := (hlabel _ List.mem_cons_self).symm
  rw [Engine.linked, Engine.scenes_eq_flatMap, List.filter_flatMap, List.map_flatMap,
    flatMap_filter_left]
  refine List.flatMap_congr fun r _ => ?_
  -- all rows to which the record leads hold its key
  have hkey : ∀ s ∈ g.follow tables (trailStatement table primaryKey actor depth ids).joins
      (Scene.single table r), s.at (col table primaryKey) = r primaryKey := by
    intro s hs
    show s table primaryKey = _
    rw [Engine.at_of_mem_follow hlabel hs, Scene.single, Scene.put_self]
  have hfilter : (g.follow tables (trailStatement table primaryKey actor depth ids).joins
      (Scene.single table r)).filter (fun s => (s.at (col table primaryKey)).links k) =
        (g.follow tables (trailStatement table primaryKey actor depth ids).joins
          (Scene.single table r)).filter fun _ => (r primaryKey).links k :=
    List.filter_congr fun s hs => by rw [hkey s hs]
  have hfollow : g.follow tables (trailStatement table primaryKey actor depth ids).joins
      (Scene.single table r) = (linkedOrNothing tables "sys_users" "id" (r actor)).flatMap fun u =>
        g.follow tables (link depth).1 ((Scene.single table r).put "u" u) := by
    refine follow_outer hg rfl rfl fun x => ?_
    show (Scene.single table r).put "u" x table actor = _
    rw [Scene.put_of_ne _ _ huser, Scene.single, Scene.put_self]
  have hmap : (g.follow tables (trailStatement table primaryKey actor depth ids).joins
      (Scene.single table r)).map (Engine.project (link depth).2) =
        (linkedOrNothing tables "sys_users" "id" (r actor)).flatMap (fromActor tables depth) := by
    rw [hfollow, List.map_flatMap]
    refine List.flatMap_congr fun u _ => ?_
    exact map_follow_link hg _ depth u (Scene.put_self _ _ _)
  rw [← hmap, List.filter_map]
  exact congrArg _ hfilter

/-- What the statement reads for a key, without the key, is the trail. -/
theorem map_drop_linked (hg : g.ComparesKeys) {p : String}
    (hactor : actorColumns.get? (rootOf p) = some actor)
    (hlabels : (trailStatement table primaryKey actor (depthOf p) ids).labels.Nodup) (k : Value) :
    ((g.linked tables (trailStatement table primaryKey actor (depthOf p) ids)
        (col table primaryKey) k).filter fun s =>
          Grouped.counts (some (presentColumn (depthOf p)))
            ((Engine.project ({ column := col table primaryKey, label := some recordId } ::
              (link (depthOf p)).2) s).drop recordId)).map (fun s =>
                (Engine.project ({ column := col table primaryKey, label := some recordId } ::
                  (link (depthOf p)).2) s).drop recordId) =
      trail tables table primaryKey p k := by
  rw [trail, hactor]
  dsimp only
  rw [← map_linked hg hlabels, List.filter_map]
  simp only [drop_recordId]
  rfl

/-- A trail is read for many rows together. -/
theorem path_holds (hg : g.ComparesKeys) {tables' : Tables} {p : String} {grouped : Grouped}
    (h : (path g.database table primaryKey (.list ids) p).run tables = (.ok grouped, tables')) :
    tables' = tables ∧ grouped.Holds ids (trail tables table primaryKey p) := by
  rw [path, run_pureStep_bind_eq_ok] at h
  obtain ⟨st, hst, h⟩ := h
  rw [run_bind_eq_ok] at h
  obtain ⟨rows, st₁, hread, hgrouped⟩ := h
  obtain ⟨hlabels, rfl, rfl⟩ := Engine.run_readRows_eq_ok hread
  rw [run_pureStep] at hgrouped
  obtain ⟨hrows, rfl⟩ := Prod.mk.inj hgrouped
  rw [statement] at hst
  split at hst
  case h_1 => cases hst
  case h_2 actor hactor =>
    obtain rfl : trailStatement table primaryKey actor (depthOf p) ids = st := Except.ok.inj hst
    have hholds := holds_ofRows hg rfl rfl rfl rfl (get?_recordId (depthOf p) _) hrows
    rw [funext (map_drop_linked hg hactor hlabels)] at hholds
    exact ⟨rfl, hholds⟩

-- ---------------------------------------------------------------------------
-- All trails
-- ---------------------------------------------------------------------------

/-- The rows of some trails are loaded. -/
structure LoadsTrails (tables : Tables) (table primaryKey : String) (ids : List Value)
    (ps : List String) (loaded : Included) : Prop where
  nodup    : loaded.keys.Nodup
  holds    : ∀ p grouped, loaded.get? p = some grouped →
    grouped.Holds ids (trail tables table primaryKey p)
  complete : ∀ p ∈ ps, ∃ grouped, loaded.get? p = some grouped

theorem loadsTrails_nil : LoadsTrails tables table primaryKey ids [] [] where
  nodup := List.nodup_nil
  holds _ _ h := by cases h
  complete _ hp := absurd hp List.not_mem_nil

/-- One more trail. -/
theorem LoadsTrails.put {ps : List String} {loaded : Included}
    (h : LoadsTrails tables table primaryKey ids ps loaded) {p : String} {grouped : Grouped}
    (hholds : grouped.Holds ids (trail tables table primaryKey p)) :
    LoadsTrails tables table primaryKey ids (ps ++ [p]) (loaded.put p grouped) where
  nodup := Entries.nodup_keys_put _ h.nodup
  holds := Entries.forall_get?_put h.holds hholds
  complete := Entries.exists_get?_put h.complete grouped

/-- Only trails are loaded. -/
theorem mem_of_paths {σ : Type} {db : Database σ} {ids : Value} {st st' : σ} {ps : List String}
    {loaded : Included} (h : (paths db table primaryKey ids ps).run st = (.ok loaded, st'))
    {p : String} {grouped : Grouped} (hp : loaded.get? p = some grouped) : p ∈ ps := by
  rw [paths] at h
  split at h
  case isTrue =>
    obtain ⟨hloaded, -⟩ := Prod.mk.inj h
    obtain rfl := Except.ok.inj hloaded
    cases hp
  case isFalse =>
    have hfiltered := of_run_foldlM
      (P := fun done (loaded : Included) _ => ∀ p grouped, loaded.get? p = some grouped → p ∈ done)
      (fun p _ done loaded₁ loaded₂ st st' hdone hstep => ?_) (fun _ _ hnone => by cases hnone) h
    · exact List.mem_of_mem_filter (hfiltered p grouped hp)
    · rw [run_bind_eq_ok] at hstep
      obtain ⟨grouped₁, st₁, -, hput⟩ := hstep
      obtain rfl := Except.ok.inj (Prod.mk.inj hput).1
      exact Entries.forall_get?_put
        (fun p' grouped' hp' => List.mem_append_left _ (hdone p' grouped' hp'))
        (List.mem_append_right _ List.mem_cons_self)

/-- All paths that are trails are loaded. -/
theorem paths_loadsTrails (hg : g.ComparesKeys) {tables' : Tables} {ps : List String}
    {loaded : Included} (hids : ids ≠ [])
    (h : (paths g.database table primaryKey (.list ids) ps).run tables = (.ok loaded, tables')) :
    tables' = tables ∧ LoadsTrails tables table primaryKey ids (ps.filter handles) loaded := by
  rw [paths] at h
  split at h
  case isTrue hvoid => exact absurd (List.isEmpty_iff.mp hvoid) hids
  case isFalse =>
    refine of_run_foldlM
      (P := fun done loaded st => st = tables ∧ LoadsTrails tables table primaryKey ids done loaded)
      (fun p _ done loaded₁ loaded₂ st st' hdone hstep => ?_) ⟨rfl, loadsTrails_nil⟩ h
    obtain ⟨rfl, hdone⟩ := hdone
    rw [run_bind_eq_ok] at hstep
    obtain ⟨grouped, st₁, hread, hput⟩ := hstep
    obtain ⟨hloaded, rfl⟩ := Prod.mk.inj hput
    obtain rfl := Except.ok.inj hloaded
    obtain ⟨rfl, hholds⟩ := path_holds hg hread
    exact ⟨rfl, hdone.put hholds⟩

end ListQuery.Audit
