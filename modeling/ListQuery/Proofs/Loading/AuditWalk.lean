import ListQuery.Proofs.Loading.OneByOne
import ListQuery.Proofs.Loading.Trail
import ListQuery.Proofs.Sql.Reference

/-!
# Walking along audit trails

An audit trail is read in one statement, in which a link that is missing stands for a row of nulls,
and rows are told apart by one of their columns. Walking link by link does without either: from a
record to its actor, to the memberships of the actor, and from each of them to the organization and
the position that are there. Both give the same rows, with dangling links and several memberships as
well, and for ids of no record.

* `walk` — the rows to which a record leads;
* `trail_eq_walk` — what a trail means, by walking;
* `FollowsTrail` — groups that hold what walking gives;
* `paths_walk` — loading trails.
-/

namespace ListQuery.Audit

open Sql Database Text

-- ---------------------------------------------------------------------------
-- Walking
-- ---------------------------------------------------------------------------

section
variable (tables : Tables)

/-- The row of a table with an id, if it exists. -/
def found? (table : String) (id : Value) : Option Record :=
  (tables table).find? fun x => id.links (x "id")

/-- The one who acted on a record. -/
def actor? (path : String) (r : Record) : Option Record :=
  (actorColumns.get? (rootOf path)).bind fun actor => found? tables "sys_users" (r actor)

def membershipsHeld (u : Record) : List Record :=
  (tables "user_organizations").filter fun m => (u "id").links (m "user_id")

def organization? (m : Record) : Option Record :=
  found? tables "organizations" (m "organization_id")

def position? (m : Record) : Option Record :=
  found? tables "organization_positions" (m "organization_position_id")

def level? (p : Record) : Option Record :=
  found? tables "organization_position_levels" (p "organization_position_level_id")

end

/-- A row, or one of nulls in its place. -/
def orNothing (x : Option Record) : Record := x.getD fun _ => .null

def userRow (u : Record) : Row := [("id", u "id"), ("name", u "name"), ("email", u "email")]

def organizationRow (o : Record) : Row := [("org_id", o "id"), ("org_name", o "name")]

def positionRow (p : Record) : Row := [("position_id", p "id"), ("position_name", p "name")]

/-- A user with an organization, a position and its level, as far as they are there. -/
def placeRow (u : Record) (organization position level : Option Record) : Row :=
  [("user_id", u "id"), ("user_name", u "name"), ("user_email", u "email"),
    ("org_id", orNothing organization "id"), ("org_name", orNothing organization "name"),
    ("position_id", orNothing position "id"), ("position_name", orNothing position "name"),
    ("level_id", orNothing level "id"), ("level_name", orNothing level "name"),
    ("level_order", orNothing level "level")]

variable (tables : Tables)

/-- Where a user stands by one of their memberships. -/
def placeOf (u m : Record) : Row :=
  placeRow u (organization? tables m) (position? tables m) ((position? tables m).bind (level? tables))

/-- The rows to which a user leads on a path of so many segments: the user, the organizations or the
positions of the memberships, or all of that for each membership, and once if there is none. -/
def walkFrom (depth : Nat) (u : Record) : List Row :=
  match depth with
  | 1 => [userRow u]
  | 2 => (membershipsHeld tables u).filterMap fun m => (organization? tables m).map organizationRow
  | 3 => (membershipsHeld tables u).filterMap fun m => (position? tables m).map positionRow
  | _ =>
    if membershipsHeld tables u = [] then [placeRow u none none none]
    else (membershipsHeld tables u).map (placeOf tables u)

/-- The rows to which a record leads. -/
def walk (path : String) (r : Record) : List Row :=
  match actor? tables path r with
  | some u => walkFrom tables (depthOf path) u
  | none   => []

-- ---------------------------------------------------------------------------
-- What a trail means
-- ---------------------------------------------------------------------------

variable {tables}

theorem isNull_of_found? {table : String} {id : Value} {x : Record}
    (h : found? tables table id = some x) : (x "id").isNull = false := by
  have hlinks := List.find?_some h
  rw [Value.links_comm] at hlinks
  exact Value.isNull_of_links hlinks

/-- The null that stands for a missing link leads nowhere. -/
@[simp] theorem found?_null (table : String) : found? tables table .null = none := by
  simp [found?, Value.links, Value.isNull]

/-- Ids that are unique lead to one row, or to nothing. -/
theorem linkedOrNothing_id {table : String} (hids : tables.KeyedBy table "id") (v : Value) :
    linkedOrNothing tables table "id" v = [orNothing (found? tables table v)] := by
  have hfound : (tables table).filter (fun x => v.links (x "id")) =
      (found? tables table v).toList := by
    simpa only [found?, Value.links_comm v] using hids.filter_eq_toList_find? v
  rw [linkedOrNothing, hfound]
  cases found? tables table v <;> rfl

theorem membershipsOf_eq (u : Record) :
    membershipsOf tables u =
      if membershipsHeld tables u = [] then [orNothing none] else membershipsHeld tables u := by
  simp [membershipsOf, linkedOrNothing, membershipsHeld, orNothing]

/-- Rows of nulls do not count, so what counts are the rows that are there. -/
theorem filter_counts_membershipsOf {next : Record → Option Record} {row : Record → Row}
    {counts : Row → Bool} (hnext : next (orNothing none) = none)
    (hcounts : ∀ m x, next m = some x → counts (row x) = true)
    (hnothing : counts (row (orNothing none)) = false) (u : Record) :
    ((membershipsOf tables u).map fun m => row (orNothing (next m))).filter counts =
      (membershipsHeld tables u).filterMap fun m => (next m).map row := by
  have hall : ∀ ms : List Record, (ms.map fun m => row (orNothing (next m))).filter counts =
      ms.filterMap fun m => (next m).map row := by
    intro ms
    induction ms with
    | nil => rfl
    | cons m ms ih =>
      rw [List.map_cons, List.filter_cons, List.filterMap_cons, ih]
      cases hm : next m with
      | none => simp [hnothing]
      | some x => simp [orNothing, hcounts m x hm]
  rw [membershipsOf_eq]
  split
  case isTrue hnone => simp [hnext, hnothing, hnone]
  case isFalse => exact hall _

/-- The tables through which trails lead have unique ids. -/
structure HasUniqueIds (tables : Tables) : Prop where
  users         : tables.KeyedBy "sys_users" "id"
  organizations : tables.KeyedBy "organizations" "id"
  positions     : tables.KeyedBy "organization_positions" "id"
  levels        : tables.KeyedBy "organization_position_levels" "id"

section
variable (hids : HasUniqueIds tables)

include hids

theorem organizationsOf_eq (m : Record) :
    organizationsOf tables m = [orNothing (organization? tables m)] :=
  linkedOrNothing_id hids.organizations _

theorem positionsOf_eq (m : Record) :
    positionsOf tables m = [orNothing (position? tables m)] :=
  linkedOrNothing_id hids.positions _

theorem levelsOf_eq (p : Option Record) :
    levelsOf tables (orNothing p) = [orNothing (p.bind (level? tables))] := by
  rw [levelsOf, linkedOrNothing_id hids.levels]
  cases p with
  | none => simp [orNothing]
  | some p => rfl

/-- One row for each membership, whatever of it is there. -/
theorem fromActor_all (u : Record) {depth : Nat} (h1 : depth ≠ 1) (h2 : depth ≠ 2) (h3 : depth ≠ 3) :
    fromActor tables depth u = (membershipsOf tables u).map (placeOf tables u) := by
  have hplaces : ∀ m, ((organizationsOf tables m).flatMap fun o =>
      (positionsOf tables m).flatMap fun p => (levelsOf tables p).map fun l =>
        [("user_id", u "id"), ("user_name", u "name"), ("user_email", u "email"),
          ("org_id", o "id"), ("org_name", o "name"), ("position_id", p "id"),
          ("position_name", p "name"), ("level_id", l "id"), ("level_name", l "name"),
          ("level_order", l "level")]) = [placeOf tables u m] := by
    intro m
    simp only [organizationsOf_eq hids, positionsOf_eq hids, List.flatMap_singleton,
      levelsOf_eq hids, List.map_singleton]
    rfl
  rw [fromActor]
  · simp only [hplaces]
    exact List.map_eq_flatMap.symm
  all_goals assumption

/-- What counts of the rows that are read from an actor on: nothing if there is no actor. -/
theorem filter_fromActor (depth : Nat) (u : Record) :
    (fromActor tables depth u).filter (Grouped.counts (some (presentColumn depth))) =
      if (u "id").isNull then [] else walkFrom tables depth u := by
  have hnobody : (u "id").isNull = true → membershipsHeld tables u = [] := by
    intro hnull
    simp [membershipsHeld, Value.links, hnull]
  obtain rfl | rfl | rfl | hother :
      depth = 1 ∨ depth = 2 ∨ depth = 3 ∨ depth ≠ 1 ∧ depth ≠ 2 ∧ depth ≠ 3 := by omega
  · cases hnull : (u "id").isNull <;>
      simp [fromActor, walkFrom, userRow, presentColumn, Grouped.counts, Entries.get?, hnull]
  · have hrows : fromActor tables 2 u = (membershipsOf tables u).map fun m =>
        organizationRow (orNothing (organization? tables m)) := by
      simp only [fromActor, organizationsOf_eq hids, List.map_singleton]
      exact List.map_eq_flatMap.symm
    rw [hrows, filter_counts_membershipsOf (found?_null _) ?_ rfl]
    · cases hnull : (u "id").isNull <;> simp [walkFrom, hnobody, hnull]
    · intro m o ho
      simp [Grouped.counts, presentColumn, organizationRow, Entries.get?, isNull_of_found? ho]
  · have hrows : fromActor tables 3 u = (membershipsOf tables u).map fun m =>
        positionRow (orNothing (position? tables m)) := by
      simp only [fromActor, positionsOf_eq hids, List.map_singleton]
      exact List.map_eq_flatMap.symm
    rw [hrows, filter_counts_membershipsOf (found?_null _) ?_ rfl]
    · cases hnull : (u "id").isNull <;> simp [walkFrom, hnobody, hnull]
    · intro m p hp
      simp [Grouped.counts, presentColumn, positionRow, Entries.get?, isNull_of_found? hp]
  · have hcounts : ∀ ms : List Record, (ms.map (placeOf tables u)).filter
        (Grouped.counts (some "user_id")) =
          if (u "id").isNull then [] else ms.map (placeOf tables u) := by
      intro ms
      cases hnull : (u "id").isNull <;>
        simp [placeOf, placeRow, Grouped.counts, Entries.get?, hnull]
    have hnothing : placeOf tables u (orNothing none) = placeRow u none none none := by
      simp [placeOf, organization?, position?, orNothing]
    rw [fromActor_all hids u (by omega) (by omega) (by omega), membershipsOf_eq, walkFrom]
    · rw [presentColumn, hcounts]
      · by_cases hnone : membershipsHeld tables u = [] <;> simp [hnone, hnothing]
      all_goals omega
    all_goals omega

end

/-- A trail for a key is what the record with the key leads to. -/
theorem trail_eq_walk (hids : HasUniqueIds tables) {table primaryKey : String}
    (hkeyed : tables.KeyedBy table primaryKey) (p : String) (k : Value) :
    trail tables table primaryKey p k =
      match (tables table).find? fun r => (r primaryKey).links k with
      | some r => walk tables p r
      | none   => [] := by
  rw [trail]
  cases hactor : actorColumns.get? (rootOf p) with
  | none =>
    simp only [walk, actor?, hactor, Option.bind_none]
    split <;> rfl
  | some actor =>
    dsimp only
    rw [hkeyed.filter_eq_toList_find?]
    cases (tables table).find? fun r => (r primaryKey).links k with
    | none => rfl
    | some r =>
      have hactor? : actor? tables p r = found? tables "sys_users" (r actor) := by
        rw [actor?, hactor, Option.bind_some]
      simp only [Option.toList_some, List.flatMap_singleton, linkedOrNothing_id hids.users,
        filter_fromActor hids, walk, hactor?]
      cases hfound : found? tables "sys_users" (r actor) with
      | none => rfl
      | some u => simp [orNothing, isNull_of_found? hfound]

-- ---------------------------------------------------------------------------
-- The statement
-- ---------------------------------------------------------------------------

/-- The names under which tables are joined on a path of so many segments. -/
def joinedNames (depth : Nat) : List String := "u" :: (link depth).1.map (·.table.label)

theorem nodup_joinedNames (depth : Nat) : (joinedNames depth).Nodup := by
  match depth with
  | 1 | 2 | 3 | 0 | n + 4 =>
    simp only [joinedNames, link]
    decide

variable {table primaryKey actor p : String} {ids : List Value}

theorem nodup_labels_trailStatement (depth : Nat) :
    (trailStatement table primaryKey actor depth ids).labels.Nodup ↔ table ∉ joinedNames depth :=
  List.nodup_cons.trans (and_iff_left (nodup_joinedNames depth))

theorem statement_eq_ok (hhandles : handles p = true) :
    ∃ actor, actorColumns.get? (rootOf p) = some actor ∧
      statement table primaryKey p (.list ids) =
        .ok (trailStatement table primaryKey actor (depthOf p) ids) := by
  rw [handles] at hhandles
  split at hhandles
  case h_1 => cases hhandles
  case h_2 root rest hsegments =>
    obtain ⟨actor, hactor⟩ := Option.isSome_iff_exists.mp (Bool.and_eq_true_iff.mp hhandles).1
    have hroot : actorColumns.get? (rootOf p) = some actor := by
      rw [rootOf, hsegments]
      exact hactor
    refine ⟨actor, hroot, ?_⟩
    rw [statement, hroot]
    rfl

/-- From an actor on only the joined tables are mentioned. -/
theorem table_mem_joinedNames (depth : Nat) :
    (∀ o ∈ (link depth).2, o.column.table ∈ joinedNames depth) ∧
      ∀ j ∈ (link depth).1, j.left.table ∈ joinedNames depth ∧ j.right.table = j.table.label := by
  match depth with
  | 1 | 2 | 3 | 0 | n + 4 =>
    simp only [joinedNames, link]
    decide

/-- Every column that a trail mentions is of one table, unless the records are of a table that is
named as one of the joined ones. -/
theorem isUnambiguous_trailStatement (depth : Nat) :
    (trailStatement table primaryKey actor depth ids).IsUnambiguous ↔
      table ∉ joinedNames depth := by
  obtain ⟨hread, hlinked⟩ := table_mem_joinedNames depth
  refine (Statement.isUnambiguous_iff ⟨fun c hc => ?references, fun j hj => ?joins⟩).trans
    (nodup_labels_trailStatement depth)
  case references =>
    show c.table ∈ table :: joinedNames depth
    simp only [Statement.references, List.mem_append, trailStatement] at hc
    obtain ((houtput | hjoin) | hcondition) | horder := hc
    · obtain ⟨o, ho, rfl⟩ := List.mem_map.mp houtput
      obtain rfl | ho := List.mem_cons.mp ho
      · exact List.mem_cons_self
      · exact List.mem_cons_of_mem _ (hread o ho)
    · obtain ⟨j, hj, hc⟩ := List.mem_flatMap.mp hjoin
      obtain rfl | hj := List.mem_cons.mp hj
      · obtain rfl | rfl : c = col table actor ∨ c = col "u" "id" := by simpa using hc
        · exact List.mem_cons_self
        · exact List.mem_cons_of_mem _ List.mem_cons_self
      · obtain rfl | rfl : c = j.left ∨ c = j.right := by simpa using hc
        · exact List.mem_cons_of_mem _ (hlinked j hj).1
        · rw [(hlinked j hj).2]
          exact List.mem_cons_of_mem _ (List.mem_cons_of_mem _ (List.mem_map_of_mem hj))
    · have hkey : c ∈ [col table primaryKey] := hcondition
      obtain rfl := List.mem_singleton.mp hkey
      exact List.mem_cons_self
    · cases horder
  case joins =>
    obtain rfl | hj := List.mem_cons.mp hj
    · exact .inr rfl
    · exact .inr (hlinked j hj).2

theorem check_trailStatement (depth : Nat) (hids : ∀ i ∈ ids, i.isKey = true) :
    (trailStatement table primaryKey actor depth ids).check = .ok () := by
  refine Loading.check_isAnyOf rfl ?_ hids
  match depth with
  | 1 | 2 | 3 | 0 | n + 4 => rfl

-- ---------------------------------------------------------------------------
-- Loading
-- ---------------------------------------------------------------------------

section
variable {σ : Type} {db : Database σ} {holding : σ → Prop} {g : Engine} {s : σ}

/-- Reading a trail succeeds, and gathers its rows. -/
theorem exists_path (hg : g.ComparesKeys) (hdb : g.Answers tables db holding)
    (hhandles : handles p = true) (hapart : table ∉ joinedNames (depthOf p))
    (hids : ∀ i ∈ ids, i.isKey = true) (hs : holding s) :
    ∃ grouped s', (path db table primaryKey (.list ids) p).run s = (.ok grouped, s') ∧
      holding s' ∧ grouped.Gathers ids (trail tables table primaryKey p) := by
  obtain ⟨actor, hactor, hstatement⟩ : ∃ actor, actorColumns.get? (rootOf p) = some actor ∧
      statement table primaryKey p (.list ids) =
        .ok (trailStatement table primaryKey actor (depthOf p) ids) := statement_eq_ok hhandles
  have hlabels : (trailStatement table primaryKey actor (depthOf p) ids).labels.Nodup :=
    (nodup_labels_trailStatement (depthOf p)).mpr hapart
  obtain ⟨rows, s', hrows, hs', hperm⟩ := hdb.rows hs hlabels rfl rfl
  have hkey := get?_recordId (depthOf p) (col table primaryKey)
  obtain ⟨grouped, hgrouped⟩ :=
    exists_ofRows_found hg rfl rfl rfl rfl hkey hperm (some (presentColumn (depthOf p)))
  refine ⟨grouped, s', ?_, hs', ?_⟩
  · rw [path, run_pureStep_bind_eq_ok]
    refine ⟨_, hstatement, run_bind_eq_ok.mpr ⟨rows, s', ?_, ?_⟩⟩
    · rw [run_readRows, check_trailStatement _ hids]
      exact hrows
    · rw [run_pureStep, hgrouped]
  · rw [← funext (map_drop_linked hg hactor hlabels)]
    exact gathers_ofRows hg rfl rfl rfl rfl hkey hperm hgrouped

/-- Groups of what walking from the records gives: each group is that of a record with an actor,
whose key is one of the ids, and holds the rows to which the record leads; where there are none, there
is no group. -/
structure FollowsTrail (tables : Tables) (table primaryKey : String) (ids : List Value) (p : String)
    (grouped : Grouped) : Prop where
  keys   : ∀ entry ∈ grouped, ∃ i ∈ ids, entry.1.same i = true ∧
    ∃ r ∈ tables table, (r primaryKey).links i = true ∧ (actor? tables p r).isSome = true
  apart  : grouped.IsApart
  rowsOf : ∀ i ∈ ids, ∀ r ∈ tables table, (r primaryKey).links i = true →
    (grouped.rowsOf i).Perm (walk tables p r)
  absent : ∀ i ∈ ids, grouped.group? i = none ↔
    ∀ r ∈ tables table, (r primaryKey).links i = true → walk tables p r = []

/-- Where no two records have one key, a trail is what walking gives. -/
theorem trail_of_mem (hlinks : HasUniqueIds tables) (hkeyed : tables.KeyedBy table primaryKey)
    {r : Record} (hr : r ∈ tables table) {i : Value} (hi : (r primaryKey).links i = true) :
    trail tables table primaryKey p i = walk tables p r := by
  have hfound : (tables table).find? (fun r => (r primaryKey).links i) = some r := by
    have hmem : r ∈ (tables table).filter fun r => (r primaryKey).links i :=
      List.mem_filter.mpr ⟨hr, hi⟩
    rwa [hkeyed.filter_eq_toList_find?, Option.mem_toList] at hmem
  rw [trail_eq_walk hlinks hkeyed, hfound]

theorem trail_eq_nil_iff (hlinks : HasUniqueIds tables) (hkeyed : tables.KeyedBy table primaryKey)
    (i : Value) : trail tables table primaryKey p i = [] ↔
      ∀ r ∈ tables table, (r primaryKey).links i = true → walk tables p r = [] := by
  constructor
  · intro hnil r hr hi
    rw [← trail_of_mem hlinks hkeyed hr hi, hnil]
  · intro hall
    rw [trail_eq_walk hlinks hkeyed]
    cases hfound : (tables table).find? fun r => (r primaryKey).links i with
    | none => rfl
    | some r =>
      have hri : (r primaryKey).links i = true := by simpa using List.find?_some hfound
      exact hall r (List.mem_of_find?_eq_some hfound) hri

/-- Groups of a trail follow it. -/
theorem followsTrail_of_gathers (hlinks : HasUniqueIds tables)
    (hkeyed : tables.KeyedBy table primaryKey) {grouped : Grouped}
    (h : grouped.Gathers ids (trail tables table primaryKey p)) :
    FollowsTrail tables table primaryKey ids p grouped where
  keys := by
    intro entry hentry
    obtain ⟨i, hi, hsame⟩ := h.keys entry hentry
    have hgroup : grouped.group? i ≠ none := by
      intro hnone
      rw [Grouped.group?, Option.map_eq_none_iff, List.find?_eq_none] at hnone
      exact hnone entry hentry hsame
    rw [ne_eq, h.group?_eq_none_iff hi, trail_eq_nil_iff hlinks hkeyed] at hgroup
    push Not at hgroup
    obtain ⟨r, hr, hri, hwalk⟩ := hgroup
    refine ⟨i, hi, hsame, r, hr, hri, ?_⟩
    by_contra hnobody
    rw [Bool.not_eq_true, Option.isSome_eq_false_iff, Option.isNone_iff_eq_none] at hnobody
    exact hwalk (by rw [walk, hnobody])
  apart := h.apart
  rowsOf := by
    intro i hi r hr hri
    rw [← trail_of_mem hlinks hkeyed hr hri]
    exact h.rowsOf i hi
  absent i hi := (h.group?_eq_none_iff hi).trans (trail_eq_nil_iff hlinks hkeyed i)

/-- The trails among some paths, and nothing else, are loaded. -/
structure LoadsWalks (tables : Tables) (table primaryKey : String) (ids : List Value)
    (ps : List String) (loaded : Included) : Prop where
  follows  : ∀ p grouped, loaded.get? p = some grouped →
    p ∈ ps ∧ FollowsTrail tables table primaryKey ids p grouped
  complete : ∀ p ∈ ps, ∃ grouped, loaded.get? p = some grouped

theorem loadsWalks_nil : LoadsWalks tables table primaryKey ids [] [] where
  follows _ _ h := by cases h
  complete _ hp := absurd hp List.not_mem_nil

theorem LoadsWalks.put {ps : List String} {loaded : Included}
    (h : LoadsWalks tables table primaryKey ids ps loaded) {grouped : Grouped}
    (hfollows : FollowsTrail tables table primaryKey ids p grouped) :
    LoadsWalks tables table primaryKey ids (ps ++ [p]) (loaded.put p grouped) where
  follows := Entries.forall_get?_put
    (fun p' grouped' hp' => (h.follows p' grouped' hp').imp_left (List.mem_append_left _))
    ⟨List.mem_append_right _ List.mem_cons_self, hfollows⟩
  complete := Entries.exists_get?_put h.complete grouped

section
variable (hg : g.ComparesKeys) (hdb : g.Answers tables db holding) (hlinks : HasUniqueIds tables)
  (hkeyed : tables.KeyedBy table primaryKey) (hids : ∀ i ∈ ids, i.isKey = true)

include hg hdb hlinks hkeyed hids

/-- One trail after the other is loaded. -/
theorem exists_foldlM_paths {ps done : List String} {loaded : Included}
    (hps : ∀ p ∈ ps, handles p = true ∧ table ∉ joinedNames (depthOf p))
    (hdone : LoadsWalks tables table primaryKey ids done loaded) (hs : holding s) :
    ∃ loaded' s', (ps.foldlM (fun (loaded : Included) p => do
        pure (loaded.put p (← path db table primaryKey (.list ids) p))) loaded).run s =
          (.ok loaded', s') ∧ holding s' ∧
      LoadsWalks tables table primaryKey ids (done ++ ps) loaded' := by
  induction ps generalizing done loaded s with
  | nil => exact ⟨loaded, s, rfl, hs, by rwa [List.append_nil]⟩
  | cons p ps ih =>
    obtain ⟨⟨hhandles, hapart⟩, hps⟩ := List.forall_mem_cons.mp hps
    obtain ⟨grouped, s₁, hread, hs₁, hgathers⟩ := exists_path hg hdb hhandles hapart hids hs
    obtain ⟨loaded', s', hrun, hs', hloaded⟩ :=
      ih hps (hdone.put (followsTrail_of_gathers hlinks hkeyed hgathers)) hs₁
    refine ⟨loaded', s', ?_, hs', by rwa [List.append_cons]⟩
    rw [List.foldlM_cons, run_bind_eq_ok]
    refine ⟨loaded.put p grouped, s₁, run_bind_eq_ok.mpr ⟨grouped, s₁, hread, rfl⟩, hrun⟩

end

end

-- ---------------------------------------------------------------------------
-- Documents and their creators
-- ---------------------------------------------------------------------------

/-- One document has a creator, another one had one, and a third has none. The creator has three
memberships: one with an organization and a position, one in an organization that is gone, and one
without either. The level of the position is gone. -/
def documentTables : Tables
  | "documents"              =>
    [.ofInts [("id", 1), ("created_by_id", 7)], .ofInts [("id", 2), ("created_by_id", 9)],
      .ofInts [("id", 3)]]
  | "sys_users"              => [.ofInts [("id", 7)]]
  | "user_organizations"     =>
    [.ofInts [("user_id", 7), ("organization_id", 4), ("organization_position_id", 5)],
      .ofInts [("user_id", 7), ("organization_id", 44)], .ofInts [("user_id", 7)]]
  | "organizations"          => [.ofInts [("id", 4)]]
  | "organization_positions" => [.ofInts [("id", 5), ("organization_position_level_id", 6)]]
  | _                        => []

end ListQuery.Audit
