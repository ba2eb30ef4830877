import ListQuery.Proofs.Execution.Attached

/-!
# Loading more paths

What is loaded under a path when further paths are loaded as well, perhaps for other rows with the
same keys. It stays the same, unless the relations of the path are loaded only on the way to one of
the further paths: then what they lead to stands in the place of a trail, or of nothing.

* `LoadsRelation.mono` — relations that are loaded still are;
* `attached_congr` — rows with the same keys have the same rows attached;
* `agreeAt_of_includes` — what stands under a path.
-/

namespace ListQuery

open Sql Database

/-- Under a path stand the same rows by every key. -/
def Included.AgreeAt (p : String) (included included' : Included) : Prop :=
  (included'.get? p).map Grouped.rowsOf = (included.get? p).map Grouped.rowsOf

namespace Loading

variable {tables tables' tables₁ : Tables} {schema : Schema} {e : Entity} {ids ids' : List Value}
  {paths paths' : List String} {p : String} {g : Engine}

-- ---------------------------------------------------------------------------
-- What is wanted
-- ---------------------------------------------------------------------------

theorem relationPaths_mono (h : paths ⊆ paths') : relationPaths paths ⊆ relationPaths paths' := by
  intro p hp
  obtain ⟨path, hpath, hleads⟩ := mem_relationPaths_iff.mp hp
  exact mem_relationPaths_iff.mpr ⟨path, h hpath, hleads⟩

theorem others_mono (h : paths ⊆ paths') : others e paths ⊆ others e paths' :=
  List.filter_subset _ (List.filter_subset _ (relationPaths_mono h))

theorem LoadsRelation.mono (h : paths ⊆ paths') (hp : LoadsRelation schema e paths p) :
    LoadsRelation schema e paths' p := by
  obtain ⟨hresolves, p', hp', hprefix⟩ := hp
  exact ⟨hresolves, p', others_mono h hp', hprefix⟩

/-- Relations that are loaded only for one more path are on the way to it. -/
theorem LoadsRelation.prefix_of_concat {path : String}
    (h : LoadsRelation schema e (paths ++ [path]) p) (hnot : ¬LoadsRelation schema e paths p) :
    segments p <+: segments path := by
  obtain ⟨hresolves, p', hp', hprefix⟩ := h
  refine hprefix.trans ?_
  rw [others, wanted, List.mem_filter, List.mem_filter, mem_relationPaths_iff] at hp'
  obtain ⟨⟨⟨path', hpath', hleads⟩, heager⟩, hother⟩ := hp'
  rcases List.mem_append.mp hpath' with hpaths | hlast
  · have hwanted := mem_relationPaths_iff.mpr ⟨path', hpaths, hleads⟩
    refine absurd ⟨hresolves, p', ?_, hprefix⟩ hnot
    exact List.mem_filter.mpr ⟨List.mem_filter.mpr ⟨hwanted, heager⟩, hother⟩
  · rwa [List.mem_singleton.mp hlast] at hleads

/-- The relations of a path are loaded for the path itself, unless it is joined or a trail. -/
theorem loadsRelation_of_mem (hp : p ∈ paths) (hresolves : Resolves schema e p)
    (heager : e.joinsEagerly p = false) (hother : Audit.handles p = false) :
    LoadsRelation schema e paths p := by
  refine ⟨hresolves, p, ?_, List.prefix_rfl⟩
  rw [others, wanted, List.mem_filter, List.mem_filter, heager, hother]
  exact ⟨⟨mem_relationPaths hp, rfl⟩, rfl⟩

/-- Which of the paths are trails does not depend on the others. -/
theorem mem_trails_iff (hp : p ∈ paths) :
    p ∈ trails e paths ↔ e.joinsEagerly p = false ∧ Audit.handles p = true := by
  rw [trails, wanted, List.mem_filter, List.mem_filter, Bool.not_eq_true']
  exact and_congr_left fun _ => and_iff_right (mem_relationPaths hp)

-- ---------------------------------------------------------------------------
-- Rows with the same keys
-- ---------------------------------------------------------------------------

theorem sameKeys_step (h : SameKeys ids ids') (name column : String) :
    SameKeys (keysIn column (ids.flatMap (related tables schema e name)))
      (keysIn column (ids'.flatMap (related tables schema e name))) := by
  refine sameKeys_keysIn fun row => ?_
  rw [List.mem_flatMap, List.mem_flatMap]
  exact ⟨exists_mem_related_of_sameKeys h, exists_mem_related_of_sameKeys fun k => (h k).symm⟩

/-- From rows with the same keys a path leads to rows with the same keys. -/
theorem reach_sameKeys (h : SameKeys ids ids') (names : List String) :
    Option.Rel (fun place place' => place.1 = place'.1 ∧ SameKeys place.2 place'.2)
      (reach tables schema e ids names) (reach tables schema e ids' names) := by
  induction names generalizing e ids ids' with
  | nil => exact .some ⟨rfl, h⟩
  | cons name names ih =>
    show Option.Rel _ ((step? tables schema (e, ids) name).bind _)
      ((step? tables schema (e, ids') name).bind _)
    rw [step?, step?]
    cases e.relation? name with
    | none => exact .none
    | some r =>
      show Option.Rel _ (((r.target.bind schema.get?).bind _).bind _)
        (((r.target.bind schema.get?).bind _).bind _)
      cases r.target.bind schema.get? with
      | none => exact .none
      | some target => exact ih (sameKeys_step h name target.primaryKey)

/-- Rows with the same keys have the same rows attached. -/
theorem attached_congr (h : SameKeys ids ids') (p : String) :
    attached tables schema e ids p = attached tables schema e ids' p := by
  funext k
  have hreach : Option.Rel (fun place place' => place.1 = place'.1 ∧ SameKeys place.2 place'.2)
      (reach tables schema e ids (segments p).dropLast)
      (reach tables schema e ids' (segments p).dropLast) := reach_sameKeys h _
  rw [attached, attached]
  generalize reach tables schema e ids (segments p).dropLast = place at hreach
  generalize reach tables schema e ids' (segments p).dropLast = place' at hreach
  cases hreach with
  | none => rfl
  | @some place place' hsame =>
    obtain ⟨target, keys⟩ := place
    obtain ⟨target', keys'⟩ := place'
    obtain ⟨rfl, hkeys⟩ := hsame
    dsimp only
    rw [hkeys k]

-- ---------------------------------------------------------------------------
-- What stands under a path
-- ---------------------------------------------------------------------------

/-- What is loaded by relations, by key. -/
theorem LoadsIncludes.rowsOf_relation {included : Included}
    (h : LoadsIncludes tables schema e ids paths included) (hp : LoadsRelation schema e paths p) :
    (included.get? p).map Grouped.rowsOf = some (attached tables schema e ids p) := by
  obtain ⟨grouped, target, keys, hknown, hreach, hholds⟩ := h.relation p hp
  rw [hknown]
  refine congrArg some (funext fun k => ?_)
  rw [hholds.rowsOf, attached, hreach]

/-- What is loaded as a trail, by key. -/
theorem LoadsIncludes.rowsOf_trail {included : Included}
    (h : LoadsIncludes tables schema e ids paths included) (hp : LoadsTrail schema e paths p) :
    (included.get? p).map Grouped.rowsOf = some fun k =>
      if ids.any k.links then Audit.trail tables e.table e.primaryKey p k else [] := by
  obtain ⟨grouped, hknown, hholds⟩ := h.trail p hp
  rw [hknown]
  exact congrArg some (funext hholds.rowsOf)

/-- What stands under a path stays when more paths are loaded for rows with the same keys, unless
its relations are loaded only now. -/
theorem agreeAt_of_includes (hg : g.ComparesKeys) (hids : ids ≠ []) (hids' : ids' ≠ [])
    (hsame : SameKeys ids ids') (hpaths : paths ⊆ paths') (hp : p ∈ paths)
    (hkept : LoadsRelation schema e paths' p → LoadsRelation schema e paths p)
    {included included' : Included}
    (h : (includes g.database schema e (.list ids) paths).run tables = (.ok included, tables₁))
    (h' : (includes g.database schema e (.list ids') paths').run tables = (.ok included', tables')) :
    Included.AgreeAt p included included' := by
  have hloads := (includes_loads hg hids h).2
  have hloads' := (includes_loads hg hids' h').2
  rw [Included.AgreeAt]
  by_cases hrelation : LoadsRelation schema e paths p
  · rw [hloads.rowsOf_relation hrelation, hloads'.rowsOf_relation (hrelation.mono hpaths),
      attached_congr hsame]
  have hrelation' := fun hnow => hrelation (hkept hnow)
  by_cases htrail : p ∈ trails e paths
  · have htrail' := (mem_trails_iff (hpaths hp)).mpr ((mem_trails_iff hp).mp htrail)
    rw [hloads.rowsOf_trail ⟨htrail, hrelation⟩, hloads'.rowsOf_trail ⟨htrail', hrelation'⟩]
    exact congrArg some (funext fun k => by rw [hsame k])
  · have htrail' : p ∉ trails e paths' := fun hnow =>
      htrail ((mem_trails_iff hp).mpr ((mem_trails_iff (hpaths hp)).mp hnow))
    have hnone : included.get? p = none := Option.eq_none_iff_forall_ne_some.mpr fun _ hknown =>
      (loads_of_get?_includes hg hids h hknown).elim hrelation htrail
    have hnone' : included'.get? p = none := Option.eq_none_iff_forall_ne_some.mpr fun _ hknown =>
      (loads_of_get?_includes hg hids' h' hknown).elim hrelation' htrail'
    rw [hnone, hnone']

end Loading

end ListQuery
