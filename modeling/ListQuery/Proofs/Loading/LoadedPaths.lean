import ListQuery.Proofs.Execution.Attached
import ListQuery.Proofs.Loading.HopByHop

/-!
# The paths under which something is loaded

Whatever the database answers, each path is loaded once, and it is a path that was asked for or the
beginning of one.

* `WithinPaths` — what holds of all that is loaded so far;
* `withinPaths_pathFrom`, `withinPaths_paths` — it holds after one path, and after all of them;
* `withinPaths_loadIncluded` — all includes of a query.
-/

namespace ListQuery

open Database Text

variable {σ : Type} {db : Database σ} {schema : Schema} {st st' : σ} {paths ps : List String}
  {loaded loaded' : Included}

/-- Each path is there once, and is one of some paths or the beginning of one. -/
structure WithinPaths (paths : List String) (loaded : Included) : Prop where
  nodup  : loaded.keys.Nodup
  begins : ∀ p ∈ loaded.keys, ∃ path ∈ paths, segments p <+: segments path

namespace WithinPaths

theorem nil (paths : List String) : WithinPaths paths [] where
  nodup  := List.nodup_nil
  begins := List.forall_mem_nil _

theorem put {p : String} (h : WithinPaths paths loaded)
    (hp : ∃ path ∈ paths, segments p <+: segments path) (grouped : Grouped) :
    WithinPaths paths (loaded.put p grouped) where
  nodup := Entries.nodup_keys_put grouped h.nodup
  begins := by
    intro other hother
    rcases (Entries.mem_keys_put grouped).mp hother with hother | rfl
    · exact h.begins other hother
    · exact hp

/-- What was loaded in two ways is put together. -/
theorem foldl_put {more : Included} (h : WithinPaths paths loaded)
    (hmore : WithinPaths paths more) :
    WithinPaths paths (more.foldl (fun all p => all.put p.1 p.2) loaded) := by
  have hbegins := hmore.begins
  clear hmore
  induction more generalizing loaded with
  | nil => exact h
  | cons entry more ih =>
    obtain ⟨hentry, hbegins⟩ := List.forall_mem_cons.mp hbegins
    exact ih (h.put hentry entry.2) hbegins

end WithinPaths

-- ---------------------------------------------------------------------------
-- One path after the other
-- ---------------------------------------------------------------------------

namespace Loading

variable {e : Entity} {ids : List Value} {before names : List String} {name : String}

theorem withinPaths_addPath (h : WithinPaths paths loaded)
    (hpath : ∃ path ∈ paths, before ++ name :: names <+: segments path)
    (hrun : (addPath db schema e ids name (join "." (before ++ [name])) loaded).run st =
      (.ok loaded', st')) : WithinPaths paths loaded' := by
  rw [addPath] at hrun
  split at hrun
  case h_1 => exact Except.ok.inj (Prod.mk.inj hrun).1 ▸ h
  case h_2 =>
    rw [run_bind_eq_ok] at hrun
    obtain ⟨grouped, st₁, -, hput⟩ := hrun
    obtain rfl := Except.ok.inj (Prod.mk.inj hput).1
    obtain ⟨path, hmem, hbegins⟩ := hpath
    refine h.put ⟨path, hmem, ?_⟩ grouped
    have hsegments : ∀ n ∈ before ++ name :: names, IsSegment n := fun n hn =>
      isSegment_of_mem_segments (hbegins.subset hn)
    rw [segments_first hsegments]
    have hfirst : before ++ [name] <+: before ++ name :: names :=
      ⟨names, (List.append_cons before name names).symm⟩
    exact hfirst.trans hbegins

theorem withinPaths_pathFrom (h : WithinPaths paths loaded)
    (hpath : ∃ path ∈ paths, before ++ names <+: segments path)
    (hrun : (pathFrom db schema e ids before loaded names).run st = (.ok loaded', st')) :
    WithinPaths paths loaded' := by
  induction names generalizing e ids before loaded st with
  | nil => exact Except.ok.inj (Prod.mk.inj hrun).1 ▸ h
  | cons name names ih =>
    cases hr : e.relation? name with
    | none =>
      rw [pathFrom, hr] at hrun
      exact Except.ok.inj (Prod.mk.inj hrun).1 ▸ h
    | some r =>
      rw [pathFrom_cons db hr, run_bind_eq_ok] at hrun
      obtain ⟨loaded₁, st₁, hadd, hrun⟩ := hrun
      have hfirst := withinPaths_addPath h hpath hadd
      split at hrun
      case h_1 =>
        rw [run_pureStep_bind_eq_ok] at hrun
        obtain ⟨keys, -, hrun⟩ := hrun
        rw [List.append_cons] at hpath
        exact ih hfirst hpath hrun
      case h_2 => exact Except.ok.inj (Prod.mk.inj hrun).1 ▸ hfirst

theorem withinPaths_paths {ids : Value}
    (hps : ∀ p ∈ ps, ∃ path ∈ paths, segments p <+: segments path)
    (hrun : (Loading.paths db schema e ids ps).run st = (.ok loaded, st')) :
    WithinPaths paths loaded := by
  refine of_run_foldlM (P := fun _ loaded _ => WithinPaths paths loaded)
    (fun p hp _ start loaded st st' hstart hstep => ?_) (.nil paths) hrun
  rw [run_pureStep_bind_eq_ok] at hstep
  obtain ⟨keys, -, hpath⟩ := hstep
  exact withinPaths_pathFrom hstart (hps p hp) hpath

end Loading

theorem Audit.withinPaths_paths {table primaryKey : String} {ids : Value}
    (hps : ∀ p ∈ ps, ∃ path ∈ paths, segments p <+: segments path)
    (hrun : (Audit.paths db table primaryKey ids ps).run st = (.ok loaded, st')) :
    WithinPaths paths loaded := by
  rw [Audit.paths] at hrun
  split at hrun
  case isTrue => exact Except.ok.inj (Prod.mk.inj hrun).1 ▸ .nil paths
  case isFalse =>
    refine of_run_foldlM (P := fun _ loaded _ => WithinPaths paths loaded)
      (fun p hp _ start loaded st st' hstart hstep => ?_) (.nil paths) hrun
    rw [run_bind_eq_ok] at hstep
    obtain ⟨grouped, st₁, -, hput⟩ := hstep
    obtain rfl := Except.ok.inj (Prod.mk.inj hput).1
    exact hstart.put (hps p (List.mem_of_mem_filter hp)) grouped

-- ---------------------------------------------------------------------------
-- All includes
-- ---------------------------------------------------------------------------

theorem Loading.withinPaths_includes {e : Entity} {ids : List Value} (hids : ids ≠ [])
    (hrun : (includes db schema e (.list ids) paths).run st = (.ok loaded, st')) :
    WithinPaths (wanted e paths) loaded := by
  by_cases hwanted : wanted e paths = []
  · rw [includes] at hrun
    dsimp only at hrun
    rw [if_pos (by rw [Bool.or_eq_true]; exact .inr (List.isEmpty_iff.mpr hwanted))] at hrun
    exact Except.ok.inj (Prod.mk.inj hrun).1 ▸ .nil _
  · rw [includes_eq _ hids hwanted, run_bind_eq_ok] at hrun
    obtain ⟨audited, st₁, haudited, hrun⟩ := hrun
    rw [run_bind_eq_ok] at hrun
    obtain ⟨related, st₂, hrelated, hput⟩ := hrun
    obtain rfl := Except.ok.inj (Prod.mk.inj hput).1
    refine WithinPaths.foldl_put ?_ ?_
    · rw [loadTrails] at haudited
      split at haudited
      case isTrue => exact Except.ok.inj (Prod.mk.inj haudited).1 ▸ .nil _
      case isFalse =>
        exact Audit.withinPaths_paths
          (fun p hp => ⟨p, List.mem_of_mem_filter hp, List.prefix_rfl⟩) haudited
    · rw [loadOthers] at hrelated
      split at hrelated
      case isTrue => exact Except.ok.inj (Prod.mk.inj hrelated).1 ▸ .nil _
      case isFalse =>
        exact Loading.withinPaths_paths
          (fun p hp => ⟨p, List.mem_of_mem_filter hp, List.prefix_rfl⟩) hrelated

/-- What is loaded for the includes of a query are the paths to them that are not joined. -/
theorem Query.withinPaths_loadIncluded {q : Query} {rows : List Row}
    (hrun : (q.loadIncluded db schema rows).run st = (.ok loaded, st')) :
    WithinPaths (Loading.wanted q.entity q.includes) loaded := by
  by_cases hnone : rows = [] ∨ q.includes = []
  · have hempty : (q.includes.isEmpty || rows.isEmpty) = true := by
      rw [Bool.or_eq_true, List.isEmpty_iff, List.isEmpty_iff]
      exact hnone.symm
    rw [loadIncluded, if_pos hempty] at hrun
    exact Except.ok.inj (Prod.mk.inj hrun).1 ▸ .nil _
  · obtain ⟨hrows, hincludes⟩ := not_or.mp hnone
    refine Loading.withinPaths_includes ?_ (includes_of_loadIncluded hrows hincludes hrun)
    exact fun hnil => hrows (List.map_eq_nil_iff.mp hnil)

end ListQuery
