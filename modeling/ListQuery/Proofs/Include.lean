import Mathlib.Data.List.Nodup
import ListQuery.Include
import ListQuery.Proofs.Text.Split

/-!
# Names and paths

Lists of names without repetitions, and the paths that names make. The paths of a list are those that
its entries spell, and they are loaded with their prefixes, each after its own.

* `mem_distinct`, `nodup_distinct`, `distinct_cons`, `distinct_filter` — a list of names, each once;
* `pairwise_distinct_filterMap`, `RestsOnEarlier.distinct` — the order of such a list;
* `segments_join`, `join_segments` — a path and its names;
* `pathOfEntry?_eq_some`, `parseIncludes_join` — the paths of a list;
* `mem_relationPaths_iff`, `restsOnEarlier_relationPaths` — every path is loaded with its prefixes;
* `includes_spelled_and_expanded` — lists and prefixes together.
-/

namespace ListQuery

open Text

/-- The step of `distinct`. -/
def keepNew (seen : List String) (x : String) : List String :=
  if seen.contains x then seen else seen ++ [x]

theorem mem_keepNew {seen : List String} {x y : String} : y ∈ keepNew seen x ↔ y ∈ seen ∨ y = x := by
  rw [keepNew]
  split
  case isTrue h =>
    refine ⟨.inl, fun h' => h'.elim id ?_⟩
    rintro rfl
    exact List.contains_iff_mem.mp h
  case isFalse => rw [List.mem_append, List.mem_singleton]

theorem mem_foldl_keepNew {xs seen : List String} {y : String} :
    y ∈ xs.foldl keepNew seen ↔ y ∈ seen ∨ y ∈ xs := by
  induction xs generalizing seen with
  | nil => exact ⟨.inl, fun h => h.resolve_right List.not_mem_nil⟩
  | cons x xs ih => rw [List.foldl_cons, ih, mem_keepNew, List.mem_cons, or_assoc]

theorem mem_distinct {xs : List String} {y : String} : y ∈ distinct xs ↔ y ∈ xs := by
  show y ∈ xs.foldl keepNew [] ↔ _
  rw [mem_foldl_keepNew]
  exact ⟨fun h => h.resolve_left List.not_mem_nil, .inr⟩

theorem nodup_keepNew {seen : List String} {x : String} (h : seen.Nodup) : (keepNew seen x).Nodup := by
  rw [keepNew]
  split
  case isTrue => exact h
  case isFalse hx =>
    have hnot : x ∉ seen := fun hmem => hx (List.contains_iff_mem.mpr hmem)
    exact h.append (List.nodup_singleton x) (List.disjoint_singleton.mpr hnot)

theorem nodup_foldl_keepNew {xs seen : List String} (h : seen.Nodup) :
    (xs.foldl keepNew seen).Nodup := by
  induction xs generalizing seen with
  | nil => exact h
  | cons x xs ih => exact ih (nodup_keepNew h)

theorem nodup_distinct (xs : List String) : (distinct xs).Nodup := nodup_foldl_keepNew List.nodup_nil

theorem foldl_keepNew_of_nodup {xs seen : List String} (h : xs.Nodup) :
    xs.foldl keepNew seen = seen ++ xs.filter (· ∉ seen) := by
  induction xs generalizing seen with
  | nil => exact (List.append_nil _).symm
  | cons x xs ih =>
    obtain ⟨hx, hxs⟩ := List.nodup_cons.mp h
    rw [List.foldl_cons, ih hxs, keepNew]
    by_cases hseen : x ∈ seen
    · rw [if_pos (List.contains_iff_mem.mpr hseen), List.filter_cons_of_neg (by simpa using hseen)]
    · have hrest : xs.filter (· ∉ seen ++ [x]) = xs.filter (· ∉ seen) := by
        refine List.filter_congr fun y hy => ?_
        have hne : y ≠ x := fun heq => hx (heq ▸ hy)
        simp [hne]
      rw [if_neg fun hmem => hseen (List.contains_iff_mem.mp hmem), hrest,
        List.filter_cons_of_pos (by simpa using hseen), List.append_assoc]
      rfl

/-- A name before others that come once each. -/
theorem distinct_cons {x : String} {xs : List String} (h : xs.Nodup) :
    distinct (x :: xs) = x :: xs.filter (· ≠ x) := by
  show xs.foldl keepNew [x] = _
  rw [foldl_keepNew_of_nodup h]
  refine congrArg (x :: ·) (List.filter_congr fun y _ => decide_eq_decide.mpr ?_)
  exact not_congr List.mem_singleton

/-- The list of names that remain is the list of the names that remain. -/
theorem distinct_filter (keep : String → Bool) (xs : List String) :
    distinct (xs.filter keep) = (distinct xs).filter keep := by
  have hfold : ∀ seen : List String, (xs.filter keep).foldl keepNew (seen.filter keep) =
      (xs.foldl keepNew seen).filter keep := by
    induction xs with
    | nil => exact fun _ => rfl
    | cons x xs ih =>
      intro seen
      rw [List.foldl_cons, ← ih, List.filter_cons, keepNew]
      cases hx : keep x with
      | true =>
        have hmem : (seen.filter keep).contains x = seen.contains x := by
          rw [Bool.eq_iff_iff, List.contains_iff_mem, List.contains_iff_mem, List.mem_filter]
          exact and_iff_left hx
        show (xs.filter keep).foldl keepNew (keepNew (seen.filter keep) x) = _
        rw [keepNew, hmem]
        split
        · rfl
        · rw [List.filter_append, List.filter_cons_of_pos hx, List.filter_nil]
      | false =>
        have hx' : ¬keep x = true := by
          rw [hx]
          exact Bool.false_ne_true
        have hsame : (if seen.contains x then seen else seen ++ [x]).filter keep =
            seen.filter keep := by
          split
          · rfl
          · rw [List.filter_append, List.filter_cons_of_neg hx', List.filter_nil, List.append_nil]
        rw [hsame]
        rfl
  exact hfold []

theorem distinct_of_nodup {xs : List String} (h : xs.Nodup) : distinct xs = xs := by
  show xs.foldl keepNew [] = xs
  rw [foldl_keepNew_of_nodup h, List.nil_append, List.filter_eq_self]
  exact fun x _ => decide_eq_true List.not_mem_nil

-- ---------------------------------------------------------------------------
-- The order of distinct names
-- ---------------------------------------------------------------------------

/-- A further name is left out if it came before. -/
theorem distinct_concat (xs : List String) (x : String) :
    distinct (xs ++ [x]) = keepNew (distinct xs) x :=
  List.foldl_append

/-- What entries are read as stands in the order in which it is read first. -/
theorem pairwise_distinct_filterMap {α : Type} (f : α → Option String) (entries : List α) :
    (distinct (entries.filterMap f)).Pairwise fun p q =>
      entries.findIdx (f · = some p) < entries.findIdx (f · = some q) := by
  induction entries using List.reverseRecOn with
  | nil => exact .nil
  | append_singleton entries entry ih =>
    -- what was read before keeps its place, which is below the place of the entry
    have hold : ∀ p ∈ distinct (entries.filterMap f),
        (entries ++ [entry]).findIdx (f · = some p) = entries.findIdx (f · = some p) ∧
          entries.findIdx (f · = some p) < entries.length := by
      intro p hp
      obtain ⟨e, he, hep⟩ := List.mem_filterMap.mp (mem_distinct.mp hp)
      have hfound : entries.findIdx (f · = some p) < entries.length :=
        List.findIdx_lt_length_of_exists ⟨e, he, decide_eq_true hep⟩
      exact ⟨List.findIdx_append.trans (if_pos hfound), hfound⟩
    have hsame : (distinct (entries.filterMap f)).Pairwise fun p q =>
        (entries ++ [entry]).findIdx (f · = some p) <
          (entries ++ [entry]).findIdx (f · = some q) := by
      refine ih.imp_of_mem fun {p q} hp hq hlt => ?_
      rwa [(hold p hp).1, (hold q hq).1]
    rw [List.filterMap_append]
    cases hread : f entry with
    | none =>
      rw [List.filterMap_cons_none hread, List.filterMap_nil, List.append_nil]
      exact hsame
    | some x =>
      rw [List.filterMap_cons_some hread, List.filterMap_nil, distinct_concat, keepNew]
      split
      case isTrue => exact hsame
      case isFalse hx =>
        have hnew : x ∉ distinct (entries.filterMap f) := fun hmem =>
          hx (List.contains_iff_mem.mpr hmem)
        have hnone : ¬entries.findIdx (f · = some x) < entries.length := by
          intro hlt
          obtain ⟨e, he, hex⟩ := List.findIdx_lt_length.mp hlt
          exact hnew (mem_distinct.mpr (List.mem_filterMap.mpr ⟨e, he, of_decide_eq_true hex⟩))
        refine List.pairwise_append.mpr ⟨hsame, List.pairwise_singleton _ _, fun p hp q hq => ?_⟩
        obtain rfl := List.mem_singleton.mp hq
        rw [(hold p hp).1, List.findIdx_append, if_neg hnone]
        exact (hold p hp).2.trans_le (Nat.le_add_left _ _)

/-- Whatever a name of the list rests on stands before it. -/
def RestsOnEarlier (rests : String → String → Prop) (xs : List String) : Prop :=
  ∀ before x after, xs = before ++ x :: after → ∀ y, rests y x → y ∈ before

section Order

variable {rests : String → String → Prop} {xs ys : List String} {x : String}

theorem restsOnEarlier_nil (rests : String → String → Prop) : RestsOnEarlier rests [] := by
  intro before x after h
  exact absurd h.symm (List.append_ne_nil_of_right_ne_nil before (List.cons_ne_nil x after))

theorem restsOnEarlier_concat :
    RestsOnEarlier rests (xs ++ [x]) ↔ RestsOnEarlier rests xs ∧ ∀ y, rests y x → y ∈ xs := by
  constructor
  · intro h
    exact ⟨fun before z after hxs => h before z (after ++ [x]) (by simp [hxs]), h xs x [] rfl⟩
  · rintro ⟨hxs, hx⟩ before z after heq
    rcases List.eq_nil_or_concat after with rfl | ⟨after, last, rfl⟩
    · obtain ⟨rfl, hz⟩ := List.append_inj' heq rfl
      obtain rfl := List.singleton_inj.mp hz
      exact hx
    · rw [List.concat_eq_append, ← List.cons_append, ← List.append_assoc] at heq
      exact hxs before z after (List.append_inj' heq rfl).1

theorem RestsOnEarlier.append (hxs : RestsOnEarlier rests xs) (hys : RestsOnEarlier rests ys) :
    RestsOnEarlier rests (xs ++ ys) := by
  induction ys using List.reverseRecOn with
  | nil => rwa [List.append_nil]
  | append_singleton ys y ih =>
    obtain ⟨hys, hy⟩ := restsOnEarlier_concat.mp hys
    rw [← List.append_assoc]
    exact restsOnEarlier_concat.mpr
      ⟨ih hys, fun z hz => List.mem_append_right _ (hy z hz)⟩

theorem RestsOnEarlier.flatMap {α : Type} {f : α → List String} {l : List α}
    (h : ∀ a ∈ l, RestsOnEarlier rests (f a)) : RestsOnEarlier rests (l.flatMap f) := by
  induction l with
  | nil => exact restsOnEarlier_nil rests
  | cons a l ih =>
    rw [List.flatMap_cons]
    exact (h a List.mem_cons_self).append (ih fun b hb => h b (List.mem_cons_of_mem _ hb))

/-- Names that are left out because they came before are not missed. -/
theorem RestsOnEarlier.distinct (h : RestsOnEarlier rests xs) :
    RestsOnEarlier rests (distinct xs) := by
  induction xs using List.reverseRecOn with
  | nil => exact restsOnEarlier_nil rests
  | append_singleton xs x ih =>
    obtain ⟨hxs, hx⟩ := restsOnEarlier_concat.mp h
    rw [distinct_concat, keepNew]
    split
    case isTrue => exact ih hxs
    case isFalse =>
      exact restsOnEarlier_concat.mpr ⟨ih hxs, fun y hy => mem_distinct.mpr (hx y hy)⟩

end Order

-- ---------------------------------------------------------------------------
-- Paths and their segments
-- ---------------------------------------------------------------------------

/-- A relation name that can be a segment of a path. -/
def IsSegment (name : String) : Prop := '.' ∉ name.toList

theorem isSegment_of_mem_segments {p name : String} (h : name ∈ segments p) : IsSegment name :=
  notMem_of_mem_split h

theorem join_segments (p : String) : join "." (segments p) = p := join_split '.' p

theorem segments_ne_nil (p : String) : segments p ≠ [] := split_ne_nil '.' p

theorem segments_join {names : List String} (hne : names ≠ []) (h : ∀ n ∈ names, IsSegment n) :
    segments (join "." names) = names :=
  split_join hne h

-- ---------------------------------------------------------------------------
-- Lists of paths
-- ---------------------------------------------------------------------------

/-- The segments of the entry, without the blanks around them, are those of the path. -/
def SpellsPath (entry path : String) : Prop := (segments entry).map trim = segments path

instance (entry path : String) : Decidable (SpellsPath entry path) :=
  inferInstanceAs (Decidable (_ = _))

theorem isSegment_trim {name : String} (h : IsSegment name) : IsSegment (trim name) :=
  fun hmem => h (mem_of_mem_trim hmem)

/-- The path of an entry is the one it spells, if that has no blank segment. -/
theorem pathOfEntry?_eq_some {entry path : String} :
    pathOfEntry? entry = some path ↔
      SpellsPath entry path ∧ ∀ name ∈ segments path, name ≠ "" := by
  have hsegments : ∀ name ∈ (segments entry).map trim, IsSegment name := by
    intro name hname
    obtain ⟨spelled, hspelled, rfl⟩ := List.mem_map.mp hname
    exact isSegment_trim (isSegment_of_mem_segments hspelled)
  have hne : (segments entry).map trim ≠ [] := fun h =>
    segments_ne_nil entry (List.map_eq_nil_iff.mp h)
  unfold pathOfEntry?
  dsimp only
  constructor
  · intro h
    split at h
    case isTrue hall =>
      obtain rfl := Option.some.inj h
      rw [SpellsPath, segments_join hne hsegments]
      exact ⟨rfl, fun name hname => of_decide_eq_true (List.all_eq_true.mp hall name hname)⟩
    case isFalse => cases h
  · rintro ⟨hspells, hnames⟩
    rw [hspells, if_pos, join_segments]
    exact List.all_eq_true.mpr fun name hname => decide_eq_true (hnames name hname)

/-- The place of the first entry of a list that spells the path. -/
def firstPlace (list path : String) : Nat :=
  (split ',' list).findIdx fun entry => SpellsPath entry path

/-- The list spells the paths: their names can stand between commas, each path is spelled by an entry,
and they come once each in the order in which the list spells them first. -/
structure SpellsPaths (list : String) (paths : List String) : Prop where
  nodup   : paths.Nodup
  listed  : ∀ p ∈ paths, ∀ name ∈ segments p, IsListed name
  mem_iff : ∀ p, p ∈ paths ↔
    (∀ name ∈ segments p, name ≠ "") ∧ ∃ entry ∈ split ',' list, SpellsPath entry p
  ordered : paths.Pairwise fun p q => firstPlace list p < firstPlace list q

theorem mem_parseIncludes {list p : String} :
    p ∈ parseIncludes list ↔
      (∀ name ∈ segments p, name ≠ "") ∧ ∃ entry ∈ split ',' list, SpellsPath entry p := by
  simp only [parseIncludes, mem_distinct, List.mem_filterMap, pathOfEntry?_eq_some]
  exact ⟨fun ⟨entry, hentry, hspells, hnames⟩ => ⟨hnames, entry, hentry, hspells⟩,
    fun ⟨hnames, entry, hentry, hspells⟩ => ⟨entry, hentry, hspells, hnames⟩⟩

theorem firstPlace_eq {list p : String} (h : ∀ name ∈ segments p, name ≠ "") :
    firstPlace list p = (split ',' list).findIdx fun entry => pathOfEntry? entry = some p := by
  unfold firstPlace
  congr 1
  funext entry
  exact decide_eq_decide.mpr (pathOfEntry?_eq_some.trans (and_iff_left h)).symm

theorem spellsPaths_parseIncludes (list : String) : SpellsPaths list (parseIncludes list) where
  nodup := nodup_distinct _
  listed := by
    intro p hp name hname
    obtain ⟨hnames, entry, hentry, hspells⟩ := mem_parseIncludes.mp hp
    have hspelled : name ∈ (segments entry).map trim := hspells ▸ hname
    obtain ⟨spelled, hmem, rfl⟩ := List.mem_map.mp hspelled
    refine isListed_trim (fun hcomma => notMem_of_mem_split hentry ?_) (hnames _ hname)
    exact (exists_mem_split_iff (by decide)).mp ⟨spelled, hmem, hcomma⟩
  mem_iff := fun _ => mem_parseIncludes
  ordered := by
    refine (pairwise_distinct_filterMap pathOfEntry? (split ',' list)).imp_of_mem ?_
    intro p q hp hq hlt
    rwa [firstPlace_eq (mem_parseIncludes.mp hp).1, firstPlace_eq (mem_parseIncludes.mp hq).1]

/-- Paths between commas are read as themselves. -/
theorem parseIncludes_join {paths : List String} (hnodup : paths.Nodup)
    (h : ∀ p ∈ paths, ∀ name ∈ segments p, IsListed name) :
    parseIncludes (join "," paths) = paths := by
  have hcommas : ∀ p ∈ paths, ',' ∉ p.toList := by
    intro p hp hcomma
    have hpiece : ∃ name ∈ segments p, ',' ∈ name.toList :=
      (exists_mem_split_iff (by decide)).mpr hcomma
    obtain ⟨name, hname, hmem⟩ := hpiece
    exact (h p hp name hname).whole hmem
  have hself : ∀ p ∈ paths, pathOfEntry? p = some p := by
    intro p hp
    refine pathOfEntry?_eq_some.mpr ⟨?_, fun name hname => (h p hp name hname).nonempty⟩
    calc (segments p).map trim = (segments p).map id :=
          List.map_congr_left fun name hname => (h p hp name hname).trimmed
      _ = segments p := List.map_id _
  calc parseIncludes (join "," paths) = distinct (paths.filterMap pathOfEntry?) :=
        congrArg distinct (filterMap_split_join rfl hcommas)
    _ = distinct (paths.map id) :=
          congrArg distinct (List.filterMap_eq_map_iff_forall_eq_some.mpr hself)
    _ = paths := by rw [List.map_id, distinct_of_nodup hnodup]

-- ---------------------------------------------------------------------------
-- Prefixes of paths
-- ---------------------------------------------------------------------------

theorem segments_join_first {names : List String} {path : String} (hne : names ≠ [])
    (h : names <+: segments path) : segments (join "." names) = names :=
  segments_join hne fun _ hname => isSegment_of_mem_segments (h.subset hname)

theorem segments_join_take (path : String) (i : Nat) :
    segments (join "." ((segments path).take (i + 1))) = (segments path).take (i + 1) := by
  refine segments_join_first ?_ (List.take_prefix _ _)
  rw [Ne, List.take_eq_nil_iff]
  exact not_or.mpr ⟨Nat.succ_ne_zero i, segments_ne_nil path⟩

/-- The prefix of a path with so many segments. -/
theorem eq_join_take {p path : String} (h : segments p <+: segments path) :
    p = join "." ((segments path).take (depthOf p - 1 + 1)) := by
  have hdepth : depthOf p - 1 + 1 = (segments p).length :=
    Nat.sub_add_cancel (List.length_pos_iff.mpr (segments_ne_nil p))
  rw [hdepth, ← List.prefix_iff_eq_take.mp h, join_segments]

theorem mem_prefixesOf {p path : String} :
    p ∈ prefixesOf path ↔ segments p <+: segments path := by
  constructor
  · intro h
    obtain ⟨i, -, rfl⟩ := List.mem_map.mp h
    rw [segments_join_take]
    exact List.take_prefix _ _
  · intro h
    refine List.mem_map.mpr ⟨depthOf p - 1, ?_, (eq_join_take h).symm⟩
    have hpos : 0 < depthOf p := List.length_pos_iff.mpr (segments_ne_nil p)
    exact List.mem_range.mpr ((Nat.sub_lt hpos Nat.one_pos).trans_le h.length_le)

/-- The paths are loaded with their prefixes and nothing else. -/
theorem mem_relationPaths_iff {paths : List String} {p : String} :
    p ∈ relationPaths paths ↔ ∃ path ∈ paths, segments p <+: segments path := by
  simp only [relationPaths, mem_distinct, List.mem_flatMap, mem_prefixesOf]

/-- A path is one of its own prefixes. -/
theorem mem_relationPaths {paths : List String} {p : String} (h : p ∈ paths) :
    p ∈ relationPaths paths :=
  mem_relationPaths_iff.mpr ⟨p, h, List.prefix_rfl⟩

/-- The path leads to the other one, which is longer. -/
def LeadsOnTo (p path : String) : Prop := segments p <+: segments path ∧ p ≠ path

theorem restsOnEarlier_prefixesOf (path : String) : RestsOnEarlier LeadsOnTo (prefixesOf path) := by
  -- by the number of segments; a shorter prefix of a prefix is listed with the shorter ones
  have hrange : ∀ n, RestsOnEarlier LeadsOnTo
      ((List.range n).map fun i => join "." ((segments path).take (i + 1))) := by
    intro n
    induction n with
    | zero => exact restsOnEarlier_nil _
    | succ n ih =>
      rw [List.range_succ, List.map_append, List.map_singleton]
      refine restsOnEarlier_concat.mpr ⟨ih, ?_⟩
      rintro p ⟨hleads, hne⟩
      rw [segments_join_take] at hleads
      have hwhole := hleads.trans (List.take_prefix _ _)
      have hp := eq_join_take hwhole
      have hlength : depthOf p ≤ n + 1 :=
        hleads.length_le.trans (List.length_take_le _ _)
      refine List.mem_map.mpr ⟨depthOf p - 1, List.mem_range.mpr ?_, hp.symm⟩
      by_contra hlong
      have hlast : depthOf p - 1 = n := by omega
      exact hne (hp.trans (by rw [hlast]))
  exact hrange _

/-- Whatever leads on to a loaded path is loaded before it. -/
theorem restsOnEarlier_relationPaths (paths : List String) :
    RestsOnEarlier LeadsOnTo (relationPaths paths) :=
  (RestsOnEarlier.flatMap fun path _ => restsOnEarlier_prefixesOf path).distinct

/-- The list holds the prefixes of the paths and nothing else, each once and after its own prefixes. A
prefix is what some first segments of a path make, of which there is at least one. -/
structure ListsPrefixes (paths prefixes : List String) : Prop where
  nodup   : prefixes.Nodup
  mem_iff : ∀ p, p ∈ prefixes ↔
    ∃ path ∈ paths, ∃ names, names ≠ [] ∧ names <+: segments path ∧ p = join "." names
  ordered : ∀ before p after, prefixes = before ++ p :: after →
    ∀ names, names ≠ [] → names <+: segments p → names ≠ segments p → join "." names ∈ before

theorem listsPrefixes_relationPaths (paths : List String) :
    ListsPrefixes paths (relationPaths paths) where
  nodup := nodup_distinct _
  mem_iff := by
    intro p
    rw [mem_relationPaths_iff]
    refine exists_congr fun path => and_congr_right fun _ => ⟨fun h => ?_, ?_⟩
    · exact ⟨segments p, segments_ne_nil p, h, (join_segments p).symm⟩
    · rintro ⟨names, hne, hprefix, rfl⟩
      rwa [segments_join_first hne hprefix]
  ordered := by
    intro before p after hlist names hne hprefix hother
    have hnames := segments_join_first hne hprefix
    refine restsOnEarlier_relationPaths paths before p after hlist _ ⟨by rwa [hnames], ?_⟩
    rintro rfl
    exact hother hnames.symm

/-- The paths of a list are those that its entries spell without a blank segment, each once, in the
order in which they are spelled first, and the list of them is read as itself. Paths are loaded with
their prefixes and nothing else, each once and after its own prefixes. -/
theorem includes_spelled_and_expanded (list : String) (paths : List String) :
    SpellsPaths list (parseIncludes list) ∧
      parseIncludes (join "," (parseIncludes list)) = parseIncludes list ∧
      ListsPrefixes paths (relationPaths paths) := by
  have hspells := spellsPaths_parseIncludes list
  exact ⟨hspells, parseIncludes_join hspells.nodup hspells.listed,
    listsPrefixes_relationPaths paths⟩

/-- Blanks around segments go, an entry with a blank segment is none, and the way to a path is listed
before it. -/
theorem includes_spelled_and_expanded_nested :
    "a.b.c" ∈ parseIncludes "d, a . b.c,a..b" ∧ "a..b" ∉ parseIncludes "d, a . b.c,a..b" ∧
      parseIncludes (join "," (parseIncludes "d, a . b.c,a..b")) = parseIncludes "d, a . b.c,a..b" ∧
      ∀ before after, relationPaths ["a.b.c", "a.b"] = before ++ "a.b.c" :: after →
        "a.b" ∈ before := by
  obtain ⟨hspells, hself, hprefixes⟩ :=
    includes_spelled_and_expanded "d, a . b.c,a..b" ["a.b.c", "a.b"]
  have hpath : segments "a.b.c" = ["a", "b", "c"] := by decide
  refine ⟨(hspells.mem_iff _).mpr ⟨by decide, " a . b.c", by decide, by decide⟩, fun h => ?_, hself,
    fun before after h => ?_⟩
  · exact ((hspells.mem_iff _).mp h).1 "" (by decide) rfl
  · exact hprefixes.ordered before _ after h ["a", "b"] (by decide) (by rw [hpath]; decide)
      (by rw [hpath]; decide)

end ListQuery
