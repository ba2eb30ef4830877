import Mathlib.Data.List.DropRight
import Mathlib.Data.List.TakeWhile
import ListQuery.Text.Split

/-!
# Pieces of a text

The pieces of a text do not hold the separator, and pieces that do not hold it are the pieces of the
text in which they are joined. A text without its blank ends has none to lose.

* `notMem_of_mem_split` — the pieces of a text;
* `split_join`, `filterMap_split_join` — joined pieces;
* `cut?_eq_some`, `cut?_eq_none` — what stands before and after the first separator;
* `trim_trim`, `mem_of_mem_trim` — trimmed texts;
* `IsListed` — what can stand between two commas.
-/

namespace ListQuery.Text

variable {sep : Char} {cs piece : List Char} {pieces : List (List Char)}

theorem notMem_of_mem_splitChars (h : piece ∈ splitChars sep cs) : sep ∉ piece := by
  induction cs generalizing piece with
  | nil =>
    obtain rfl := List.mem_singleton.mp h
    exact List.not_mem_nil
  | cons c cs ih =>
    rw [splitChars] at h
    split at h
    case isTrue =>
      rcases List.mem_cons.mp h with rfl | h
      · exact List.not_mem_nil
      · exact ih h
    case isFalse hc =>
      obtain ⟨first, rest, hsplit⟩ := List.exists_cons_of_ne_nil (splitChars_ne_nil sep cs)
      rw [hsplit] at h ih
      rcases List.mem_cons.mp h with rfl | h
      · intro hmem
        rcases List.mem_cons.mp hmem with heq | hmem
        · exact hc heq.symm
        · exact ih List.mem_cons_self hmem
      · exact ih (List.mem_cons_of_mem _ h)

theorem splitChars_append (h : sep ∉ piece) (cs : List Char) :
    splitChars sep (piece ++ cs) = (splitChars sep cs).modifyHead (piece ++ ·) := by
  induction piece with
  | nil => exact (congrFun List.modifyHead_id _).symm
  | cons c piece ih =>
    have hc : c ≠ sep := fun heq => h (List.mem_cons.mpr (.inl heq.symm))
    rw [List.cons_append, splitChars, if_neg hc, ih fun hmem => h (List.mem_cons_of_mem _ hmem),
      List.modifyHead_modifyHead]
    rfl

theorem splitChars_intercalate (hne : pieces ≠ []) (h : ∀ p ∈ pieces, sep ∉ p) :
    splitChars sep (List.intercalate [sep] pieces) = pieces := by
  induction pieces with
  | nil => exact absurd rfl hne
  | cons first rest ih =>
    have hfirst : sep ∉ first := h first List.mem_cons_self
    cases rest with
    | nil =>
      have hone := splitChars_append hfirst []
      rw [List.append_nil] at hone
      rw [List.intercalate_singleton, hone]
      show [first ++ []] = _
      rw [List.append_nil]
    | cons second rest =>
      rw [List.intercalate_cons_cons, List.append_assoc, splitChars_append hfirst]
      show (splitChars sep (sep :: List.intercalate [sep] (second :: rest))).modifyHead _ = _
      rw [splitChars, if_pos rfl,
        ih (List.cons_ne_nil _ _) fun p hp => h p (List.mem_cons_of_mem _ hp)]
      show (first ++ []) :: _ = _
      rw [List.append_nil]

/-- The pieces of a text do not hold the separator. -/
theorem notMem_of_mem_split {s p : String} (h : p ∈ split sep s) : sep ∉ p.toList := by
  obtain ⟨cs, hcs, rfl⟩ := List.mem_map.mp h
  rw [String.toList_ofList]
  exact notMem_of_mem_splitChars hcs

/-- Every other character of a text is in one of its pieces. -/
theorem exists_mem_splitChars_iff {c : Char} (hc : c ≠ sep) :
    (∃ piece ∈ splitChars sep cs, c ∈ piece) ↔ c ∈ cs := by
  induction cs with
  | nil => simp [splitChars]
  | cons d cs ih =>
    rw [splitChars]
    split
    case isTrue hd => simp [← ih, hd, hc]
    case isFalse =>
      obtain ⟨first, rest, hsplit⟩ := List.exists_cons_of_ne_nil (splitChars_ne_nil sep cs)
      simp [← ih, hsplit, or_assoc]

theorem exists_mem_split_iff {c : Char} {s : String} (hc : c ≠ sep) :
    (∃ piece ∈ split sep s, c ∈ piece.toList) ↔ c ∈ s.toList := by
  simp [split, exists_mem_splitChars_iff hc]

/-- Joined pieces that do not hold the separator are found again. -/
theorem split_join {parts : List String} (hne : parts ≠ []) (h : ∀ p ∈ parts, sep ∉ p.toList) :
    split sep (join (String.singleton sep) parts) = parts := by
  have hpieces : ∀ cs ∈ parts.map String.toList, sep ∉ cs := by
    intro cs hcs
    obtain ⟨p, hp, rfl⟩ := List.mem_map.mp hcs
    exact h p hp
  have hne' : parts.map String.toList ≠ [] := fun hnil => hne (List.map_eq_nil_iff.mp hnil)
  rw [split, join, String.toList_ofList, String.toList_singleton,
    splitChars_intercalate hne' hpieces, List.map_map]
  calc _ = parts.map id := List.map_congr_left fun p _ => String.ofList_toList
    _ = parts := List.map_id parts

theorem split_ne_nil (sep : Char) (s : String) : split sep s ≠ [] :=
  fun h => splitChars_ne_nil sep s.toList (List.map_eq_nil_iff.mp h)

/-- What joined pieces are read as, of which there may be none where blank pieces are passed over. -/
theorem filterMap_split_join {α : Type} {f : String → Option α} {parts : List String}
    (hblank : f "" = none) (h : ∀ p ∈ parts, sep ∉ p.toList) :
    (split sep (join (String.singleton sep) parts)).filterMap f = parts.filterMap f := by
  by_cases hnone : parts = []
  · have hsplit : split sep (join (String.singleton sep) []) = [""] := rfl
    rw [hnone, hsplit, List.filterMap_cons_none hblank]
  · rw [split_join hnone h]

-- ---------------------------------------------------------------------------
-- Cutting at the first separator
-- ---------------------------------------------------------------------------

theorem cutChars?_append (h : sep ∉ piece) (cs : List Char) :
    cutChars? sep (piece ++ sep :: cs) = some (piece, cs) := by
  have hpass : ∀ c ∈ piece, decide (c ≠ sep) = true := by
    intro c hc
    rw [decide_eq_true_eq]
    rintro rfl
    exact h hc
  rw [cutChars?, List.dropWhile_append_of_pos hpass, List.takeWhile_append_of_pos hpass]
  simp

/-- The first separator is the one without another before it. -/
theorem cutChars?_eq_some {before after : List Char} :
    cutChars? sep cs = some (before, after) ↔ cs = before ++ sep :: after ∧ sep ∉ before := by
  constructor
  · intro h
    by_cases hsep : sep ∈ cs
    · obtain ⟨before', after', rfl, hbefore⟩ := List.eq_append_cons_of_mem hsep
      rw [cutChars?_append hbefore] at h
      obtain ⟨rfl, rfl⟩ := Prod.mk.inj (Option.some.inj h)
      exact ⟨rfl, hbefore⟩
    · have hnone : cs.dropWhile (· ≠ sep) = [] := by
        rw [List.dropWhile_eq_nil_iff]
        intro c hc
        rw [decide_eq_true_eq]
        rintro rfl
        exact hsep hc
      rw [cutChars?, hnone] at h
      cases h
  · rintro ⟨rfl, hbefore⟩
    exact cutChars?_append hbefore after

theorem cut?_eq_some {s before after : String} :
    cut? sep s = some (before, after) ↔
      s = before ++ String.singleton sep ++ after ∧ sep ∉ before.toList := by
  have hchars : s = before ++ String.singleton sep ++ after ↔
      s.toList = before.toList ++ sep :: after.toList := by
    rw [← String.toList_inj]
    simp
  rw [hchars, ← cutChars?_eq_some, cut?, Option.map_eq_some_iff]
  constructor
  · rintro ⟨⟨b, a⟩, hcut, heq⟩
    obtain ⟨rfl, rfl⟩ := Prod.mk.inj heq
    simpa using hcut
  · intro h
    exact ⟨_, h, by simp⟩

theorem cut?_eq_none {s : String} : cut? sep s = none ↔ sep ∉ s.toList := by
  rw [cut?, Option.map_eq_none_iff, Option.eq_none_iff_forall_ne_some]
  constructor
  · intro h hmem
    obtain ⟨before, after, hs, hbefore⟩ := List.eq_append_cons_of_mem hmem
    exact h (before, after) (cutChars?_eq_some.mpr ⟨hs, hbefore⟩)
  · rintro h ⟨before, after⟩ hcut
    rw [(cutChars?_eq_some.mp hcut).1] at h
    exact h (List.mem_append_right _ List.mem_cons_self)

-- ---------------------------------------------------------------------------
-- Trimmed texts
-- ---------------------------------------------------------------------------

theorem trimChars_eq (cs : List Char) :
    trimChars cs = (cs.dropWhile isBlank).rdropWhile isBlank := rfl

theorem dropWhile_trimChars (cs : List Char) : (trimChars cs).dropWhile isBlank = trimChars cs := by
  rw [List.dropWhile_eq_self_iff]
  intro hpos hblank
  have hprefix : trimChars cs <+: cs.dropWhile isBlank := by
    rw [trimChars_eq]
    exact List.rdropWhile_prefix _ _
  have hself := List.dropWhile_eq_self_iff.mp (List.dropWhile_idempotent cs (p := isBlank))
  have hlength : 0 < (cs.dropWhile isBlank).length := hpos.trans_le hprefix.length_le
  refine hself hlength ?_
  rw [← hprefix.getElem hpos]
  exact hblank

theorem rdropWhile_trimChars (cs : List Char) : (trimChars cs).rdropWhile isBlank = trimChars cs := by
  rw [trimChars_eq, List.rdropWhile_idempotent]

theorem trimChars_trimChars (cs : List Char) : trimChars (trimChars cs) = trimChars cs := by
  rw [trimChars_eq (trimChars cs), dropWhile_trimChars, rdropWhile_trimChars]

theorem trim_trim (s : String) : trim (trim s) = trim s := by
  unfold trim
  rw [String.toList_ofList, trimChars_trimChars]

theorem mem_of_mem_trim {s : String} {c : Char} (h : c ∈ (trim s).toList) : c ∈ s.toList := by
  rw [trim, String.toList_ofList, trimChars, List.mem_reverse] at h
  have h' := (List.dropWhile_sublist _).mem h
  exact (List.dropWhile_sublist _).mem (List.mem_reverse.mp h')

/-- A sign that is no blank keeps a trimmed text trimmed. -/
theorem trim_singleton_append {c : Char} {s : String} (hc : isBlank c = false) (hne : s ≠ "")
    (h : trim s = s) : trim (String.singleton c ++ s) = String.singleton c ++ s := by
  have hchars : trimChars s.toList = s.toList := by
    rw [← String.toList_inj, trim, String.toList_ofList] at h
    exact h
  have hnil : s.toList ≠ [] := fun hnil => hne (String.toList_eq_nil_iff.mp hnil)
  have hlast := List.rdropWhile_eq_self_iff.mp (hchars ▸ rdropWhile_trimChars s.toList)
  have hfirst : (c :: s.toList).dropWhile isBlank = c :: s.toList := by
    rw [List.dropWhile_cons, hc]
    rfl
  have hwhole : trimChars (c :: s.toList) = c :: s.toList := by
    rw [trimChars_eq, hfirst, List.rdropWhile_eq_self_iff]
    intro hcons
    rw [List.getLast_cons hnil]
    exact hlast hnil
  rw [← String.toList_inj, trim, String.toList_ofList, String.toList_append,
    String.toList_singleton]
  exact hwhole

end ListQuery.Text

namespace ListQuery

/-- A text that a list can have between two commas. -/
structure IsListed (v : String) : Prop where
  nonempty : v ≠ ""
  trimmed  : Text.trim v = v
  whole    : ',' ∉ v.toList

/-- The trimmed pieces of a list are its members, unless they are blank. -/
theorem isListed_trim {piece : String} (h : ',' ∉ piece.toList) (hne : Text.trim piece ≠ "") :
    IsListed (Text.trim piece) where
  nonempty := hne
  trimmed  := Text.trim_trim piece
  whole    := fun hmem => h (Text.mem_of_mem_trim hmem)

end ListQuery
