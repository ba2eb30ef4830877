import ListQuery.Proofs.Json.Tree

/-!
# Trees in documents

The document of a tree is read back as the tree in the order of its keys, as long as so many brackets
may be open at once, and is refused otherwise: the first bracket beyond the limit ends the reading,
wherever it stands.

* `within_list`, `mapM_within_entries` — a list or a record is refused where one of its values is;
* `readsAs_chars`, `read_tree` — trees of any depth;
* `exists_chars_tree`, `tree_ascii` — the document itself.
-/

namespace ListQuery.Json

open Number

/-- The characters are read as a tree in the order of its keys if there is room for its depth, and
are refused if there is not. -/
structure ReadsAs (v : Value) (cs : List Char) : Prop extends Spells (depth v) cs (canonical v) where
  refused : ∀ room fuel rest, room < depth v → cs.length < fuel → EndsValue rest →
    value room fuel (cs ++ rest) = .error .tooDeep

-- ---------------------------------------------------------------------------
-- Too many brackets
-- ---------------------------------------------------------------------------

/-- What a tree is read as where so many brackets may be opened. -/
def within (room : Nat) (v : Value) : Except Failure Value :=
  if depth v ≤ room then .ok (canonical v) else .error .tooDeep

section

variable {v : Value} {cs : List Char}

theorem ReadsAs.value_eq (h : ReadsAs v cs) (room fuel : Nat) (rest : List Char)
    (hf : cs.length < fuel) (hr : EndsValue rest) :
    value room fuel (cs ++ rest) = (within room v).map fun w => (w, rest) := by
  rw [within]
  split
  case isTrue hd => exact h.reads room fuel rest hd hf hr
  case isFalse hd => exact h.refused room fuel rest (Nat.lt_of_not_le hd) hf hr

theorem ReadsAs.of_value_eq (hbegins : ∃ c r, cs = c :: r ∧ isJsonBlank c = false)
    (h : ∀ room fuel rest, cs.length < fuel → EndsValue rest →
      value room fuel (cs ++ rest) = (within room v).map fun w => (w, rest)) : ReadsAs v cs := by
  refine ⟨⟨hbegins, fun room fuel rest hd hf hr => ?_⟩, fun room fuel rest hd hf hr => ?_⟩
  · rw [h room fuel rest hf hr, within, if_pos hd]
    rfl
  · rw [h room fuel rest hf hr, within, if_neg (Nat.not_le_of_lt hd)]
    rfl

/-- A value does not begin with the bracket that closes a list. -/
theorem ReadsAs.begins_open (h : ReadsAs v cs) :
    ∃ c r, cs = c :: r ∧ isJsonBlank c = false ∧ c ≠ ']' := by
  obtain ⟨c, r, rfl, hc⟩ := h.begins
  refine ⟨c, r, rfl, hc, ?_⟩
  rintro rfl
  have hreads := h.reads (depth v) (r.length + 2) [] le_rfl (by rw [List.length_cons]; omega)
    endsValue_nil
  cases hreads

end

/-- A list is refused where one of its values is. -/
theorem within_list (room : Nat) (vs : List Value) :
    within (room + 1) (.list vs) = (vs.mapM (within room)).map .list := by
  have hdepth : depth (.list vs) ≤ room + 1 ↔ ∀ v ∈ vs, depth v ≤ room := by
    rw [depth, Nat.add_le_add_iff_right, itemsDepth_le]
  have hmapM : vs.mapM (within room) =
      if ∀ v ∈ vs, depth v ≤ room then .ok (vs.map canonical) else .error .tooDeep :=
    mapM_ite (fun v => depth v ≤ room) canonical .tooDeep vs
  rw [hmapM, within]
  by_cases h : ∀ v ∈ vs, depth v ≤ room
  · rw [if_pos (hdepth.mpr h), if_pos h, canonical_list]
    rfl
  · rw [if_neg fun hle => h (hdepth.mp hle), if_neg h]
    rfl

/-- The entries of a record in the order of their keys, as far as their values are read. -/
theorem mapM_within_entries (room : Nat) (es : Entries Value) :
    (sorted es).mapM (fun e => (within room e.2).map fun w => (e.1, w)) =
      if depth (.record es) ≤ room + 1 then
        .ok ((sorted es).map fun e => (e.1, canonical e.2))
      else .error .tooDeep := by
  have hentry : (fun e : String × Value => (within room e.2).map fun w => (e.1, w)) =
      fun e => if depth e.2 ≤ room then .ok (e.1, canonical e.2) else .error .tooDeep := by
    funext e
    rw [within]
    split <;> rfl
  have hdepth : depth (.record es) ≤ room + 1 ↔ ∀ e ∈ sorted es, depth e.2 ≤ room := by
    rw [depth_record_le]
    exact forall_congr' fun e => imp_congr_left (sorted_perm es).mem_iff.symm
  rw [hentry, mapM_ite (fun e : String × Value => depth e.2 ≤ room)]
  exact if_congr hdepth.symm rfl rfl

-- ---------------------------------------------------------------------------
-- Trees
-- ---------------------------------------------------------------------------

theorem ReadsAs.of_isScalar {v : Value} {cs : List Char} (hs : IsScalar v) (hv : jsonForm v = v)
    (h : chars v = .ok cs) : ReadsAs v cs := by
  have hdepth := depth_of_isScalar hs
  refine ⟨?_, fun room _ _ hroom => ?_⟩
  · rw [hdepth, canonical_of_isScalar hs]
    have hspells := spells_chars hs h
    rwa [hv] at hspells
  · rw [hdepth] at hroom
    exact absurd hroom (Nat.not_lt_zero room)

theorem ReadsAs.list {vs : List Value} {texts : List (List Char)}
    (h : List.Forall₂ ReadsAs vs texts) : ReadsAs (.list vs) (bracketed '[' ']' texts) := by
  refine .of_value_eq ⟨'[', _, rfl, rfl⟩ fun room fuel rest hf hr => ?_
  obtain ⟨fuel, rfl⟩ : ∃ k, fuel = k + 1 := ⟨fuel - 1, by omega⟩
  cases room with
  | zero => rw [within, depth]; rfl
  | succ room =>
    have hparts := h.imp fun v text hv => takesPart_items hv.begins_open (hv.value_eq room)
    rw [value_list hparts (Nat.le_of_lt_succ hf), within_list]
    cases vs.mapM (within room) <;> rfl

/-- The text of an entry whose value is a tree. -/
def IsTreeEntry (e : String × Value) (text : List Char) : Prop :=
  ∃ cs, text = stringChars e.1 ++ ':' :: cs ∧ ReadsAs e.2 cs

theorem IsTreeEntry.takesPart {e : String × Value} {text : List Char} (h : IsTreeEntry e text)
    (room : Nat) :
    TakesPart (entries room) '\x7d' text ((within room e.2).map fun w => (e.1, w)) := by
  obtain ⟨cs, rfl, hcs⟩ := h
  exact takesPart_entries e.1 hcs.begins (hcs.value_eq room)

theorem ReadsAs.record {es : Entries Value} {texts : List (List Char)} (hn : es.keys.Nodup)
    (h : List.Forall₂ IsTreeEntry (sorted es) texts) :
    ReadsAs (.record es) (bracketed '\x7b' '\x7d' texts) := by
  have hkeys : Entries.keys ((sorted es).map fun e => (e.1, canonical e.2)) |>.Nodup := by
    rw [Entries.keys_map]
    exact ((sorted_perm es).map _).nodup_iff.mpr hn
  refine .of_value_eq ⟨'\x7b', _, rfl, rfl⟩ fun room fuel rest hf hr => ?_
  obtain ⟨fuel, rfl⟩ : ∃ k, fuel = k + 1 := ⟨fuel - 1, by omega⟩
  cases room with
  | zero => rw [within, Value.record, depth]; rfl
  | succ room =>
    have hparts := h.imp fun e text he => he.takesPart room
    rw [value_record hparts (Nat.le_of_lt_succ hf), mapM_within_entries, within, canonical_record]
    split
    · exact congrArg (fun es => Except.ok (Value.record es, rest)) (Entries.ofList_of_nodup hkeys)
    · rfl

/-- The document of a tree. -/
theorem readsAs_chars {v : Value} {cs : List Char} (hv : IsTree v) (h : chars v = .ok cs) :
    ReadsAs v cs := by
  induction hv generalizing cs with
  | null => exact .of_isScalar trivial rfl h
  | bool b => exact .of_isScalar trivial rfl h
  | int _ => exact .of_isScalar trivial rfl h
  | text s => exact .of_isScalar trivial rfl h
  | @list vs _ ih =>
    rw [chars, itemChars_eq] at h
    obtain ⟨texts, htexts, rfl⟩ := map_eq_ok.mp h
    have hall := (List.forall₂_and_left _ _).mpr ⟨ih, mapM_eq_ok.mp htexts⟩
    exact .list (hall.imp fun v text hv => hv.1 hv.2)
  | @record es hn _ ih =>
    obtain ⟨texts, htexts, rfl⟩ := chars_record h
    have hall := (List.forall₂_and_left
      (p := fun e : String × Value => ∀ {cs}, chars e.2 = .ok cs → ReadsAs e.2 cs) _ _).mpr
      ⟨fun e he => ih e ((sorted_perm es).mem_iff.mp he), htexts⟩
    refine .record hn (hall.imp fun e text he => ?_)
    obtain ⟨cs, hcs, rfl⟩ := map_eq_ok.mp he.2
    exact ⟨cs, rfl, he.1 hcs⟩

theorem exists_chars_tree {v : Value} (hv : IsTree v) : ∃ cs, chars v = .ok cs := by
  induction hv with
  | null => exact ⟨_, by rw [chars]⟩
  | bool b => exact ⟨_, by rw [chars]⟩
  | int hn => exact ⟨_, by rw [chars, integerChars, if_pos hn]⟩
  | text s => exact ⟨_, by rw [chars]⟩
  | list _ ih =>
    obtain ⟨texts, htexts⟩ := exists_mapM_eq_ok.mpr ih
    exact ⟨_, by rw [chars, itemChars_eq, htexts]; rfl⟩
  | record _ _ ih => exact exists_chars_record ih

theorem tree_ascii {v : Value} {cs : List Char} (hv : IsTree v) (h : chars v = .ok cs) :
    ∀ c ∈ cs, c.toNat < 0x80 := by
  induction hv generalizing cs with
  | null => exact chars_ascii (v := .null) trivial h
  | bool b => exact chars_ascii (v := .bool b) trivial h
  | @int n _ => exact chars_ascii (v := .int n) trivial h
  | text s => exact chars_ascii (v := .text s) trivial h
  | list _ ih =>
    rw [chars, itemChars_eq] at h
    obtain ⟨texts, htexts, rfl⟩ := map_eq_ok.mp h
    refine bracketed_ascii (by decide) (by decide) fun text hmem => ?_
    obtain ⟨v, hv, hchars⟩ := exists_of_mem_forall₂ (mapM_eq_ok.mp htexts) hmem
    exact ih v hv hchars
  | record _ _ ih => exact record_ascii (fun e he _ hds => ih e he hds) h

/-- The document of a tree is read, unless more brackets than allowed are open in it at once. -/
theorem read_tree {v : Value} {cs : List Char} (hv : IsTree v) (h : chars v = .ok cs) :
    read cs = if depth v ≤ maxDepth then .ok (canonical v) else .error .tooDeep := by
  have hreads := readsAs_chars hv h
  exact read_of_value hreads.begins
    (hreads.value_eq maxDepth _ [] (Nat.lt_succ_self _) endsValue_nil)

end ListQuery.Json
