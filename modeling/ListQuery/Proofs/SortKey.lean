import ListQuery.Proofs.Text.Split
import ListQuery.SortKey

/-!
# Sort keys and their texts

A list of sort keys is written with a hyphen before every descending one. It is read in a third notation
too, with the direction after a colon, in which alone the field of an ascending key can begin with a
hyphen. Such a key is not read back from its text, where the hyphen stands for the direction; every
other one is.

* `Spells`, `ofEntry?_eq_some` — the three notations of an entry;
* `hasName_of_mem_parse` — the fields that a list can spell;
* `ofEntry?_text_iff`, `parse_toText_iff` — one key and a list of them, written and read;
* `parse_toText_exact` — all of it.
-/

namespace ListQuery.SortKey

open Text

-- ---------------------------------------------------------------------------
-- The notations of an entry
-- ---------------------------------------------------------------------------

/-- The entry, which has no blanks at its ends, spells the key: with its direction after a colon, with a
hyphen before it, or bare. -/
inductive Spells : String → SortKey → Prop
  | directed {field direction : String} (hcolon : ':' ∉ field.toList) (hne : trim field ≠ "") :
      Spells (field ++ ":" ++ direction) ⟨trim field, .parse direction⟩
  | hyphenated {field : String} (hcolon : ':' ∉ field.toList) (hne : trim field ≠ "") :
      Spells ("-" ++ field) ⟨trim field, .descending⟩
  | bare {field : String} (hcolon : ':' ∉ field.toList) (hne : field ≠ "")
      (hhyphen : field.toList.head? ≠ some '-') : Spells field ⟨field, .ascending⟩

theorem hyphen_append (field : String) : ("-" ++ field).toList = '-' :: field.toList :=
  String.toList_append

/-- An entry is read as the key that it spells, and as none if it spells none. -/
theorem ofEntry?_eq_some {entry : String} {k : SortKey} :
    ofEntry? entry = some k ↔ Spells (trim entry) k := by
  unfold ofEntry?
  dsimp only
  generalize trim entry = entry
  constructor
  · intro h
    split at h
    case h_1 field direction hcut =>
      obtain ⟨rfl, hcolon⟩ := cut?_eq_some.mp hcut
      split at h
      case isTrue => cases h
      case isFalse hne =>
        obtain rfl := Option.some.inj h
        exact .directed hcolon hne
    case h_2 hcut =>
      have hcolon := cut?_eq_none.mp hcut
      split at h
      case h_1 field hchars =>
        have hentry : entry = "-" ++ String.ofList field := by
          rw [← String.toList_inj, hyphen_append, hchars, String.toList_ofList]
        split at h
        case isTrue => cases h
        case isFalse hne =>
          obtain rfl := Option.some.inj h
          rw [hentry, hyphen_append] at hcolon
          rw [hentry]
          exact .hyphenated (fun hmem => hcolon (List.mem_cons_of_mem _ hmem)) hne
      case h_2 hother =>
        split at h
        case isTrue => cases h
        case isFalse hne =>
          obtain rfl := Option.some.inj h
          refine .bare hcolon hne fun hhead => ?_
          obtain ⟨rest, hchars⟩ := List.head?_eq_some_iff.mp hhead
          exact hother rest hchars
  · intro h
    cases h with
    | @directed field direction hcolon hne =>
      have hcut : cut? ':' (field ++ ":" ++ direction) = some (field, direction) :=
        cut?_eq_some.mpr ⟨rfl, hcolon⟩
      rw [hcut]
      exact if_neg hne
    | @hyphenated field hcolon hne =>
      have hnone : cut? ':' ("-" ++ field) = none := by
        rw [cut?_eq_none, hyphen_append]
        exact List.not_mem_cons_of_ne_of_not_mem (by decide) hcolon
      rw [hnone, hyphen_append]
      simp [hne]
    | bare hcolon hne hhyphen =>
      rw [cut?_eq_none.mpr hcolon]
      dsimp only
      split
      case h_1 hchars => simp [hchars] at hhyphen
      case h_2 => exact if_neg hne

/-- Without a colon, an ascending key can be spelled bare alone. -/
theorem Spells.head?_ne {entry : String} {k : SortKey} (h : Spells entry k)
    (hcolon : ':' ∉ entry.toList) (hk : k.direction = .ascending) :
    entry.toList.head? ≠ some '-' := by
  cases h with
  | directed => simp at hcolon
  | hyphenated => cases hk
  | bare _ _ hhyphen => exact hhyphen

-- ---------------------------------------------------------------------------
-- Fields that can be spelled
-- ---------------------------------------------------------------------------

/-- The field of the key can stand between two commas and has no colon. -/
structure HasName (k : SortKey) : Prop where
  listed : IsListed k.field
  uncut  : ':' ∉ k.field.toList

theorem hasName_of_read {entry : String} {k : SortKey} (hentry : ',' ∉ entry.toList)
    (h : ofEntry? entry = some k) : k.HasName := by
  have hspells := ofEntry?_eq_some.mp h
  have hcomma : ',' ∉ (trim entry).toList := fun hmem => hentry (mem_of_mem_trim hmem)
  have htrimmed := trim_trim entry
  generalize trim entry = entry at hspells hcomma htrimmed
  cases hspells with
  | directed hcolon hne =>
    refine ⟨isListed_trim (fun hmem => hcomma ?_) hne, fun hmem => hcolon (mem_of_mem_trim hmem)⟩
    simp [hmem]
  | hyphenated hcolon hne =>
    refine ⟨isListed_trim (fun hmem => hcomma ?_) hne, fun hmem => hcolon (mem_of_mem_trim hmem)⟩
    simp [hmem]
  | bare hcolon hne => exact ⟨⟨hne, htrimmed, hcomma⟩, hcolon⟩

theorem hasName_of_mem_parse {list : String} {k : SortKey} (h : k ∈ parse list) : k.HasName := by
  obtain ⟨entry, hentry, hk⟩ := List.mem_filterMap.mp h
  exact hasName_of_read (notMem_of_mem_split hentry) hk

-- ---------------------------------------------------------------------------
-- Written and read
-- ---------------------------------------------------------------------------

/-- The key is ascending though its field begins with a hyphen. -/
def LooksDescending (k : SortKey) : Prop :=
  k.direction = .ascending ∧ k.field.toList.head? = some '-'

theorem notMem_text {c : Char} (hc : c ≠ '-') {k : SortKey} (h : c ∉ k.field.toList) :
    c ∉ k.text.toList := by
  unfold text
  split
  · rw [hyphen_append]
    exact List.not_mem_cons_of_ne_of_not_mem hc h
  · exact h

theorem trim_text {k : SortKey} (h : k.HasName) : trim k.text = k.text := by
  unfold text
  split
  · exact trim_singleton_append (c := '-') (by decide) h.listed.nonempty h.listed.trimmed
  · exact h.listed.trimmed

/-- A key is read back from its text just if it does not look like another one. -/
theorem ofEntry?_text_iff {k : SortKey} (h : k.HasName) :
    ofEntry? k.text = some k ↔ ¬k.LooksDescending := by
  rw [ofEntry?_eq_some, trim_text h]
  obtain ⟨field, direction⟩ := k
  cases direction with
  | descending =>
    refine iff_of_true ?_ fun hlooks => by cases hlooks.1
    have hspells := Spells.hyphenated h.uncut (h.listed.trimmed.symm ▸ h.listed.nonempty)
    rwa [h.listed.trimmed] at hspells
  | ascending =>
    constructor
    · rintro hspells ⟨-, hhyphen⟩
      exact hspells.head?_ne h.uncut rfl hhyphen
    · intro hlooks
      exact .bare h.uncut h.listed.nonempty fun hhyphen => hlooks ⟨rfl, hhyphen⟩

/-- Keys are read back from the text of their list just if none of them looks descending. -/
theorem parse_toText_iff {l : List SortKey} (h : ∀ k ∈ l, k.HasName) :
    parse (toText l) = l ↔ ∀ k ∈ l, ¬k.LooksDescending := by
  have hcommas : ∀ t ∈ l.map text, ',' ∉ t.toList := by
    intro t ht
    obtain ⟨k, hk, rfl⟩ := List.mem_map.mp ht
    exact notMem_text (by decide) (h k hk).listed.whole
  have hread : parse (toText l) = l.filterMap ( ofEntry? ∘ text) :=
    (filterMap_split_join rfl hcommas).trans List.filterMap_map
  have hself := List.filterMap_eq_map_iff_forall_eq_some (l := l) (f := ofEntry? ∘ text) (g := id)
  rw [List.map_id] at hself
  rw [hread, hself]
  simp only [Function.comp_apply, id_eq]
  exact forall₂_congr fun k hk => ofEntry?_text_iff (h k hk)

/-- The fields that a list spells are not blank, have no blanks at their ends and hold neither comma nor
colon. What is read of a list is read again from its text just if none of its ascending keys has a field
that begins with a hyphen, and a list of keys comes back from its text just if the fields are as a list
spells them and again no ascending one begins with a hyphen; so it does where none begins with one. -/
theorem parse_toText_exact (list : String) :
    (∀ k ∈ parse list, k.HasName) ∧
      (parse (toText (parse list)) = parse list ↔ ∀ k ∈ parse list, ¬k.LooksDescending) ∧
      ∀ l : List SortKey, parse (toText l) = l ↔ ∀ k ∈ l, k.HasName ∧ ¬k.LooksDescending := by
  refine ⟨fun k => hasName_of_mem_parse, parse_toText_iff fun k => hasName_of_mem_parse,
    fun l => ⟨fun h => ?_, fun h => ?_⟩⟩
  · have hnames : ∀ k ∈ l, k.HasName := by
      intro k hk
      rw [← h] at hk
      exact hasName_of_mem_parse hk
    exact fun k hk => ⟨hnames k hk, (parse_toText_iff hnames).mp h k hk⟩
  · exact (parse_toText_iff fun k hk => (h k hk).1).mpr fun k hk => (h k hk).2

/-- A direction after the field gives an ascending key a field that begins with a hyphen, and it is not
read again. A descending key may have such a field. -/
theorem parse_toText_exact_price :
    (⟨"-price", .ascending⟩ : SortKey) ∈ parse "name, -price:asc" ∧
      parse (toText (parse "name, -price:asc")) ≠ parse "name, -price:asc" ∧
      parse (toText [⟨"-price", .descending⟩, ⟨"name", .ascending⟩]) =
        [⟨"-price", .descending⟩, ⟨"name", .ascending⟩] := by
  obtain ⟨-, hread, hkeys⟩ := parse_toText_exact "name, -price:asc"
  have hprice : (⟨"-price", .ascending⟩ : SortKey) ∈ parse "name, -price:asc" := by
    decide +kernel
  refine ⟨hprice, fun h => hread.mp h _ hprice ⟨rfl, by decide⟩, (hkeys _).mpr ?_⟩
  simp only [List.forall_mem_cons, List.not_mem_nil, false_imp_iff, implies_true, and_true]
  exact ⟨⟨⟨⟨by decide, by decide, by decide⟩, by decide⟩, fun h => by cases h.1⟩,
    ⟨⟨by decide, by decide, by decide⟩, by decide⟩, fun h => absurd h.2 (by decide)⟩

end ListQuery.SortKey
