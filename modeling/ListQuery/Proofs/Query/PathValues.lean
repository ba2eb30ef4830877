import ListQuery.Proofs.Query.PathMembership
import ListQuery.Proofs.Sql.DocumentText

/-!
# Values on paths inside documents

On a path, equality compares the text that stands there with the text of the operand. The two texts
are spelled alike for integers and texts. A truth value has a capital letter in the operand but not
in the document, and nothing, which has no text in a document, has one in the operand; so there the
filter finds the documents with that very text.

* `textOf?_eq_display_iff` — the operands that are spelled as in documents;
* `compared_asText` — which rows equality and inequality find, and when that is equality of values.
-/

namespace ListQuery

open Sql

-- ---------------------------------------------------------------------------
-- Spellings
-- ---------------------------------------------------------------------------

/-- Nothing, truth values, integers and texts. -/
def Value.isBasic : Value → Bool
  | .null | .bool _ | .int _ | .text _ => true
  | _                                  => false

/-- The basic values whose text in an operand is that in a document. -/
def Value.isSpelledAlike : Value → Bool
  | .int _ | .text _ => true
  | _                => false

theorem textOf?_eq_display_iff {v : Value} (h : v.isBasic = true) (r : DocumentReader) :
    r.textOf? v = some v.display ↔ v.isSpelledAlike = true := by
  cases v with
  | null => exact iff_of_false nofun nofun
  | bool b =>
    refine iff_of_false ?_ nofun
    cases b with
    | false => exact (by decide : some "false" ≠ some "False")
    | true => exact (by decide : some "true" ≠ some "True")
  | int | text => exact iff_of_true rfl rfl
  | _ => cases h

namespace Sql.DocumentReader

variable (r : DocumentReader)

/-- The document has the value at the path, or nothing if that is the value. -/
def HasAt (path : List String) (document v : Value) : Prop := r.textAt? path document = r.textOf? v

/-- The document has something at the path, and not the value. -/
def HasOtherAt (path : List String) (document v : Value) : Prop :=
  ∃ t, r.textAt? path document = some t ∧ r.textOf? v ≠ some t

end Sql.DocumentReader

/-- A row with one value in all its columns. -/
def Sql.Scene.filledWith (v : Value) : Scene := fun _ _ => v

-- ---------------------------------------------------------------------------
-- Filters
-- ---------------------------------------------------------------------------

namespace Query

variable {q : Query} {field path : String} {c : Column} (h : q.IsPath field c path)

include h

/-- The rows of a value are those with its text at the path, the others those with another text. -/
theorem IsPath.matches_value_iff (v : Value) {j : Judge} {place : Placing} {s : Scene}
    {r : DocumentReader} (hj : j.IsStandard (.pathText c (segments path)) place)
    (htexts : place.ReadsText r (segments path)) :
    (q.Matches j s (.compare .eq field v) ↔
      r.textAt? (segments path) (s.at c) = some v.display) ∧
    (q.Matches j s (.compare .ne field v) ↔
      ∃ t, r.textAt? (segments path) (s.at c) = some t ∧ t ≠ v.display) := by
  have heq := (h.matches_display_iff (.inl ⟨rfl, rfl⟩) (.single v)).2 hj (s := s)
  have hne := (h.matches_display_iff (.inr ⟨rfl, rfl⟩) (.single v)).2 hj (s := s)
  exact ⟨heq.trans (meets_eq_iff_textAt? htexts _ _), hne.trans (meets_ne_iff_textAt? htexts _ _)⟩

/-- Equality on a path compares the text at the path with the text of the operand. For integers and
texts this is equality of values. For truth values and for nothing it is not: a document with the
text of the operand is taken for one with the operand, and one with the operand is not found. -/
theorem compared_asText {v : Value} (hv : v.isBasic = true) :
    let compared (op : Operator) : Filter := .compare op field v
    (∀ op, op = .eq ∨ op = .ne → q.HasConditionFor (compared op)) ∧
    (∀ {j : Judge} {place : Placing} {s : Scene} {r : DocumentReader},
      j.IsStandard (.pathText c (segments path)) place → place.ReadsText r (segments path) →
        (q.Matches j s (compared .eq) ↔
          r.textAt? (segments path) (s.at c) = some v.display) ∧
        (q.Matches j s (compared .ne) ↔
          ∃ t, r.textAt? (segments path) (s.at c) = some t ∧ t ≠ v.display) ∧
        (s.at c = documentHolding (segments path) v →
          (q.Matches j s (compared .eq) ↔ v.isSpelledAlike = true))) ∧
    ((∀ {j : Judge} {place : Placing} {s : Scene} {r : DocumentReader},
      j.IsStandard (.pathText c (segments path)) place → place.ReadsText r (segments path) →
        (q.Matches j s (compared .eq) ↔ r.HasAt (segments path) (s.at c) v)) ↔
      v.isSpelledAlike = true) ∧
    ((∀ {j : Judge} {place : Placing} {s : Scene} {r : DocumentReader},
      j.IsStandard (.pathText c (segments path)) place → place.ReadsText r (segments path) →
        (q.Matches j s (compared .ne) ↔ r.HasOtherAt (segments path) (s.at c) v)) ↔
      v.isSpelledAlike = true) := by
  intro compared
  -- A document with the text of the operand tells equality of texts from equality of values.
  let s := Scene.filledWith (documentHolding (segments path) (.text v.display))
  have hj := isStandard_reading .bare c (segments path)
  have htexts := readsText_placing .bare c (segments path)
  have htext : DocumentReader.bare.textAt? (segments path) (s.at c) = some v.display :=
    DocumentReader.textAt?_documentHolding _ _
  obtain ⟨heqText, hneText⟩ := h.matches_value_iff v hj htexts (s := s)
  refine ⟨?_, fun hj htexts => ?_, ⟨fun hlaw => ?_, fun halike => ?_⟩, ⟨fun hlaw => ?_,
    fun halike => ?_⟩⟩
  · rintro op (rfl | rfl)
    · exact (h.matches_display_iff (.inl ⟨rfl, rfl⟩) (.single v)).1
    · exact (h.matches_display_iff (.inr ⟨rfl, rfl⟩) (.single v)).1
  · obtain ⟨heq, hne⟩ := h.matches_value_iff v hj htexts
    refine ⟨heq, hne, fun hholding => ?_⟩
    rw [heq, hholding, DocumentReader.textAt?_documentHolding, textOf?_eq_display_iff hv]
  · rw [← textOf?_eq_display_iff hv .bare]
    exact ((hlaw hj htexts).mp (heqText.mpr htext)).symm.trans htext
  · intro j place s r hj htexts
    rw [(h.matches_value_iff v hj htexts).1, DocumentReader.HasAt,
      (textOf?_eq_display_iff hv r).mpr halike]
  · rw [← textOf?_eq_display_iff hv .bare]
    by_contra hdiffer
    obtain ⟨t, ht, hne⟩ := hneText.mp ((hlaw hj htexts).mpr ⟨_, htext, hdiffer⟩)
    exact hne (Option.some.inj (ht.symm.trans htext))
  · intro j place s r hj htexts
    rw [(h.matches_value_iff v hj htexts).2, DocumentReader.HasOtherAt,
      (textOf?_eq_display_iff hv r).mpr halike]
    simp [ne_comm]

omit h in
/-- Parcels from a numbered place are found by the number. Those of whose place it is only known
that there is one are not found by that, but those from a place called True are. -/
theorem compared_asText_parcels :
    let q : Query := { entity := .parcels }
    let found (v origin : Value) :=
      q.Matches (.reading .bare) (.filledWith (documentHolding ["from"] origin))
        (.compare .eq "way.from" v)
    found (.int 7) (.int 7) ∧ ¬found (.bool true) (.bool true) ∧
      found (.bool true) (.text "True") := by
  intro q found
  have hpath : IsPath q "way.from" ⟨"parcels", "way", .json⟩ "from" := ⟨rfl, rfl⟩
  have hj := isStandard_reading .bare ⟨"parcels", "way", .json⟩ (segments "from")
  have htexts := readsText_placing .bare ⟨"parcels", "way", .json⟩ (segments "from")
  obtain ⟨-, hnumber, -⟩ := compared_asText hpath (v := .int 7) rfl
  obtain ⟨-, htruth, -⟩ := compared_asText hpath (v := .bool true) rfl
  refine ⟨((hnumber hj htexts).2.2 rfl).mpr rfl, fun hfound => ?_, (htruth hj htexts).1.mpr ?_⟩
  · cases ((htruth hj htexts).2.2 rfl).mp hfound
  · exact DocumentReader.textAt?_documentHolding _ _

end Query

end ListQuery
