import ListQuery.Condition.OfSearch
import ListQuery.Proofs.Failure
import ListQuery.Proofs.Number.IntegerText

/-!
# Conditions for a search term

A column has one condition for a term or none: an integer column has one if the term spells a
number, a column of truth values if it spells one of these, and every other column is searched for
the term as a text. Which signs make up a number is asked twice, and not in the same way. A term of
digit signs that spell no number, or more digits than are read, is not passed over on an integer
column, but cannot be searched for at all.

* `Column.SearchedBy` — the condition of a column;
* `IsUnreadableTerm`, `searchedInteger?_of_unreadable`, `searchedInteger?_of_readable` — numbers;
* `searchCondition?_of_unreadable`, `searchCondition?_of_readable` — columns;
* `searchConditions_total` — all columns of an entity.
-/

namespace ListQuery

open Sql Text Number

-- ---------------------------------------------------------------------------
-- Numbers
-- ---------------------------------------------------------------------------

/-- Signs that look like digits but spell no number, or spell one with more digits than are read. -/
structure IsUnreadableTerm (term : String) : Prop where
  some   : term ≠ ""
  digits : term.toList.all isDigitSign = true
  beyond : term.toList.all isDecimal = false ∨ maxIntegerDigits < term.toList.length

theorem searchedInteger?_of_unreadable {term : String} (h : IsUnreadableTerm term) :
    searchedInteger? term = .error .unreadable := by
  rw [searchedInteger?, if_pos ⟨h.some, h.digits⟩,
    (readInteger_digitSigns_eq_none_iff h.digits h.some).mpr h.beyond]

/-- What spells a number is made of digit signs. -/
theorem Number.SpellsNumber.all_isDigitSign {cs : List Char} {n : Nat} (h : SpellsNumber cs n) :
    cs ≠ [] ∧ cs.all isDigitSign = true := by
  obtain ⟨ds, hds, hsome, -⟩ := h
  refine ⟨?_, List.all_eq_true.mpr fun c hc => ?_⟩
  · rintro rfl
    exact hsome (List.forall₂_nil_left_iff.mp hds)
  · have hdecimal := List.all_eq_true.mp (all_isDecimal_iff_exists.mpr ⟨ds, hds⟩) c hc
    rw [isDigitSign, hdecimal, Bool.true_or]

/-- Any other term is searched for as the number that it spells, or for none. -/
theorem searchedInteger?_of_readable {term : String} (h : ¬IsUnreadableTerm term) :
    ∃ found : Option Int, searchedInteger? term = .ok found ∧
      ∀ n, found = some n ↔ ∃ m, SpellsNumber term.toList m ∧ n = m := by
  rw [searchedInteger?]
  by_cases hsigns : term ≠ "" ∧ term.toList.all isDigitSign = true
  · obtain ⟨hne, hdigits⟩ := hsigns
    rw [if_pos ⟨hne, hdigits⟩]
    cases hread : readInteger term with
    | none =>
      have hbeyond := (readInteger_digitSigns_eq_none_iff hdigits hne).mp hread
      exact absurd ⟨hne, hdigits, hbeyond⟩ h
    | some n =>
      obtain ⟨hlength, -⟩ := (readInteger_digitSigns_iff hdigits).mp hread
      refine ⟨some n, rfl, fun k => ?_⟩
      rw [← hread, readInteger_digitSigns_iff hdigits]
      exact and_iff_right hlength
  · rw [if_neg hsigns]
    refine ⟨none, rfl, fun n => iff_of_false nofun ?_⟩
    rintro ⟨m, hm, -⟩
    obtain ⟨hne, hdigits⟩ := hm.all_isDigitSign
    exact hsigns ⟨fun hempty => hne (by rw [hempty]; rfl), hdigits⟩

-- ---------------------------------------------------------------------------
-- Columns
-- ---------------------------------------------------------------------------

/-- The term spells a truth value, in letters of either case. -/
def SpellsTruth (term : String) (b : Bool) : Prop := lower term = if b then "true" else "false"

theorem searchedTruth?_eq_some_iff {term : String} {b : Bool} :
    searchedTruth? term = some b ↔ SpellsTruth term b := by
  unfold searchedTruth? SpellsTruth
  cases b <;> grind

namespace Column

/-- Where a search seeks a text that a column is to hold: in what is no text, as it is written. -/
def sought (c : Column) : Expr := if c.type.isText then .column c else .asText c

/-- A column whose rows are searched for texts. -/
def holdsTexts (c : Column) : Bool := !c.type.isInteger && !c.type.isBoolean

/-- The condition for a term on a column. -/
inductive SearchedBy (c : Column) (term : String) : Predicate → Prop
  | text (h : c.holdsTexts = true) : SearchedBy c term (.affix c.sought .anywhere term)
  | integer (h : c.type.isInteger = true) {n : Nat} (hn : SpellsNumber term.toList n) :
    SearchedBy c term (.compare (.column c) .eq (c.bind (.int n)))
  | truth (h : c.type.isBoolean = true) {b : Bool} (hb : SpellsTruth term b) :
    SearchedBy c term (.isTruth (.column c) false b)

section
variable {c : Column} {term : String}

/-- No column is of two kinds. -/
theorem type_cases (c : Column) :
    c.type.isInteger = false ∧ c.type.isBoolean = false ∨
    c.type.isText = false ∧ c.type.isInteger = true ∧ c.type.isBoolean = false ∨
    c.type.isText = false ∧ c.type.isInteger = false ∧ c.type.isBoolean = true := by
  cases c.type <;>
    simp [ColumnType.isText, ColumnType.isInteger, ColumnType.isBoolean, ColumnType.native?]

/-- On an integer column an unreadable term cannot be searched for. -/
theorem searchCondition?_of_unreadable (hc : c.type.isInteger = true) (h : IsUnreadableTerm term) :
    c.searchCondition? term = .error .unreadable := by
  have htext : c.type.isText = false := by
    obtain ⟨hinteger, -⟩ | ⟨htext, -⟩ | ⟨htext, -⟩ := c.type_cases
    · cases hinteger.symm.trans hc
    · exact htext
    · exact htext
  rw [searchCondition?, if_neg (Bool.eq_false_iff.mp htext), if_pos hc,
    searchedInteger?_of_unreadable h]
  rfl

/-- Otherwise the column has its condition for the term, or none. -/
theorem searchCondition?_of_readable (h : ¬(c.type.isInteger = true ∧ IsUnreadableTerm term)) :
    ∃ found, c.searchCondition? term = .ok found ∧ ∀ p, found = some p ↔ c.SearchedBy term p := by
  obtain ⟨hinteger, hboolean⟩ | ⟨htext, hinteger, hboolean⟩ | ⟨htext, hinteger, hboolean⟩ :=
    c.type_cases
  case inl =>
    refine ⟨some (.affix c.sought .anywhere term), ?_, fun p => ?_⟩
    · simp only [searchCondition?, sought, hinteger, hboolean]
      cases c.type.isText <;> rfl
    constructor
    · rintro ⟨⟩
      exact .text (by rw [holdsTexts, hinteger, hboolean]; rfl)
    · rintro (_ | hc | hc)
      · rfl
      · cases hinteger.symm.trans hc
      · cases hboolean.symm.trans hc
  case inr.inl =>
    have htexts : c.holdsTexts = false := by rw [holdsTexts, hinteger]; rfl
    obtain ⟨found, hfound, hspelled⟩ := searchedInteger?_of_readable fun hterm => h ⟨hinteger, hterm⟩
    rw [searchCondition?, if_neg (Bool.eq_false_iff.mp htext), if_pos hinteger, hfound]
    refine ⟨_, rfl, fun p => ?_⟩
    rw [Option.map_eq_some_iff]
    constructor
    · rintro ⟨n, hn, rfl⟩
      obtain ⟨m, hm, rfl⟩ := (hspelled n).mp hn
      exact .integer hinteger hm
    · rintro (hc | ⟨-, hm⟩ | hc)
      · cases htexts.symm.trans hc
      · exact ⟨_, (hspelled _).mpr ⟨_, hm, rfl⟩, rfl⟩
      · cases hboolean.symm.trans hc
  case inr.inr =>
    have htexts : c.holdsTexts = false := by rw [holdsTexts, hboolean, Bool.not_true, Bool.and_false]
    rw [searchCondition?, if_neg (Bool.eq_false_iff.mp htext), if_neg (Bool.eq_false_iff.mp hinteger),
      if_pos hboolean]
    refine ⟨_, rfl, fun p => ?_⟩
    rw [Option.map_eq_some_iff]
    constructor
    · rintro ⟨b, hb, rfl⟩
      exact .truth hboolean (searchedTruth?_eq_some_iff.mp hb)
    · rintro (hc | hc | ⟨-, hb⟩)
      · cases htexts.symm.trans hc
      · cases hinteger.symm.trans hc
      · exact ⟨_, searchedTruth?_eq_some_iff.mpr hb, rfl⟩

end

end Column

-- ---------------------------------------------------------------------------
-- Entities
-- ---------------------------------------------------------------------------

namespace Entity

/-- The columns that are searched. -/
def searchColumns (e : Entity) : List Column := e.searchFields.filterMap e.column?

/-- The term is unreadable, and integers are searched. -/
structure CannotSearch (e : Entity) (term : String) : Prop where
  integers   : ∃ c ∈ e.searchColumns, c.type.isInteger = true
  unreadable : IsUnreadableTerm term

section
variable {e : Entity} {term : String}

/-- Only an unreadable term fails. -/
theorem searchConditions_of_cannotSearch (h : e.CannotSearch term) :
    e.searchConditions term = .error .unreadable := by
  obtain ⟨⟨c, hc, hinteger⟩, hterm⟩ := h
  rw [searchConditions]
  cases hfound : (e.searchFields.filterMap e.column?).mapM
      fun c : Column => c.searchCondition? term with
  | error failure =>
    obtain ⟨c', hc', hfailure⟩ := exists_of_mapM_eq_error hfound
    rcases Bool.eq_false_or_eq_true c'.type.isInteger with hinteger' | hother
    · rw [Column.searchCondition?_of_unreadable hinteger' hterm] at hfailure
      rw [Except.error.inj hfailure]
      rfl
    · have hreadable : ¬(c'.type.isInteger = true ∧ IsUnreadableTerm term) := by
        rw [hother]
        exact fun h => Bool.noConfusion h.1
      obtain ⟨found, hok, -⟩ := Column.searchCondition?_of_readable hreadable
      cases hfailure.symm.trans hok
  | ok found =>
    obtain ⟨p, hp⟩ := exists_mapM_eq_ok.mp ⟨found, hfound⟩ c hc
    cases (Column.searchCondition?_of_unreadable hinteger hterm).symm.trans hp

/-- Every other term has the conditions of the columns. -/
theorem searchConditions_of_canSearch (h : ¬e.CannotSearch term) :
    ∃ ps, e.searchConditions term = .ok ps ∧
      ∀ p, p ∈ ps ↔ ∃ c ∈ e.searchColumns, c.SearchedBy term p := by
  have hreadable : ∀ c ∈ e.searchColumns, ∃ found, c.searchCondition? term = .ok found ∧
      ∀ p, found = some p ↔ c.SearchedBy term p := fun c hc =>
    Column.searchCondition?_of_readable fun hterm => h ⟨⟨c, hc, hterm.1⟩, hterm.2⟩
  obtain ⟨found, hfound⟩ := exists_forall₂ hreadable
  have hoks := mapM_eq_ok.mpr (hfound.imp fun _ _ h => h.1)
  refine ⟨found.filterMap id, map_eq_ok.mpr ⟨found, hoks, rfl⟩, fun p => ?_⟩
  rw [List.mem_filterMap]
  clear hreadable hoks
  generalize e.searchColumns = columns at hfound
  induction hfound with
  | nil => simp
  | @cons c found cs founds hc hcs ih =>
    rw [List.exists_mem_cons_iff, List.exists_mem_cons_iff, ih, id, hc.2]

end

/-- A search term breaks a query just if it is unreadable and integers are searched. Otherwise the
conditions are those of the columns, and an integer column is compared only with the number that the
term spells. -/
theorem searchConditions_total (e : Entity) (term : String) :
    e.CannotSearch term ∧ e.searchConditions term = .error .unreadable ∨
    ¬e.CannotSearch term ∧ ∃ ps, e.searchConditions term = .ok ps ∧
      (∀ p, p ∈ ps ↔ ∃ c ∈ e.searchColumns, c.SearchedBy term p) ∧
      ∀ x op b, .compare x op b ∈ ps → ∃ c ∈ e.searchColumns, c.type.isInteger = true ∧
        x = .column c ∧ op = .eq ∧ ∃ n, SpellsNumber term.toList n ∧ b.value = .int n := by
  by_cases h : e.CannotSearch term
  · exact .inl ⟨h, searchConditions_of_cannotSearch h⟩
  · obtain ⟨ps, hps, hmem⟩ := searchConditions_of_canSearch h
    refine .inr ⟨h, ps, hps, hmem, fun x op b hp => ?_⟩
    obtain ⟨c, hc, hsearched⟩ := (hmem _).mp hp
    cases hsearched with
    | integer hinteger hn => exact ⟨c, hc, hinteger, rfl, rfl, _, hn, rfl⟩

end Entity

/-- Rooms with a name and a floor, and whether they are free; all of this is searched. -/
def Entity.rooms : Entity where
  table            := "rooms"
  filterFields     := []
  sortFields       := []
  selectFields     := ["id", "name", "floor", "free"]
  includePaths     := []
  defaultSort      := none
  defaultSelection := none
  searchFields     := ["name", "floor", "free"]
  primaryKey       := "id"
  softDelete       := none
  types            := [("id", .integer), ("name", .string), ("floor", .integer), ("free", .boolean)]
  relations        := []

/-- A superscript cannot be searched for. Digits of another script can, and the floor is compared with
their number; so can a truth value. -/
theorem Entity.searchConditions_total_rooms :
    Entity.rooms.searchConditions "²" = .error .unreadable ∧
    (∃ ps, Entity.rooms.searchConditions "٤٢" = .ok ps ∧
      .compare (.column ⟨"rooms", "floor", .integer⟩) .eq ⟨.int 42, .integer⟩ ∈ ps) ∧
    ∃ ps, Entity.rooms.searchConditions "True" = .ok ps ∧
      .isTruth (.column ⟨"rooms", "free", .boolean⟩) false true ∈ ps := by
  have hfloor : ⟨"rooms", "floor", .integer⟩ ∈ Entity.rooms.searchColumns := by decide
  have hfree : ⟨"rooms", "free", .boolean⟩ ∈ Entity.rooms.searchColumns := by decide
  refine ⟨?_, ?_, ?_⟩
  · have hunreadable : IsUnreadableTerm "²" := ⟨by decide, by decide, .inl (by decide)⟩
    obtain ⟨-, hfails⟩ | ⟨hcan, -⟩ := Entity.searchConditions_total .rooms "²"
    · exact hfails
    · exact absurd ⟨⟨_, hfloor, rfl⟩, hunreadable⟩ hcan
  · have hreadable : ¬IsUnreadableTerm "٤٢" := fun h => absurd h.beyond (by decide)
    obtain ⟨hcannot, -⟩ | ⟨-, ps, hps, hmem, -⟩ := Entity.searchConditions_total .rooms "٤٢"
    · exact absurd hcannot.unreadable hreadable
    · have hspells : SpellsNumber "٤٢".toList 42 :=
        ⟨[4, 2], .cons (by decide) (.cons (by decide) .nil), nofun, by decide⟩
      exact ⟨ps, hps, (hmem _).mpr ⟨_, hfloor, .integer rfl hspells⟩⟩
  · have hreadable : ¬IsUnreadableTerm "True" := fun h => absurd h.digits (by decide)
    obtain ⟨hcannot, -⟩ | ⟨-, ps, hps, hmem, -⟩ := Entity.searchConditions_total .rooms "True"
    · exact absurd hcannot.unreadable hreadable
    · have hspells : SpellsTruth "True" true := searchedTruth?_eq_some_iff.mp (by decide +kernel)
      exact ⟨ps, hps, (hmem _).mpr ⟨_, hfree, .truth rfl hspells⟩⟩

end ListQuery
