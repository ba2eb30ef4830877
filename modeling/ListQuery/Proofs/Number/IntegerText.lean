import Mathlib.Data.List.Forall2
import Mathlib.Data.Nat.Digits.Defs
import Mathlib.Tactic.Ring
import ListQuery.Proofs.Number.DecimalText

/-!
# Integers read back

The text of an integer has none of the blanks and underscores that the reader of integers allows, so
an integer is read back from its text, as long as it has no more digits than are read.

* `trimNumber_eq_self`, `dropUnderscores_eq_some` — texts with nothing to drop, as those of numbers;
* `readInteger_intText` — integers;
* `digitCount_of_readInteger` — the longest integers that are read.
-/

namespace ListQuery.Number

/-- Without a blank there is nothing to trim. -/
theorem trimNumber_eq_self {cs : List Char} (h : ∀ c ∈ cs, isNumberBlank c = false) :
    trimNumber cs = cs := by
  have hdrop : ∀ ds : List Char, (∀ c ∈ ds, isNumberBlank c = false) →
      ds.dropWhile isNumberBlank = ds := by
    intro ds hds
    cases ds with
    | nil => rfl
    | cons c ds =>
      rw [List.dropWhile_cons, hds c List.mem_cons_self]
      rfl
  rw [trimNumber, hdrop cs h, hdrop _ fun c hc => h c (List.mem_reverse.mp hc),
    List.reverse_reverse]

/-- Without an underscore there is nothing to drop. -/
theorem dropUnderscores_eq_some {cs : List Char} (h : ∀ c ∈ cs, c ≠ '_') (afterDigit : Bool) :
    dropUnderscores afterDigit cs = some cs := by
  induction cs generalizing afterDigit with
  | nil => rfl
  | cons c cs ih =>
    rw [dropUnderscores, if_neg (h c List.mem_cons_self),
      ih fun d hd => h d (List.mem_cons_of_mem c hd)]
    rfl

theorem trimNumber_of_isPlain {cs : List Char} (h : IsPlain cs) : trimNumber cs = cs :=
  trimNumber_eq_self fun c hc => by
    rw [isNumberBlank, (numberSigns_plain c (h c hc)).1]
    rfl

theorem dropUnderscores_of_isPlain {cs : List Char} (h : IsPlain cs) (afterDigit : Bool) :
    dropUnderscores afterDigit cs = some cs :=
  dropUnderscores_eq_some (fun c hc => (numberSigns_plain c (h c hc)).2.1) afterDigit

theorem intChars_eq_signed (n : Int) :
    intChars n = signed (decide (n < 0)) (natChars n.natAbs) := by
  rw [intChars, signed]
  by_cases hn : n < 0 <;> simp [hn]

theorem beginsWithDigit_natChars (n : Nat) : BeginsWithDigit (natChars n) := by
  obtain ⟨d, r, hd⟩ := List.exists_cons_of_ne_nil (natChars_ne_nil n)
  exact ⟨d, r, hd, areDigits_natChars n d (hd ▸ List.mem_cons_self)⟩

theorem isPlain_intChars (n : Int) : IsPlain (intChars n) := by
  rw [intChars_eq_signed]
  exact isPlain_signed _ (isPlain_of_areDigits (areDigits_natChars _))

/-- An integer is read back from its text. -/
theorem readInteger_intText {n : Int} (h : digitCount n.natAbs ≤ maxIntegerDigits) :
    readInteger (intText n) = some n := by
  have hplain := isPlain_intChars n
  have hvalue : (if n < 0 then -(n.natAbs : Int) else n.natAbs) = n := by
    split <;> omega
  have hdigits : natChars n.natAbs ≠ [] ∧ (natChars n.natAbs).all isAsciiDigit = true ∧
      (natChars n.natAbs).length ≤ maxIntegerDigits :=
    ⟨natChars_ne_nil _, areDigits_all (areDigits_natChars _), h⟩
  rw [readInteger, intText, String.toList_ofList]
  simp only [readIntegerChars, asciiDigits_of_isPlain hplain, trimNumber_of_isPlain hplain,
    dropUnderscores_of_isPlain hplain, Option.bind_eq_bind, Option.bind_some]
  simp only [intChars_eq_signed, takeSign_signed (takeSign_of_beginsWithDigit
    (beginsWithDigit_natChars _)), digitsValue_natChars, decide_eq_true_eq]
  rw [if_pos hdigits, hvalue]

/-- An integer that was read has no more digits than are read. -/
theorem digitCount_of_readInteger {s : String} {n : Int} (h : readInteger s = some n) :
    digitCount n.natAbs ≤ maxIntegerDigits := by
  obtain ⟨cs, -, h⟩ := Option.bind_eq_some_iff.mp h
  generalize takeSign cs = signed at h
  obtain ⟨negative, ds⟩ := signed
  obtain ⟨⟨hne, hdigits, hlength⟩, h⟩ := Option.ite_none_right_eq_some.mp h
  have hvalue : n.natAbs = digitsValue ds := by
    obtain rfl := Option.some.inj h
    split
    · rw [Int.natAbs_neg, Int.natAbs_natCast]
    · rw [Int.natAbs_natCast]
  have hpos : 0 < ds.length := List.length_pos_iff.mpr hne
  rw [hvalue]
  calc digitCount (digitsValue ds)
      ≤ ds.length := (length_natChars_le hpos).mpr (digitsValue_lt (List.all_eq_true.mp hdigits))
    _ ≤ maxIntegerDigits := hlength

end ListQuery.Number

/-!
## Integers of digit signs

A text in which every sign looks like a digit spells an integer if all of them are decimal digits,
of whatever scripts. Among such signs there are neither blanks nor underscores nor signs of a number,
so that the reader of integers reads the number that they spell, as long as it has no more digits
than are read, and nothing else.

* `SpellsNumber` — the number that decimal digits spell;
* `readInteger_digitSigns_iff` — it is what is read;
* `readInteger_digitSigns_eq_none_iff` — the texts from which nothing is read.
-/

namespace ListQuery.Number

open ListQuery.Text

/-- The signs are decimal digits, and this is the number that they spell. -/
def SpellsNumber (cs : List Char) (n : Nat) : Prop :=
  ∃ ds, List.Forall₂ (fun c d => digitValue? c = some d) cs ds ∧ ds ≠ [] ∧
    n = Nat.ofDigits 10 ds.reverse

-- ---------------------------------------------------------------------------
-- Signs
-- ---------------------------------------------------------------------------

/-- A sign that a reader of integers neither drops nor takes for the sign of a number. -/
structure IsKept (c : Char) : Prop where
  noBlank      : isNumberBlank c = false
  noUnderscore : c ≠ '_'
  noMinus      : c ≠ '-'
  noPlus       : c ≠ '+'

theorem isKept_of_isAsciiDigit {c : Char} (h : isAsciiDigit c = true) : IsKept c := by
  obtain ⟨hblank, hunderscore, hminus, hplus⟩ := of_isAsciiDigit
    (P := fun c => isNumberBlank c = false ∧ c ≠ '_' ∧ c ≠ '-' ∧ c ≠ '+') (by decide) h
  exact ⟨hblank, hunderscore, hminus, hplus⟩

/-- The ranges of what only looks like a digit lie between those of blanks, and beyond the signs of
the narrowest alphabet. -/
theorem isKept_of_digitLike {c : Char} (h : inRanges digitLikeRanges c = true) : IsKept c := by
  obtain ⟨r, hr, hlow, hhigh⟩ := inRanges_iff.mp h
  have hapart : ∀ r ∈ digitLikeRanges, 0xA0 < r.1 ∧ r.2 < 0x1680 ∨ 0x1680 < r.1 ∧ r.2 < 0x2000 ∨
      0x205F < r.1 ∧ r.2 < 0x3000 ∨ 0x3000 < r.1 :=
    List.all_iff_forall_prop.mp (by decide)
  have hcode := hapart r hr
  have hblank : isBlank c = false := by
    simp only [isBlank, Bool.or_eq_false_iff, decide_eq_false_iff_not, beq_eq_false_iff_ne]
    omega
  have hother (w : Char) (hw : w.toNat < 0x80) : c ≠ w := by
    rintro rfl
    omega
  exact ⟨by rw [isNumberBlank, hblank, Bool.false_and], hother '_' (by decide),
    hother '-' (by decide), hother '+' (by decide)⟩

theorem takeSign_of_isKept {cs : List Char} (h : ∀ c ∈ cs, IsKept c) :
    takeSign cs = (false, cs) := by
  rw [takeSign]
  · rintro cs rfl
    exact (h '-' List.mem_cons_self).noMinus rfl
  · rintro cs rfl
    exact (h '+' List.mem_cons_self).noPlus rfl

-- ---------------------------------------------------------------------------
-- Digits of every script
-- ---------------------------------------------------------------------------

theorem isDecimal_of_isAsciiDigit {c : Char} (h : isAsciiDigit c = true) : isDecimal c = true :=
  of_isAsciiDigit (P := fun c => isDecimal c = true) (by decide) h

theorem digit_of_lt {d : Nat} (h : d < 10) :
    isAsciiDigit (Char.ofNat ('0'.toNat + d)) = true ∧
      (Char.ofNat ('0'.toNat + d)).toNat - '0'.toNat = d := by
  interval_cases d <;> decide

section
variable {c : Char} {cs : List Char} {ds : List Nat}

theorem asciiDigits_cons_some {d : Nat} (h : digitValue? c = some d) :
    asciiDigits (c :: cs) = Char.ofNat ('0'.toNat + d) :: asciiDigits cs := by
  simp only [asciiDigits, List.map_cons, h]

theorem asciiDigits_cons_none (h : digitValue? c = none) :
    asciiDigits (c :: cs) = c :: asciiDigits cs := by
  simp only [asciiDigits, List.map_cons, h]

/-- Digit signs are kept when they are read. -/
theorem isKept_asciiDigits (h : ∀ c ∈ cs, isDigitSign c = true) : ∀ a ∈ asciiDigits cs, IsKept a := by
  induction cs with
  | nil => exact List.forall_mem_nil _
  | cons c cs ih =>
    obtain ⟨hc, hcs⟩ := List.forall_mem_cons.mp h
    cases hvalue : digitValue? c with
    | some d =>
      rw [asciiDigits_cons_some hvalue, List.forall_mem_cons]
      exact ⟨isKept_of_isAsciiDigit (digit_of_lt (digitValue?_lt hvalue)).1, ih hcs⟩
    | none =>
      have hlike : inRanges digitLikeRanges c = true := by
        simpa [isDigitSign, isDecimal, hvalue] using hc
      rw [asciiDigits_cons_none hvalue, List.forall_mem_cons]
      exact ⟨isKept_of_digitLike hlike, ih hcs⟩

/-- What is read is digits only if all signs are decimal. -/
theorem all_isAsciiDigit_asciiDigits :
    (asciiDigits cs).all isAsciiDigit = cs.all isDecimal := by
  induction cs with
  | nil => rfl
  | cons c cs ih =>
    cases hvalue : digitValue? c with
    | some d =>
      have hc : isDecimal c = true := by rw [isDecimal, hvalue, Option.isSome_some]
      rw [asciiDigits_cons_some hvalue, List.all_cons, List.all_cons, ih, hc,
        (digit_of_lt (digitValue?_lt hvalue)).1]
    | none =>
      have hc : isDecimal c = false := by rw [isDecimal, hvalue, Option.isSome_none]
      have hdigit : isAsciiDigit c = false :=
        Bool.eq_false_iff.mpr fun h => by rw [isDecimal_of_isAsciiDigit h] at hc; cases hc
      rw [asciiDigits_cons_none hvalue, List.all_cons, List.all_cons, hc, hdigit]
      rfl

/-- Decimal digits have values, one each. -/
theorem all_isDecimal_iff_exists :
    cs.all isDecimal = true ↔ ∃ ds, List.Forall₂ (fun c d => digitValue? c = some d) cs ds := by
  induction cs with
  | nil => exact ⟨fun _ => ⟨[], .nil⟩, fun _ => rfl⟩
  | cons c cs ih =>
    rw [List.all_cons, Bool.and_eq_true, ih, isDecimal, Option.isSome_iff_exists]
    constructor
    · rintro ⟨⟨d, hd⟩, ds, hds⟩
      exact ⟨d :: ds, .cons hd hds⟩
    · rintro ⟨_, _ | ⟨hd, hds⟩⟩
      exact ⟨⟨_, hd⟩, _, hds⟩

/-- Their number is the one that stands in their values, the last one counting least. -/
theorem digitsValue_asciiDigits (h : List.Forall₂ (fun c d => digitValue? c = some d) cs ds) :
    digitsValue (asciiDigits cs) = Nat.ofDigits 10 ds.reverse := by
  induction h with
  | nil => rfl
  | @cons c d cs ds hd hds ih =>
    have hlength : (asciiDigits cs).length = ds.length := by
      rw [asciiDigits, List.length_map, hds.length_eq]
    have hdigit : digitsValue [Char.ofNat ('0'.toNat + d)] = d := by
      simpa [digitsValue] using (digit_of_lt (digitValue?_lt hd)).2
    calc digitsValue (asciiDigits (c :: cs))
        = digitsValue ([Char.ofNat ('0'.toNat + d)] ++ asciiDigits cs) := by
          rw [asciiDigits_cons_some hd, List.singleton_append]
      _ = d * 10 ^ ds.length + Nat.ofDigits 10 ds.reverse := by
          rw [digitsValue_append, hdigit, hlength, ih]
      _ = Nat.ofDigits 10 (d :: ds).reverse := by
          rw [List.reverse_cons, Nat.ofDigits_append, Nat.ofDigits_singleton, List.length_reverse]
          ring

end

-- ---------------------------------------------------------------------------
-- What is read
-- ---------------------------------------------------------------------------

section
variable {term : String} (hsigns : term.toList.all isDigitSign = true)

include hsigns

theorem readInteger_digitSigns :
    readInteger term =
      if term.toList ≠ [] ∧ term.toList.all isDecimal = true ∧
          term.toList.length ≤ maxIntegerDigits then
        some (digitsValue (asciiDigits term.toList) : Int)
      else none := by
  have hkept := isKept_asciiDigits (List.all_eq_true.mp hsigns)
  have hempty : asciiDigits term.toList ≠ [] ↔ term.toList ≠ [] := by
    rw [asciiDigits, ne_eq, List.map_eq_nil_iff]
  rw [readInteger, readIntegerChars, trimNumber_eq_self fun c hc => (hkept c hc).noBlank,
    dropUnderscores_eq_some (fun c hc => (hkept c hc).noUnderscore) false]
  simp only [Option.bind_eq_bind, Option.bind_some, takeSign_of_isKept hkept, hempty,
    all_isAsciiDigit_asciiDigits]
  simp [asciiDigits]

/-- From digit signs the number is read that they spell, if it is not too long. -/
theorem readInteger_digitSigns_iff {n : Int} :
    readInteger term = some n ↔
      term.toList.length ≤ maxIntegerDigits ∧ ∃ m, SpellsNumber term.toList m ∧ n = m := by
  rw [readInteger_digitSigns hsigns, Option.ite_none_right_eq_some]
  constructor
  · rintro ⟨⟨hne, hdecimal, hlength⟩, hn⟩
    obtain ⟨ds, hds⟩ := all_isDecimal_iff_exists.mp hdecimal
    have hsome : ds ≠ [] := by
      rintro rfl
      exact hne (List.forall₂_nil_right_iff.mp hds)
    rw [digitsValue_asciiDigits hds] at hn
    exact ⟨hlength, _, ⟨ds, hds, hsome, rfl⟩, (Option.some.inj hn).symm⟩
  · rintro ⟨hlength, _, ⟨ds, hds, hsome, rfl⟩, rfl⟩
    have hne : term.toList ≠ [] := by
      intro hnil
      rw [hnil] at hds
      exact hsome (List.forall₂_nil_left_iff.mp hds)
    rw [digitsValue_asciiDigits hds]
    exact ⟨⟨hne, all_isDecimal_iff_exists.mpr ⟨ds, hds⟩, hlength⟩, rfl⟩

/-- Nothing is read where some sign is no decimal digit, or where there are too many of them. -/
theorem readInteger_digitSigns_eq_none_iff (hne : term ≠ "") :
    readInteger term = none ↔
      term.toList.all isDecimal = false ∨ maxIntegerDigits < term.toList.length := by
  have hsome : term.toList ≠ [] := mt String.toList_eq_nil_iff.mp hne
  rw [readInteger_digitSigns hsigns, ite_eq_right_iff]
  simp only [reduceCtorEq, imp_false, hsome, ne_eq, not_false_eq_true, true_and, not_and_or,
    Bool.not_eq_true, not_le]

end

end ListQuery.Number
