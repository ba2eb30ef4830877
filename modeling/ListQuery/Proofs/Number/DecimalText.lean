import Mathlib.Data.Bool.AllAny
import Mathlib.Tactic.IntervalCases
import ListQuery.Proofs.Number.Numeral

/-!
# Decimals read back

The text of a decimal number is read as the same number, coefficient and exponent included: `1.50`
is not `1.5`. The special values are read back as well. Texts of numbers hold none of the signs that
the readers drop or replace, which `IsPlain` says once for all of them:

* `trim_of_isPlain`, `asciiDigits_of_isPlain`, `isPlain_chars` — such texts, and that numerals are;
* `readDecimal_text` — every decimal within the bounds of the type is read back from its text.
-/

namespace ListQuery.Number

open ListQuery.Text

-- ---------------------------------------------------------------------------
-- Signs that are taken as they are
-- ---------------------------------------------------------------------------

/-- The signs that occur in texts of numbers. -/
def numberSigns : List Char := "0123456789+-.eEinfaytINs".toList

def IsPlain (cs : List Char) : Prop := ∀ c ∈ cs, c ∈ numberSigns

theorem isPlain_append {a b : List Char} (ha : IsPlain a) (hb : IsPlain b) : IsPlain (a ++ b) := by
  intro c hc
  rcases List.mem_append.mp hc with h | h
  · exact ha c h
  · exact hb c h

theorem isPlain_cons {c : Char} {cs : List Char} (hc : c ∈ numberSigns) (hs : IsPlain cs) :
    IsPlain (c :: cs) := by
  intro d hd
  rcases List.mem_cons.mp hd with rfl | h
  · exact hc
  · exact hs d h

theorem char_of_isAsciiDigit {c : Char} (h : isAsciiDigit c = true) :
    c ∈ ['0', '1', '2', '3', '4', '5', '6', '7', '8', '9'] := by
  rw [isAsciiDigit, decide_eq_true_eq] at h
  have h0 : '0'.toNat = 48 := rfl
  have h9 : '9'.toNat = 57 := rfl
  have hlow : 48 ≤ c.toNat := by omega
  have hhigh : c.toNat ≤ 57 := by omega
  rw [← Char.ofNat_toNat c]
  interval_cases c.toNat <;> decide

/-- What can be checked for one digit after the other holds of all of them. -/
theorem of_isAsciiDigit {P : Char → Prop} [DecidablePred P]
    (h : ['0', '1', '2', '3', '4', '5', '6', '7', '8', '9'].all (fun c => decide (P c)) = true)
    {c : Char} (hc : isAsciiDigit c = true) : P c :=
  of_decide_eq_true (List.all_eq_true.mp h c (char_of_isAsciiDigit hc))

theorem isPlain_of_areDigits {ds : List Char} (h : AreDigits ds) : IsPlain ds :=
  fun c hc => of_isAsciiDigit (P := (· ∈ numberSigns)) (by decide) (h c hc)

theorem isPlain_chars {n : Numeral} (hv : n.Valid) : IsPlain n.chars := by
  refine isPlain_append (isPlain_of_areDigits hv.whole) (isPlain_append ?_ ?_)
  · rw [Numeral.fractionChars]
    split
    · intro c hc
      cases hc
    · exact isPlain_cons (by decide) (isPlain_of_areDigits hv.places)
  · rw [Numeral.powerChars]
    cases hp : n.power with
    | none =>
      intro c hc
      cases hc
    | some p =>
      have hpv := hv.power p hp
      refine isPlain_cons ?_ (isPlain_cons ?_ (isPlain_of_areDigits hpv.digits))
      · rcases hpv.mark with h | h <;> rw [h] <;> decide
      · split <;> decide

theorem numberSigns_plain :
    ∀ c ∈ numberSigns, isBlank c = false ∧ c ≠ '_' ∧ c.toNat < 0x80 ∧
      (match digitValue? c with
        | some d => Char.ofNat ('0'.toNat + d)
        | none   => c) = c :=
  List.all_iff_forall_prop.mp (by decide)

theorem dropWhile_isBlank {cs : List Char} (h : ∀ c ∈ cs, isBlank c = false) :
    cs.dropWhile isBlank = cs := by
  cases cs with
  | nil => rfl
  | cons c cs =>
    rw [List.dropWhile_cons, h c List.mem_cons_self]
    rfl

/-- Without a blank there is nothing to trim. -/
theorem trimChars_eq_self {cs : List Char} (h : ∀ c ∈ cs, isBlank c = false) :
    trimChars cs = cs := by
  rw [trimChars, dropWhile_isBlank h,
    dropWhile_isBlank fun c hc => h c (List.mem_reverse.mp hc), List.reverse_reverse]

theorem trim_eq_self {s : String} (h : ∀ c ∈ s.toList, isBlank c = false) : trim s = s := by
  rw [trim, trimChars_eq_self h, String.ofList_toList]

/-- Blanks between signs that are none stay. -/
theorem trimChars_between {a b : List Char} (ha : a ≠ []) (hac : ∀ c ∈ a, isBlank c = false)
    (hb : b ≠ []) (hbc : ∀ c ∈ b, isBlank c = false) : trimChars (a ++ ' ' :: b) = a ++ ' ' :: b := by
  have hdrop : ∀ {cs : List Char} (rest : List Char), cs ≠ [] → (∀ c ∈ cs, isBlank c = false) →
      (cs ++ rest).dropWhile isBlank = cs ++ rest := by
    intro cs rest hne hcs
    obtain ⟨c, cs, rfl⟩ := List.exists_cons_of_ne_nil hne
    rw [List.cons_append, List.dropWhile_cons, hcs c List.mem_cons_self]
    rfl
  have hreverse : (a ++ ' ' :: b).reverse = b.reverse ++ ' ' :: a.reverse := by
    rw [List.reverse_append, List.reverse_cons, List.append_assoc, List.singleton_append]
  rw [trimChars, hdrop _ ha hac, hreverse,
    hdrop _ (List.reverse_ne_nil_iff.mpr hb) fun c hc => hbc c (List.mem_reverse.mp hc), ← hreverse,
    List.reverse_reverse]

theorem trim_of_isPlain {s : String} (h : IsPlain s.toList) : trim s = s :=
  trim_eq_self fun c hc => (numberSigns_plain c (h c hc)).1

theorem asciiDigits_of_isPlain {cs : List Char} (h : IsPlain cs) : asciiDigits cs = cs := by
  rw [asciiDigits]
  conv_rhs => rw [← List.map_id' cs]
  exact List.map_congr_left fun c hc => (numberSigns_plain c (h c hc)).2.2.2

/-- What the reader of decimals takes for the text is the text. -/
theorem cleaned_of_isPlain {cs : List Char} (h : IsPlain cs) :
    (asciiDigits (trimChars cs)).filter (· ≠ '_') = cs := by
  rw [trimChars_eq_self fun c hc => (numberSigns_plain c (h c hc)).1, asciiDigits_of_isPlain h,
    List.filter_eq_self]
  intro c hc
  rw [decide_eq_true_eq]
  exact (numberSigns_plain c (h c hc)).2.1

-- ---------------------------------------------------------------------------
-- Words
-- ---------------------------------------------------------------------------

/-- A text that begins with a digit. -/
def BeginsWithDigit (cs : List Char) : Prop := ∃ d r, cs = d :: r ∧ isAsciiDigit d = true

theorem Numeral.beginsWithDigit {n : Numeral} (hv : n.Valid) : BeginsWithDigit n.chars := by
  obtain ⟨d, r, hd⟩ := List.exists_cons_of_ne_nil hv.some
  refine ⟨d, r ++ (n.fractionChars ++ n.powerChars), ?_, hv.whole d (hd ▸ List.mem_cons_self)⟩
  rw [chars, hd, List.cons_append]

/-- A word does not begin with a digit. -/
theorem spells_of_beginsWithDigit {cs : List Char} (h : BeginsWithDigit cs) (word : String)
    (hw : word.toList.head?.any isAsciiDigit = false) : spells word cs = false := by
  obtain ⟨d, r, rfl, hd⟩ := h
  have hlower : asciiLower d = d :=
    of_isAsciiDigit (P := fun c => asciiLower c = c) (by decide) hd
  rw [spells, List.map_cons, hlower]
  cases hword : word.toList with
  | nil => rfl
  | cons w ws =>
    rw [hword, List.head?_cons, Option.any_some] at hw
    have hne : d ≠ w := fun e => by rw [e, hw] at hd; exact Bool.noConfusion hd
    rw [beq_eq_false_iff_ne]
    exact fun e => hne (List.cons.inj e).1

theorem BeginsWithDigit.take {cs : List Char} (h : BeginsWithDigit cs) (n : Nat) :
    BeginsWithDigit (cs.take (n + 1)) := by
  obtain ⟨d, r, rfl, hd⟩ := h
  exact ⟨d, r.take n, rfl, hd⟩

theorem takeSign_of_beginsWithDigit {cs : List Char} (h : BeginsWithDigit cs) :
    takeSign cs = (false, cs) := by
  obtain ⟨d, r, rfl, hd⟩ := h
  have hsigns : d ≠ '-' ∧ d ≠ '+' := by
    constructor
    · rintro rfl
      exact absurd hd (by decide)
    · rintro rfl
      exact absurd hd (by decide)
  rw [takeSign]
  · exact fun cs e => hsigns.1 (List.cons.inj e).1
  · exact fun cs e => hsigns.2 (List.cons.inj e).1

/-- A text with the sign that stands before it. -/
def signed (negative : Bool) (cs : List Char) : List Char := if negative then '-' :: cs else cs

theorem isPlain_signed (negative : Bool) {cs : List Char} (h : IsPlain cs) :
    IsPlain (signed negative cs) := by
  cases negative with
  | true => exact isPlain_cons (by decide) h
  | false => exact h

theorem takeSign_signed {negative : Bool} {cs : List Char} (h : takeSign cs = (false, cs)) :
    takeSign (signed negative cs) = (negative, cs) := by
  cases negative with
  | true => rfl
  | false => exact h

-- ---------------------------------------------------------------------------
-- Decimals
-- ---------------------------------------------------------------------------

namespace Decimal

/-- The bounds that every decimal number keeps. -/
def InRange : Decimal → Prop
  | .finite _ c e => inRange c e = true
  | _             => True

instance (d : Decimal) : Decidable d.InRange := by
  cases d <;> unfold InRange <;> infer_instance

/-- The numeral that spells coefficient and exponent. -/
def numeral (c : Nat) (e : Int) : Numeral :=
  let ds := natChars c
  if e = 0 then ⟨ds, [], none⟩
  else if e < 0 ∧ -6 ≤ adjusted c e then .ofPositional ds (ds.length + e)
  else .ofScientific 'E' 1 ds (adjusted c e)

theorem magnitudeChars_eq_chars (c : Nat) (e : Int) : magnitudeChars c e = (numeral c e).chars := by
  rw [magnitudeChars, numeral]
  split
  · simp [Numeral.chars, Numeral.fractionChars, Numeral.powerChars]
  · split
    · exact Numeral.positional_eq_chars (natChars_ne_nil c) _
    · exact Numeral.scientific_eq_chars (natChars_ne_nil c) _ _ _

theorem valid_numeral (c : Nat) (e : Int) : (numeral c e).Valid := by
  have hd := areDigits_natChars c
  have hne := natChars_ne_nil c
  rw [numeral]
  split
  · exact ⟨hd, hne, by simp [AreDigits], by simp⟩
  · split
    · exact Numeral.valid_ofPositional hd hne _
    · exact Numeral.valid_ofScientific hd hne (Or.inr rfl) _ _

theorem coefficient_numeral (c : Nat) (e : Int) : (numeral c e).coefficient = c := by
  rw [numeral]
  split
  · rw [Numeral.coefficient, List.append_nil, digitsValue_natChars]
  · split
    case isTrue h =>
      rw [Numeral.coefficient_ofPositional (by omega), digitsValue_natChars]
    case isFalse h => rw [Numeral.coefficient_ofScientific, digitsValue_natChars]

theorem exponent_numeral (c : Nat) (e : Int) : (numeral c e).exponent = e := by
  rw [numeral]
  split
  case isTrue h => exact h.symm
  case isFalse h =>
    split
    · rw [Numeral.exponent_ofPositional (by omega)]
      omega
    · rw [Numeral.exponent_ofScientific (natChars_ne_nil c), adjusted, digitCount]
      omega

theorem readUnsigned_magnitudeChars (c : Nat) (e : Int) :
    readUnsigned (magnitudeChars c e) = some (c, e) := by
  rw [magnitudeChars_eq_chars, Numeral.readUnsigned_chars (valid_numeral c e),
    coefficient_numeral, exponent_numeral]

theorem readDecimalChars_finite {negative : Bool} {c : Nat} {e : Int} (h : inRange c e = true) :
    readDecimalChars (signed negative (magnitudeChars c e)) = some (.finite negative c e) := by
  have hv := valid_numeral c e
  have hplain : IsPlain (magnitudeChars c e) := magnitudeChars_eq_chars c e ▸ isPlain_chars hv
  have hdigit : BeginsWithDigit (magnitudeChars c e) :=
    magnitudeChars_eq_chars c e ▸ Numeral.beginsWithDigit hv
  simp only [readDecimalChars, cleaned_of_isPlain (isPlain_signed negative hplain),
    takeSign_signed (takeSign_of_beginsWithDigit hdigit),
    spells_of_beginsWithDigit hdigit "inf" rfl,
    spells_of_beginsWithDigit hdigit "infinity" rfl,
    spells_of_beginsWithDigit (hdigit.take 2) "nan" rfl,
    spells_of_beginsWithDigit (hdigit.take 3) "snan" rfl,
    readUnsigned_magnitudeChars]
  exact if_pos h

/-- The diagnostic number as it is spelled; there is none for zero. -/
def payloadChars (n : Nat) : List Char := if n = 0 then [] else natChars n

theorem readPayload_payloadChars (n : Nat) : readPayload (payloadChars n) = some n := by
  rw [payloadChars]
  split
  case isTrue h =>
    subst h
    rfl
  case isFalse h =>
    rw [readPayload, areDigits_all (areDigits_natChars n), digitsValue_natChars]
    rfl

theorem isPlain_payloadChars (n : Nat) : IsPlain (payloadChars n) := by
  rw [payloadChars]
  split
  · intro c hc
    cases hc
  · exact isPlain_of_areDigits (areDigits_natChars n)

/-- The word for not-a-number. -/
def nanWord (signalling : Bool) : List Char := (if signalling then "sNaN" else "NaN").toList

theorem isPlain_nanWord (signalling : Bool) : IsPlain (nanWord signalling) := by
  cases signalling <;> exact List.all_iff_forall_prop.mp (by decide)

theorem readDecimalChars_nan (negative signalling : Bool) (payload : Nat) :
    readDecimalChars (signed negative (nanWord signalling ++ payloadChars payload)) =
      some (.nan negative signalling payload) := by
  have hword := isPlain_nanWord signalling
  have hsign : takeSign (nanWord signalling ++ payloadChars payload) =
      (false, nanWord signalling ++ payloadChars payload) := by
    cases signalling <;> rfl
  simp only [readDecimalChars,
    cleaned_of_isPlain (isPlain_signed negative (isPlain_append hword (isPlain_payloadChars payload))),
    takeSign_signed hsign]
  -- the first letter tells the word from those for an infinity
  cases signalling with
  | false =>
    have hinf : ∀ word ∈ ["inf", "infinity"],
        spells word (nanWord false ++ payloadChars payload) = false := by
      intro word hw
      rw [List.mem_cons, List.mem_singleton] at hw
      rcases hw with rfl | rfl <;> rfl
    rw [hinf "inf" (by decide), hinf "infinity" (by decide)]
    show (readPayload (payloadChars payload)).map (Decimal.nan negative false ·) = _
    rw [readPayload_payloadChars]
    rfl
  | true =>
    have hinf : ∀ word ∈ ["inf", "infinity"],
        spells word (nanWord true ++ payloadChars payload) = false := by
      intro word hw
      rw [List.mem_cons, List.mem_singleton] at hw
      rcases hw with rfl | rfl <;> rfl
    rw [hinf "inf" (by decide), hinf "infinity" (by decide)]
    show (readPayload (payloadChars payload)).map (Decimal.nan negative true ·) = _
    rw [readPayload_payloadChars]
    rfl

/-- The characters of the text, the sign apart. -/
def bodyChars : Decimal → List Char
  | .finite _ c e               => magnitudeChars c e
  | .infinite _                 => "Infinity".toList
  | .nan _ signalling payload   => nanWord signalling ++ payloadChars payload

def isNegative : Decimal → Bool
  | .finite negative _ _ => negative
  | .infinite negative   => negative
  | .nan negative _ _    => negative

theorem toList_payload (n : Nat) :
    (if n = 0 then "" else String.ofList (natChars n)).toList = payloadChars n := by
  rw [payloadChars]
  split
  · rfl
  · exact String.toList_ofList

theorem toList_text (d : Decimal) : d.text.toList = signed d.isNegative d.bodyChars := by
  cases d with
  | finite negative c e => exact String.toList_ofList
  | infinite negative => cases negative <;> rfl
  | nan negative signalling payload =>
    have htext : (nan negative signalling payload).text.toList =
        (if negative then "-" else "").toList ++ nanWord signalling ++ payloadChars payload := by
      rw [← toList_payload, nanWord, ← String.toList_append, ← String.toList_append]
      rfl
    rw [htext]
    cases negative with
    | true => rfl
    | false => rfl

theorem isPlain_text (d : Decimal) : IsPlain d.text.toList := by
  rw [toList_text]
  refine isPlain_signed _ ?_
  cases d with
  | finite negative c e =>
    show IsPlain (magnitudeChars c e)
    rw [magnitudeChars_eq_chars]
    exact isPlain_chars (valid_numeral c e)
  | infinite negative =>
    show ∀ c ∈ "Infinity".toList, c ∈ numberSigns
    exact List.all_iff_forall_prop.mp (by decide)
  | nan negative signalling payload =>
    exact isPlain_append (isPlain_nanWord signalling) (isPlain_payloadChars payload)

/-- A decimal is read back from its text, its spelling included. -/
theorem readDecimal_text {d : Decimal} (h : d.InRange) : readDecimal d.text = some d := by
  rw [readDecimal, toList_text]
  cases d with
  | finite negative c e => exact readDecimalChars_finite h
  | infinite negative => cases negative <;> decide
  | nan negative signalling payload => exact readDecimalChars_nan negative signalling payload

end Decimal

end ListQuery.Number
