import ListQuery.Proofs.Json.Text
import ListQuery.Proofs.Number.DoubleText

/-!
# Values in documents

A value that is no list and no map stands in a document as a word, a number or a text, and it is
read back up to the comma or bracket after it. Numbers that JSON does not know, dates and times come
back as their text: `jsonForm` is what is read for a value.

* `number_chars` — numerals;
* `spells_chars` — every such value that has a document.
-/

namespace ListQuery.Json

open ListQuery.Number

-- ---------------------------------------------------------------------------
-- What follows a value
-- ---------------------------------------------------------------------------

/-- A value ends with the characters, or at a comma or a closing bracket. -/
def EndsValue (rest : List Char) : Prop := ∀ c ∈ rest.head?, c = ',' ∨ c = ']' ∨ c = '\x7d'

theorem endsValue_nil : EndsValue [] := fun c hc => absurd hc (Option.not_mem_none c)

theorem endsValue_comma (r : List Char) : EndsValue (',' :: r) :=
  fun _ hc => Or.inl (Option.some.inj hc).symm

theorem endsValue_bracket (r : List Char) : EndsValue (']' :: r) :=
  fun _ hc => Or.inr (Or.inl (Option.some.inj hc).symm)

theorem endsValue_brace (r : List Char) : EndsValue ('\x7d' :: r) :=
  fun _ hc => Or.inr (Or.inr (Option.some.inj hc).symm)

theorem EndsValue.endsRun {rest : List Char} (h : EndsValue rest) : EndsRun rest := by
  intro c hc
  rcases h c hc with rfl | rfl | rfl <;> rfl

theorem EndsValue.head_ne {rest : List Char} (h : EndsValue rest) {c : Char}
    (hc : c ≠ ',' ∧ c ≠ ']' ∧ c ≠ '\x7d') : ∀ d ∈ rest.head?, d ≠ c := by
  rintro d hd rfl
  rcases h d hd with h' | h' | h'
  · exact hc.1 h'
  · exact hc.2.1 h'
  · exact hc.2.2 h'

/-- The characters are a value's text: they are read as the value, whatever ends it, when at least
`depth` more brackets may open. -/
structure Spells (depth : Nat) (cs : List Char) (v : Value) : Prop where
  begins : ∃ c r, cs = c :: r ∧ isJsonBlank c = false
  reads  : ∀ room fuel rest, depth ≤ room → cs.length < fuel → EndsValue rest →
    value room fuel (cs ++ rest) = .ok (v, rest)

theorem skipBlank_cons {c : Char} (hc : isJsonBlank c = false) (r : List Char) :
    skipBlank (c :: r) = c :: r := by
  rw [skipBlank, List.dropWhile_cons, hc]
  rfl

theorem skipBlank_of_begins {cs : List Char} (h : ∃ c r, cs = c :: r ∧ isJsonBlank c = false)
    (rest : List Char) : skipBlank (cs ++ rest) = cs ++ rest := by
  obtain ⟨c, r, rfl, hc⟩ := h
  exact skipBlank_cons hc (r ++ rest)

theorem skipBlank_of_endsValue {rest : List Char} (h : EndsValue rest) : skipBlank rest = rest := by
  cases rest with
  | nil => rfl
  | cons c r =>
    have hc : isJsonBlank c = false := by
      rcases h c rfl with rfl | rfl | rfl <;> rfl
    exact skipBlank_cons hc r

-- ---------------------------------------------------------------------------
-- Numbers
-- ---------------------------------------------------------------------------

/-- No zero stands before other digits. -/
def IsWhole (ds : List Char) : Prop := ds = ['0'] ∨ ds.head? ≠ some '0'

theorem isWhole_natChars (n : Nat) : IsWhole (natChars n) := by
  by_cases h : n = 0
  · subst h
    exact Or.inl rfl
  · exact Or.inr (natChars_head_ne_zero h)

theorem wholeDigits_append {ds rest : List Char} (hd : AreDigits ds) (hne : ds ≠ [])
    (hw : IsWhole ds) (hr : EndsRun rest) : wholeDigits (ds ++ rest) = (ds, rest) := by
  rcases hw with rfl | hhead
  · rfl
  · obtain ⟨d, r, rfl⟩ := List.exists_cons_of_ne_nil hne
    have hd0 : d ≠ '0' := fun h => hhead (congrArg some h)
    rw [wholeDigits]
    · rw [takeWhile_digits hd hr, dropWhile_digits hd hr]
    · exact fun r' h => hd0 (List.cons.inj h).1

variable {n : Numeral} {rest : List Char}

/-- What may stand after the digits and places of a numeral. -/
theorem powerChars_append_head (hv : n.Valid) (hr : EndsValue rest) :
    EndsRun (n.powerChars ++ rest) ∧ ∀ c ∈ (n.powerChars ++ rest).head?, c ≠ '.' := by
  rcases Numeral.powerChars_cases hv with h | ⟨c, r, h, hc⟩
  · rw [h, List.nil_append]
    exact ⟨hr.endsRun, hr.head_ne (by decide)⟩
  · rw [h]
    constructor
    · intro d hd
      obtain rfl := Option.some.inj hd
      rcases hc with rfl | rfl <;> rfl
    · intro d hd
      obtain rfl := Option.some.inj hd
      rcases hc with rfl | rfl <;> decide

theorem pointDigits_fractionChars (hv : n.Valid) (hr : EndsValue rest) :
    pointDigits (n.fractionChars ++ (n.powerChars ++ rest)) =
      (n.fractionChars, n.powerChars ++ rest) := by
  obtain ⟨hrun, hpoint⟩ := powerChars_append_head hv hr
  rw [Numeral.fractionChars]
  split
  case isTrue hp =>
    rw [List.nil_append, pointDigits]
    exact fun r h => hpoint '.' (by rw [h]; rfl) rfl
  case isFalse hp =>
    rw [List.cons_append, pointDigits, takeWhile_digits hv.places hrun,
      dropWhile_digits hv.places hrun, if_neg hp]

/-- A power with its sign. -/
theorem exponentDigits_signed {mark sign : Char} {ds : List Char} (hm : mark = 'e' ∨ mark = 'E')
    (hs : sign = '+' ∨ sign = '-') (hd : AreDigits ds) (hne : ds ≠ []) (hr : EndsRun rest) :
    exponentDigits (mark :: sign :: (ds ++ rest)) = (mark :: sign :: ds, rest) := by
  have hrun := takeWhile_digits hd hr
  have hrest := dropWhile_digits hd hr
  rcases hs with rfl | rfl
  · rw [exponentDigits, if_pos hm]
    simp only [hrun, hrest, if_neg hne]
    rfl
  · rw [exponentDigits, if_pos hm]
    simp only [hrun, hrest, if_neg hne]
    rfl

theorem exponentDigits_powerChars (hv : n.Valid) (hr : EndsValue rest) :
    exponentDigits (n.powerChars ++ rest) = (n.powerChars, rest) := by
  rw [Numeral.powerChars]
  cases hp : n.power with
  | none =>
    show exponentDigits rest = ([], rest)
    cases rest with
    | nil => rfl
    | cons c r =>
      have hc : ¬(c = 'e' ∨ c = 'E') := by
        rintro (rfl | rfl)
        · exact hr.head_ne (c := 'e') (by decide) 'e' rfl rfl
        · exact hr.head_ne (c := 'E') (by decide) 'E' rfl rfl
      exact if_neg hc
  | some p =>
    obtain ⟨hmark, hdigits, hsome⟩ := hv.power p hp
    show exponentDigits (p.chars ++ rest) = (p.chars, rest)
    refine exponentDigits_signed hmark ?_ hdigits hsome hr.endsRun
    split
    · exact Or.inr rfl
    · exact Or.inl rfl

/-- A numeral is read as an integer when it has neither point nor power, else as a double. -/
theorem number_chars (negative : Bool) (hv : n.Valid) (hw : IsWhole n.whole) (hr : EndsValue rest) :
    number negative (n.chars ++ rest) =
      if n.fractionChars = [] ∧ n.powerChars = [] then
        if maxIntegerDigits < n.whole.length then .error .unreadable
        else .ok (.int (if negative then -(digitsValue n.whole : Int) else digitsValue n.whole), rest)
      else .ok (.float (Double.ofScientific negative n.coefficient n.exponent), rest) := by
  have hrun : EndsRun (n.fractionChars ++ (n.powerChars ++ rest)) := by
    rw [Numeral.fractionChars]
    split
    · exact (powerChars_append_head hv hr).1
    · intro c hc
      obtain rfl := Option.some.inj hc
      rfl
  have hread := Numeral.readUnsigned_chars hv
  rw [Numeral.chars, ← List.append_assoc] at hread
  rw [Numeral.chars, List.append_assoc, List.append_assoc, number,
    wholeDigits_append hv.whole hv.some hw hrun]
  simp only [pointDigits_fractionChars hv hr, exponentDigits_powerChars hv hr, if_neg hv.some,
    hread]

-- ---------------------------------------------------------------------------
-- Words
-- ---------------------------------------------------------------------------

theorem afterWord?_of_ne {word : String} {c : Char} {cs : List Char}
    (h : word.toList.head? ≠ some c) (hne : word.toList ≠ []) :
    afterWord? word (c :: cs) = none := by
  rw [afterWord?]
  obtain ⟨w, ws, hw⟩ := List.exists_cons_of_ne_nil hne
  rw [hw, List.isPrefixOf_cons_cons]
  have : (w == c) = false := beq_eq_false_iff_ne.mpr fun heq => h (by rw [hw, heq]; rfl)
  rw [this]
  rfl

/-- Characters that begin with a digit are a number. -/
theorem scalar_of_beginsWithDigit {cs : List Char} (h : BeginsWithDigit cs) :
    scalar cs = number false cs := by
  obtain ⟨d, r, rfl, hd⟩ := h
  have hwords : ∀ word ∈ ["null", "true", "false", "NaN", "Infinity", "-Infinity"],
      word.toList.head?.any isAsciiDigit = false ∧ word.toList ≠ [] :=
    List.all_iff_forall_prop.mp (by decide)
  have hword : ∀ word ∈ ["null", "true", "false", "NaN", "Infinity", "-Infinity"],
      afterWord? word (d :: r) = none := by
    intro word hw
    refine afterWord?_of_ne (fun hfirst => ?_) (hwords word hw).2
    have hdigit := (hwords word hw).1
    rw [hfirst, Option.any_some, hd] at hdigit
    cases hdigit
  have hminus : d ≠ '-' := by
    rintro rfl
    exact absurd hd (by decide)
  rw [scalar, hword "null" (by decide), hword "true" (by decide), hword "false" (by decide),
    hword "NaN" (by decide), hword "Infinity" (by decide), hword "-Infinity" (by decide)]
  exact fun r' h => hminus (List.cons.inj h).1

/-- So are they after a minus sign. -/
theorem scalar_minus {cs : List Char} (h : BeginsWithDigit cs) :
    scalar ('-' :: cs) = number true cs := by
  obtain ⟨d, r, rfl, hd⟩ := h
  have hI : 'I' ≠ d := by
    rintro rfl
    exact absurd hd (by decide)
  have hlast : afterWord? "-Infinity" ('-' :: d :: r) = none := by
    have hprefix : "-Infinity".toList = '-' :: 'I' :: "nfinity".toList := rfl
    rw [afterWord?, hprefix, List.isPrefixOf_cons_cons, List.isPrefixOf_cons_cons,
      beq_eq_false_iff_ne.mpr hI]
    rfl
  rw [scalar, hlast]
  rfl

/-- Where no text, list or map begins, a word or a number stands. -/
theorem value_of_scalar {room fuel : Nat} {c : Char} {cs : List Char} (hq : c ≠ '"') (hl : c ≠ '[')
    (hm : c ≠ '\x7b') : value room (fuel + 1) (c :: cs) = scalar (c :: cs) := by
  rw [value]
  · exact fun r h => hq (List.cons.inj h).1
  · exact fun r h => hl (List.cons.inj h).1
  · exact fun r h => hm (List.cons.inj h).1

theorem digit_begins {cs : List Char} (h : BeginsWithDigit cs) :
    ∃ c r, cs = c :: r ∧ isJsonBlank c = false ∧ c ≠ '"' ∧ c ≠ '[' ∧ c ≠ '\x7b' := by
  obtain ⟨d, r, rfl, hd⟩ := h
  exact ⟨d, r, rfl, of_isAsciiDigit
    (P := fun c => isJsonBlank c = false ∧ c ≠ '"' ∧ c ≠ '[' ∧ c ≠ '\x7b') (by decide) hd⟩

/-- Characters that the reader of words and numbers takes. -/
theorem spells_of_scalar {c : Char} {cs : List Char} {v : Value} (hblank : isJsonBlank c = false)
    (hq : c ≠ '"') (hl : c ≠ '[') (hm : c ≠ '\x7b')
    (h : ∀ rest, EndsValue rest → scalar (c :: (cs ++ rest)) = .ok (v, rest)) :
    Spells 0 (c :: cs) v := by
  refine ⟨⟨c, cs, rfl, hblank⟩, fun room fuel rest _ hf hrest => ?_⟩
  obtain ⟨fuel, rfl⟩ : ∃ k, fuel = k + 1 := ⟨fuel - 1, by omega⟩
  exact (value_of_scalar hq hl hm).trans (h rest hrest)

/-- A numeral with its sign, read as a value. -/
theorem spells_signed (negative : Bool) {cs : List Char} {v : Value} (hd : BeginsWithDigit cs)
    (h : ∀ rest, EndsValue rest → number negative (cs ++ rest) = .ok (v, rest)) :
    Spells 0 (signed negative cs) v := by
  have happend : ∀ rest, BeginsWithDigit (cs ++ rest) := by
    intro rest
    obtain ⟨d, r, rfl, hd'⟩ := hd
    exact ⟨d, r ++ rest, rfl, hd'⟩
  cases negative with
  | false =>
    obtain ⟨c, r, rfl, hblank, hq, hl, hm⟩ := digit_begins hd
    exact spells_of_scalar hblank hq hl hm fun rest hrest =>
      (scalar_of_beginsWithDigit (happend rest)).trans (h rest hrest)
  | true =>
    exact spells_of_scalar (by decide) (by decide) (by decide) (by decide) fun rest hrest =>
      (scalar_minus (happend rest)).trans (h rest hrest)

-- ---------------------------------------------------------------------------
-- Values
-- ---------------------------------------------------------------------------

/-- Values that are no lists and no maps. -/
def IsScalar : Value → Prop
  | .list _ | .map _ => False
  | _                => True

/-- What is read of the document of a value: values that JSON does not know come back as texts. -/
def jsonForm : Value → Value
  | .decimal d   => .text d.text
  | .date d      => .text d.text
  | .time t      => .text t.text
  | .timestamp t => .text (t.textWith ' ')
  | v            => v

theorem spells_text (s : String) : Spells 0 (stringChars s) (.text s) := by
  refine ⟨⟨'"', s.toList.flatMap escapeChar ++ ['"'], rfl, rfl⟩, fun room fuel rest _ hf _ => ?_⟩
  obtain ⟨fuel, rfl⟩ : ∃ k, fuel = k + 1 := ⟨fuel - 1, by omega⟩
  obtain ⟨body, hbody, hread⟩ := stringBody_stringChars s rest
  rw [hbody, value, hread]
  show Except.ok (Value.text (String.ofList s.toList), rest) = _
  rw [String.ofList_toList]

theorem spells_int {n : Int} {cs : List Char} (h : integerChars n = .ok cs) :
    Spells 0 cs (.int n) := by
  rw [integerChars] at h
  split at h
  case isFalse => cases h
  case isTrue hcount =>
    obtain rfl := Except.ok.inj h
    have hv : (⟨natChars n.natAbs, [], none⟩ : Numeral).Valid :=
      ⟨areDigits_natChars _, natChars_ne_nil _, by simp [AreDigits], by simp⟩
    have hchars : (⟨natChars n.natAbs, [], none⟩ : Numeral).chars = natChars n.natAbs :=
      List.append_nil _
    rw [intChars_eq_signed]
    refine spells_signed _ (beginsWithDigit_natChars _) fun rest hrest => ?_
    have hnumber := number_chars (decide (n < 0)) hv (isWhole_natChars _) hrest
    rw [hchars] at hnumber
    have hlength : ¬maxIntegerDigits < (natChars n.natAbs).length := not_lt.mpr hcount
    rw [hnumber, if_pos ⟨rfl, rfl⟩, if_neg hlength, digitsValue_natChars]
    congr 3
    by_cases hn : n < 0
    · rw [if_pos (decide_eq_true hn)]
      omega
    · rw [if_neg (by simpa using hn)]
      omega

theorem spells_float (d : Double) : Spells 0 (doubleChars d) (.float d) := by
  cases d with
  | nan =>
    exact spells_of_scalar (by decide) (by decide) (by decide) (by decide) fun _ _ => rfl
  | infinite negative =>
    cases negative with
    | false =>
      exact spells_of_scalar (by decide) (by decide) (by decide) (by decide) fun _ _ => rfl
    | true =>
      exact spells_of_scalar (by decide) (by decide) (by decide) (by decide) fun _ _ => rfl
  | finite negative m e h =>
    have hv := Double.valid_numeral h
    have hfraction := Double.isFraction_numeral h
    have hchars : doubleChars (.finite negative m e h) =
        signed negative (Double.numeral m e).chars := by
      show (Double.finite negative m e h).text.toList = _
      rw [Double.text, String.toList_ofList, Double.magnitudeChars_eq_chars h]
      rfl
    rw [hchars]
    refine spells_signed negative (Numeral.beginsWithDigit hv) fun rest hrest => ?_
    have hform : ¬((Double.numeral m e).fractionChars = [] ∧ (Double.numeral m e).powerChars = []) := by
      rintro ⟨hplaces, hpower⟩
      rcases hfraction.form with hf | hf
      · rw [Numeral.fractionChars, if_neg hf] at hplaces
        exact List.cons_ne_nil _ _ hplaces
      · obtain ⟨p, hp⟩ := Option.ne_none_iff_exists'.mp hf
        rw [Numeral.powerChars, hp] at hpower
        exact List.cons_ne_nil _ _ hpower
    rw [number_chars negative hv hfraction.head hrest, if_neg hform,
      Double.ofScientific_numeral negative h]

/-- Every value that is no list and no map is read back from its document, if it has one. -/
theorem spells_chars {v : Value} {cs : List Char} (hv : IsScalar v) (h : chars v = .ok cs) :
    Spells 0 cs (jsonForm v) := by
  cases v with
  | list vs => exact absurd hv id
  | map es => exact absurd hv id
  | int n =>
    rw [chars] at h
    exact spells_int h
  | null =>
    rw [chars] at h
    obtain rfl := Except.ok.inj h
    exact spells_of_scalar (by decide) (by decide) (by decide) (by decide) fun _ _ => rfl
  | bool b =>
    rw [chars] at h
    obtain rfl := Except.ok.inj h
    cases b with
    | true =>
      exact spells_of_scalar (by decide) (by decide) (by decide) (by decide) fun _ _ => rfl
    | false =>
      exact spells_of_scalar (by decide) (by decide) (by decide) (by decide) fun _ _ => rfl
  | float d =>
    rw [chars] at h
    obtain rfl := Except.ok.inj h
    exact spells_float d
  | text s =>
    rw [chars] at h
    obtain rfl := Except.ok.inj h
    exact spells_text s
  | decimal d | date d | time d | timestamp d =>
    simp only [chars] at h
    obtain rfl := Except.ok.inj h
    exact spells_text _

end ListQuery.Json
