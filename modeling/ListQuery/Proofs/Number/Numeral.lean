import ListQuery.Proofs.Number.Digits

/-!
# Numerals

Every finite number that the program writes is a *numeral*: whole digits, perhaps a point with
decimal places, perhaps a power of ten. The two shapes of `Number.Digits` are numerals, and a
numeral is read as its coefficient and exponent:

* `readUnsigned_chars` — reading gives back what the digits and the power spell;
* `positional_eq_chars`, `scientific_eq_chars` — the two shapes as numerals;
* `coefficient_ofPositional`, `exponent_ofPositional`, `coefficient_ofScientific`,
  `exponent_ofScientific` — what the two shapes spell.
-/

namespace ListQuery.Number

/-- A power of ten as it is spelled. -/
structure Power where
  mark     : Char
  negative : Bool
  digits   : List Char

namespace Power

def chars (p : Power) : List Char := p.mark :: (if p.negative then '-' else '+') :: p.digits

def value (p : Power) : Int :=
  if p.negative then -(digitsValue p.digits : Int) else digitsValue p.digits

structure Valid (p : Power) : Prop where
  mark   : p.mark = 'e' ∨ p.mark = 'E'
  digits : AreDigits p.digits
  some   : p.digits ≠ []

theorem takeSign_tail (p : Power) (rest : List Char) :
    takeSign ((if p.negative then '-' else '+') :: p.digits ++ rest) =
      (p.negative, p.digits ++ rest) := by
  cases p.negative <;> rfl

theorem readExponent_chars {p : Power} (hv : p.Valid) : readExponent p.chars = some p.value := by
  have hsign := p.takeSign_tail []
  rw [List.append_nil, List.append_nil] at hsign
  rw [chars, readExponent, hsign]
  exact if_pos ⟨hv.mark, hv.some, areDigits_all hv.digits⟩

end Power

/-- Whole digits, decimal places and a power of ten. -/
structure Numeral where
  whole  : List Char
  places : List Char := []
  power  : Option Power := none

namespace Numeral

variable {n : Numeral}

def fractionChars (n : Numeral) : List Char := if n.places = [] then [] else '.' :: n.places

def powerChars (n : Numeral) : List Char := (n.power.map Power.chars).getD []

def chars (n : Numeral) : List Char := n.whole ++ (n.fractionChars ++ n.powerChars)

def coefficient (n : Numeral) : Nat := digitsValue (n.whole ++ n.places)

def exponent (n : Numeral) : Int := (n.power.map Power.value).getD 0 - n.places.length

structure Valid (n : Numeral) : Prop where
  whole  : AreDigits n.whole
  some   : n.whole ≠ []
  places : AreDigits n.places
  power  : ∀ p ∈ n.power, p.Valid

-- ---------------------------------------------------------------------------
-- Reading
-- ---------------------------------------------------------------------------

/-- A power begins with its mark, so neither a digit nor a point comes first. -/
theorem powerChars_cases (hv : n.Valid) :
    n.powerChars = [] ∨ ∃ c r, n.powerChars = c :: r ∧ (c = 'e' ∨ c = 'E') := by
  rw [powerChars]
  cases hp : n.power with
  | none => exact Or.inl rfl
  | some p => exact Or.inr ⟨p.mark, _, rfl, (hv.power p hp).mark⟩

theorem endsRun_powerChars (hv : n.Valid) : EndsRun n.powerChars := by
  rcases powerChars_cases hv with h | ⟨c, r, h, hc⟩
  · rw [h]
    intro c hc
    cases hc
  · rw [h]
    intro d hd
    rw [List.head?_cons, Option.mem_some_iff] at hd
    subst hd
    rcases hc with rfl | rfl <;> rfl

theorem endsRun_fraction (hv : n.Valid) : EndsRun (n.fractionChars ++ n.powerChars) := by
  rw [fractionChars]
  split
  · exact endsRun_powerChars hv
  · intro c hc
    rw [List.cons_append, List.head?_cons, Option.mem_some_iff] at hc
    rw [← hc]
    rfl

theorem readExponent_powerChars (hv : n.Valid) :
    readExponent n.powerChars = some ((n.power.map Power.value).getD 0) := by
  rw [powerChars]
  cases hp : n.power with
  | none => rfl
  | some p => exact Power.readExponent_chars (hv.power p hp)

/-- The places after a point, if one comes first, and what follows them. -/
def afterPoint (cs : List Char) : List Char × List Char :=
  match cs with
  | '.' :: r => (r.takeWhile isAsciiDigit, r.dropWhile isAsciiDigit)
  | r        => ([], r)

theorem readUnsigned_eq (cs : List Char) :
    readUnsigned cs =
      if cs.takeWhile isAsciiDigit ++ (afterPoint (cs.dropWhile isAsciiDigit)).1 = [] then none
      else (readExponent (afterPoint (cs.dropWhile isAsciiDigit)).2).map fun k : Int =>
        (digitsValue (cs.takeWhile isAsciiDigit ++ (afterPoint (cs.dropWhile isAsciiDigit)).1),
          k - (afterPoint (cs.dropWhile isAsciiDigit)).1.length) :=
  rfl

theorem afterPoint_chars (hv : n.Valid) :
    afterPoint (n.fractionChars ++ n.powerChars) = (n.places, n.powerChars) := by
  by_cases hp : n.places = []
  · -- without places the rest is the power, which does not begin with a point
    rw [fractionChars, if_pos hp, List.nil_append, hp]
    rcases powerChars_cases hv with h | ⟨c, r, h, hc⟩
    · rw [h]
      rfl
    · rw [h]
      rcases hc with rfl | rfl <;> rfl
  · rw [fractionChars, if_neg hp]
    show ((n.places ++ n.powerChars).takeWhile isAsciiDigit,
      (n.places ++ n.powerChars).dropWhile isAsciiDigit) = _
    rw [takeWhile_digits hv.places (endsRun_powerChars hv),
      dropWhile_digits hv.places (endsRun_powerChars hv)]

/-- A numeral is read as what it spells. -/
theorem readUnsigned_chars (hv : n.Valid) :
    readUnsigned n.chars = some (n.coefficient, n.exponent) := by
  have hne : n.whole ++ n.places ≠ [] := fun h => hv.some (List.append_eq_nil_iff.mp h).1
  rw [readUnsigned_eq, chars, takeWhile_digits hv.whole (endsRun_fraction hv),
    dropWhile_digits hv.whole (endsRun_fraction hv), afterPoint_chars hv, if_neg hne,
    readExponent_powerChars hv]
  rfl

-- ---------------------------------------------------------------------------
-- Positional numerals
-- ---------------------------------------------------------------------------

def ofPositional (digits : List Char) (point : Int) : Numeral :=
  if point ≤ 0 then ⟨['0'], List.replicate point.natAbs '0' ++ digits, none⟩
  else if (digits.length : Int) ≤ point then
    ⟨digits ++ List.replicate (point.natAbs - digits.length) '0', [], none⟩
  else ⟨digits.take point.natAbs, digits.drop point.natAbs, none⟩

theorem positional_eq_chars {ds : List Char} (hds : ds ≠ []) (point : Int) :
    positional ds point = (ofPositional ds point).chars := by
  rw [positional, ofPositional]
  split
  · have hne : List.replicate point.natAbs '0' ++ ds ≠ [] := fun h =>
      hds (List.append_eq_nil_iff.mp h).2
    simp only [chars, fractionChars, powerChars, if_neg hne, Option.map_none, Option.getD_none,
      List.append_nil, List.singleton_append]
  · split
    · simp [chars, fractionChars, powerChars]
    · have hne : ds.drop point.natAbs ≠ [] := by
        rw [Ne, List.drop_eq_nil_iff]
        omega
      simp only [chars, fractionChars, powerChars, if_neg hne, Option.map_none, Option.getD_none,
        List.append_nil]

theorem valid_ofPositional {ds : List Char} (hd : AreDigits ds) (hds : ds ≠ []) (point : Int) :
    (ofPositional ds point).Valid := by
  have hzero : AreDigits ['0'] := areDigits_replicate_zero 1
  rw [ofPositional]
  split
  · exact ⟨hzero, by simp, areDigits_append (areDigits_replicate_zero _) hd, by simp⟩
  · split
    · exact ⟨areDigits_append hd (areDigits_replicate_zero _), by simp [hds], by simp [AreDigits],
        by simp⟩
    · refine ⟨fun c hc => hd c (List.mem_of_mem_take hc), ?_,
        fun c hc => hd c (List.mem_of_mem_drop hc), by simp⟩
      rw [Ne, List.take_eq_nil_iff]
      rintro (h | h)
      · omega
      · exact hds h

/-- With places after the point no zero is filled up on the right. -/
theorem coefficient_ofPositional {ds : List Char} {point : Int} (h : point < ds.length) :
    (ofPositional ds point).coefficient = digitsValue ds := by
  rw [ofPositional]
  split
  · exact digitsValue_zeros_append (point.natAbs + 1) ds
  · rw [if_neg (by omega)]
    show digitsValue (ds.take point.natAbs ++ ds.drop point.natAbs) = digitsValue ds
    rw [List.take_append_drop]

theorem exponent_ofPositional {ds : List Char} {point : Int} (h : point < ds.length) :
    (ofPositional ds point).exponent = point - ds.length := by
  rw [ofPositional]
  split
  · show (0 : Int) - ((List.replicate point.natAbs '0' ++ ds).length : Int) = _
    rw [List.length_append, List.length_replicate]
    omega
  · rw [if_neg (by omega)]
    show (0 : Int) - ((ds.drop point.natAbs).length : Int) = _
    rw [List.length_drop]
    omega

-- ---------------------------------------------------------------------------
-- Scientific numerals
-- ---------------------------------------------------------------------------

def ofScientific (mark : Char) (width : Nat) (digits : List Char) (exponent : Int) : Numeral :=
  { whole  := digits.take 1
    places := digits.drop 1
    power  := some ⟨mark, decide (exponent < 0), padded width exponent.natAbs⟩ }

theorem scientific_eq_chars {ds : List Char} (hds : ds ≠ []) (mark : Char) (width : Nat)
    (exponent : Int) :
    scientific mark width ds exponent = (ofScientific mark width ds exponent).chars := by
  have hpower : (ofScientific mark width ds exponent).powerChars =
      mark :: (if exponent < 0 then '-' else '+') :: padded width exponent.natAbs := by
    by_cases h : exponent < 0 <;> simp [ofScientific, powerChars, Power.chars, h]
  rw [chars, hpower]
  match ds with
  | []           => exact absurd rfl hds
  | [d]          => rfl
  | d :: d' :: r => rfl

theorem valid_ofScientific {ds : List Char} (hd : AreDigits ds) (hds : ds ≠ []) {mark : Char}
    (hm : mark = 'e' ∨ mark = 'E') (width : Nat) (exponent : Int) :
    (ofScientific mark width ds exponent).Valid where
  whole c hc := hd c (List.mem_of_mem_take hc)
  some h := by
    rcases List.take_eq_nil_iff.mp h with h | h
    · exact absurd h one_ne_zero
    · exact hds h
  places c hc := hd c (List.mem_of_mem_drop hc)
  power p hp := by
    obtain rfl := Option.some.inj hp
    exact ⟨hm, areDigits_padded _ _, padded_ne_nil _ _⟩

theorem coefficient_ofScientific (ds : List Char) (mark : Char) (width : Nat) (exponent : Int) :
    (ofScientific mark width ds exponent).coefficient = digitsValue ds := by
  show digitsValue (ds.take 1 ++ ds.drop 1) = digitsValue ds
  rw [List.take_append_drop]

theorem exponent_ofScientific {ds : List Char} (hds : ds ≠ []) (mark : Char) (width : Nat)
    (exponent : Int) :
    (ofScientific mark width ds exponent).exponent = exponent - (ds.length - 1) := by
  have hpos : 0 < ds.length := List.length_pos_iff.mpr hds
  have hpower : Power.value ⟨mark, decide (exponent < 0), padded width exponent.natAbs⟩ =
      exponent := by
    rw [Power.value, digitsValue_padded]
    by_cases h : exponent < 0
    · rw [if_pos (by simpa using h)]
      omega
    · rw [if_neg (by simpa using h)]
      omega
  show Power.value _ - ((ds.drop 1).length : Int) = _
  rw [hpower, List.length_drop]
  omega

end Numeral

end ListQuery.Number
