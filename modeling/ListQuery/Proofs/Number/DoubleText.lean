import ListQuery.Number.Shortest
import ListQuery.Proofs.Number.IntegerText
import ListQuery.Proofs.Number.Rounding

/-!
# Doubles read back

The text of a double is read as the same double. The digits that are written are tried first, so
they are rounded to the number; when none of the grids has digits that are, the exact expansion is
written, which rounding does not change. The text of a finite number is a numeral with a point or a
power of ten, so it can be told from an integer:

* `shortest_reads_back` — the digits that are written, rounded;
* `Double.numeral`, `ofScientific_numeral` — the text as a numeral, and what it denotes;
* `readDouble_text` — every double is read back from its text.
-/

namespace ListQuery.Number

namespace Double

variable {m : Nat} {e : Int}

-- ---------------------------------------------------------------------------
-- Signs
-- ---------------------------------------------------------------------------

/-- The number with another sign. -/
def withSign (negative : Bool) : Double → Double
  | .nan            => .nan
  | .infinite _     => .infinite negative
  | .finite _ m e h => .finite negative m e h

/-- The sign is only put on the number. -/
theorem ofRatio_withSign (negative : Bool) (n d : Nat) :
    ofRatio negative n d = (ofRatio false n d).withSign negative := by
  rw [ofRatio, ofRatio]
  split
  · rfl
  · dsimp only
    split <;> split <;> rfl

theorem ofScientific_withSign (negative : Bool) (c : Nat) (k : Int) :
    ofScientific negative c k = (ofScientific false c k).withSign negative := by
  rw [ofScientific, ofScientific]
  split
  · rfl
  · split
    · rfl
    · split <;> exact ofRatio_withSign _ _ _

-- ---------------------------------------------------------------------------
-- The digits that are written
-- ---------------------------------------------------------------------------

/-- Digits that were tried are rounded to the number. -/
theorem readsBack_eq_some {k k' : Int} {c : Nat} (h : Canonical m e)
    (hr : readsBack m e k = some (c, k')) (negative : Bool) :
    ofScientific negative c k' = .finite negative m e h := by
  rw [readsBack] at hr
  obtain ⟨c', hfind, hpair⟩ := Option.map_eq_some_iff.mp hr
  obtain ⟨rfl, rfl⟩ := Prod.mk.inj hpair
  have hfits := List.find?_some hfind
  rw [ofScientific_withSign]
  split at hfits
  case h_1 s m' e' h' heq =>
    rw [Bool.and_eq_true, beq_iff_eq, beq_iff_eq] at hfits
    obtain ⟨rfl, rfl⟩ := hfits
    rw [heq]
    rfl
  case h_2 => exact Bool.noConfusion hfits

/-- The exact expansion of an integer. -/
theorem ofScientific_exact_integer (negative : Bool) (h : Canonical m e) (hm : m ≠ 0) (he : 0 ≤ e) :
    ofScientific negative (m * 2 ^ e.natAbs) 0 = .finite negative m e h := by
  have hbelow : m * 2 ^ e.natAbs < 10 ^ 310 := by
    have hpow : 2 ^ e.natAbs ≤ 2 ^ 971 := Nat.pow_le_pow_right (by decide) (by have := h.2.2.1; omega)
    calc m * 2 ^ e.natAbs ≤ m * 2 ^ 971 := Nat.mul_le_mul_left m hpow
      _ < 2 ^ 53 * 2 ^ 971 := Nat.mul_lt_mul_of_pos_right h.1 (Nat.pow_pos (by decide))
      _ < 10 ^ 310 := by decide +kernel
  have hcount : digitCount (m * 2 ^ e.natAbs) ≤ 310 := (length_natChars_le (by decide)).mpr hbelow
  have hne : m * 2 ^ e.natAbs ≠ 0 := Nat.mul_ne_zero hm (Nat.pow_pos (by decide)).ne'
  rw [ofScientific, if_neg (by omega), if_neg (by omega), if_pos le_rfl]
  refine ofRatio_exact negative one_pos hm h ?_
  have hexp : (2 : ℚ) ^ e = 2 ^ e.natAbs := by
    conv_lhs => rw [← Int.natAbs_of_nonneg he, zpow_natCast]
  rw [hexp, Nat.cast_one, div_one, Int.natAbs_zero]
  push_cast
  simp

/-- The exact expansion of a number with a fraction: its digits never stand beyond the bounds below
which a spelling counts as zero. -/
theorem ofScientific_exact_fraction (negative : Bool) (h : Canonical m e) (hm : m ≠ 0) (he : e < 0) :
    ofScientific negative (m * 5 ^ e.natAbs) e = .finite negative m e h := by
  obtain ⟨j, hj⟩ : ∃ j, j = e.natAbs := ⟨_, rfl⟩
  have hle : j ≤ 1074 := by
    have := h.2.1
    omega
  have hfive : 0 < 5 ^ j := Nat.pow_pos (by decide)
  have hten : 10 ^ j = 5 ^ j * 2 ^ j := by rw [← Nat.mul_pow]
  rw [← hj]
  have hne : m * 5 ^ j ≠ 0 := Nat.mul_ne_zero hm hfive.ne'
  have hbelow : m * 5 ^ j < 10 ^ (310 + j) := by
    calc m * 5 ^ j < 2 ^ 53 * 5 ^ j := Nat.mul_lt_mul_of_pos_right h.1 hfive
      _ ≤ 10 ^ 310 * 10 ^ j := Nat.mul_le_mul (by decide +kernel) (Nat.pow_le_pow_left (by decide) j)
      _ = 10 ^ (310 + j) := (Nat.pow_add 10 310 j).symm
  have hhigh : digitCount (m * 5 ^ j) ≤ 310 + j := (length_natChars_le (by omega)).mpr hbelow
  have hlow : j ≤ digitCount (m * 5 ^ j) + 330 := by
    by_contra hfew
    have hpow : 10 ^ digitCount (m * 5 ^ j) * 10 ^ 331 ≤ 10 ^ j := by
      rw [← Nat.pow_add]
      exact Nat.pow_le_pow_right (by decide) (by omega)
    have hmany : 5 ^ j * 10 ^ 331 < 5 ^ j * 2 ^ j := by
      rw [← hten]
      refine lt_of_lt_of_le ?_ hpow
      refine Nat.mul_lt_mul_of_pos_right ?_ (Nat.pow_pos (by decide))
      exact lt_of_le_of_lt (Nat.le_mul_of_pos_left _ (Nat.pos_of_ne_zero hm)) (lt_pow_digitCount _)
    have htwo : 10 ^ 331 < 2 ^ j := lt_of_mul_lt_mul_left hmany (Nat.zero_le _)
    have hmost : 2 ^ j ≤ 2 ^ 1074 := Nat.pow_le_pow_right (by decide) hle
    have hnum : 2 ^ 1074 < 10 ^ 331 := by decide +kernel
    omega
  rw [ofScientific, if_neg (by omega), if_neg (by omega), if_neg (by omega), ← hj]
  refine ofRatio_exact negative (Nat.pow_pos (by decide)) hm h ?_
  have hexp : (2 : ℚ) ^ e = (2 ^ j)⁻¹ := by
    conv_lhs => rw [show e = -(j : Int) by omega, zpow_neg, zpow_natCast]
  rw [hexp, hten]
  push_cast
  field_simp

theorem ofScientific_exactDecimal (negative : Bool) (h : Canonical m e) (hm : m ≠ 0) :
    ofScientific negative (exactDecimal m e).1 (exactDecimal m e).2 = .finite negative m e h := by
  rw [exactDecimal]
  split
  case isTrue he => exact ofScientific_exact_integer negative h hm he
  case isFalse he => exact ofScientific_exact_fraction negative h hm (not_le.mp he)

/-- The digits that are written are rounded to the number. -/
theorem shortest_reads_back (negative : Bool) (h : Canonical m e) (hm : m ≠ 0) :
    ofScientific negative (shortest m e).1 (shortest m e).2 = .finite negative m e h := by
  rw [shortest]
  cases hfound : (List.range 17).findSome? fun n =>
      readsBack m e (decimalPoint (magnitude m e).1 (magnitude m e).2 - (n + 1 : Nat)) with
  | none => exact ofScientific_exactDecimal negative h hm
  | some p =>
    obtain ⟨n, -, hn⟩ := List.exists_of_findSome?_eq_some hfound
    exact readsBack_eq_some h hn negative

theorem shortest_ne_zero (h : Canonical m e) (hm : m ≠ 0) : (shortest m e).1 ≠ 0 := by
  intro h0
  have hback := shortest_reads_back false h hm
  rw [h0, ofScientific, if_pos (Or.inl rfl), zero] at hback
  exact hm (Double.finite.inj hback).2.1.symm

-- ---------------------------------------------------------------------------
-- Zeros at the end
-- ---------------------------------------------------------------------------

theorem natChars_eq_significant (c : Nat) :
    natChars c = (significant c).1 ++ List.replicate (significant c).2 '0' := by
  have hsplit := List.takeWhile_append_dropWhile (p := fun d : Char => decide (d = '0'))
    (l := (natChars c).reverse)
  have hzeros : (natChars c).reverse.takeWhile (fun d : Char => decide (d = '0')) =
      List.replicate ((natChars c).reverse.takeWhile (fun d : Char => decide (d = '0'))).length
        '0' := by
    refine List.eq_replicate_iff.mpr ⟨rfl, fun d hd => ?_⟩
    simpa using List.all_eq_true.mp List.all_takeWhile d hd
  rw [significant]
  dsimp only
  rw [← List.reverse_replicate, ← hzeros, ← List.reverse_append, hsplit, List.reverse_reverse]

theorem digitsValue_significant (c : Nat) :
    digitsValue (significant c).1 * 10 ^ (significant c).2 = c := by
  rw [← digitsValue_append_zeros, ← natChars_eq_significant, digitsValue_natChars]

theorem areDigits_significant (c : Nat) : AreDigits (significant c).1 := by
  intro d hd
  have hmem : d ∈ natChars c := by
    rw [natChars_eq_significant]
    exact List.mem_append_left _ hd
  exact areDigits_natChars c d hmem

theorem significant_ne_nil {c : Nat} (hc : c ≠ 0) : (significant c).1 ≠ [] := by
  intro h
  have hvalue := digitsValue_significant c
  rw [h] at hvalue
  exact hc (hvalue.symm.trans (Nat.zero_mul _))

theorem significant_head {c : Nat} (hc : c ≠ 0) : (significant c).1.head? ≠ some '0' := by
  have hhead := natChars_head_ne_zero hc
  rw [natChars_eq_significant, List.head?_append_of_ne_nil _ (significant_ne_nil hc)] at hhead
  exact hhead

end Double

-- ---------------------------------------------------------------------------
-- Numerals with a point or a power
-- ---------------------------------------------------------------------------

namespace Numeral

/-- Numerals that are no integers by their form, with no zero before other digits. -/
structure IsFraction (n : Numeral) : Prop where
  head : n.whole = ['0'] ∨ n.whole.head? ≠ some '0'
  form : n.places ≠ [] ∨ n.power ≠ none

/-- The digits with the point after the first `point` of them: positional with at least one place
for a point that is near, scientific for one that is far away. -/
def ofPoint (digits : List Char) (point : Int) : Numeral :=
  if -4 < point ∧ point ≤ 16 then
    if (digits.length : Int) ≤ point then
      ⟨digits ++ List.replicate (point.natAbs - digits.length) '0', ['0'], none⟩
    else ofPositional digits point
  else ofScientific 'e' 2 digits (point - 1)

variable {ds : List Char} {point : Int}

theorem valid_ofPoint (hd : AreDigits ds) (hds : ds ≠ []) : (ofPoint ds point).Valid := by
  rw [ofPoint]
  split
  · split
    · refine ⟨areDigits_append hd (areDigits_replicate_zero _), ?_, areDigits_replicate_zero 1, ?_⟩
      · exact fun h => hds (List.append_eq_nil_iff.mp h).1
      · exact fun p hp => absurd hp (Option.not_mem_none p)
    · exact valid_ofPositional hd hds point
  · exact valid_ofScientific hd hds (Or.inl rfl) _ _

theorem isFraction_ofPoint (hds : ds ≠ []) (hhead : ds.head? ≠ some '0') :
    (ofPoint ds point).IsFraction := by
  obtain ⟨d, r, rfl⟩ := List.exists_cons_of_ne_nil hds
  rw [ofPoint]
  split
  · split
    · exact ⟨Or.inr hhead, Or.inl (List.cons_ne_nil _ _)⟩
    · rw [ofPositional]
      split
      · exact ⟨Or.inl rfl, Or.inl (List.append_ne_nil_of_right_ne_nil _ (List.cons_ne_nil _ _))⟩
      · obtain ⟨p, hp⟩ : ∃ p, point.natAbs = p + 1 := ⟨point.natAbs - 1, by omega⟩
        refine ⟨Or.inr ?_, Or.inl ?_⟩
        · rw [hp]
          exact hhead
        · rw [Ne, List.drop_eq_nil_iff]
          omega
  · exact ⟨Or.inr hhead, Or.inr (Option.some_ne_none _)⟩

/-- The digits mean the same wherever zeros had to be filled up. -/
theorem ofScientific_ofPoint (negative : Bool) (hds : ds ≠ []) :
    Double.ofScientific negative (ofPoint ds point).coefficient (ofPoint ds point).exponent =
      Double.ofScientific negative (digitsValue ds) (point - ds.length) := by
  rw [ofPoint]
  split
  · split
    case isTrue hle =>
      have hcoefficient : coefficient
          ⟨ds ++ List.replicate (point.natAbs - ds.length) '0', ['0'], none⟩ =
          digitsValue ds * 10 ^ (point.natAbs - ds.length + 1) := by
        rw [coefficient, List.append_assoc, ← List.replicate_succ', digitsValue_append_zeros]
      have hexponent : exponent
          ⟨ds ++ List.replicate (point.natAbs - ds.length) '0', ['0'], none⟩ =
          point - ds.length - (point.natAbs - ds.length + 1 : Nat) := by
        show (0 : Int) - (1 : Nat) = _
        omega
      rw [hcoefficient, hexponent, Double.ofScientific_shift]
    case isFalse hlt =>
      rw [coefficient_ofPositional (not_le.mp hlt), exponent_ofPositional (not_le.mp hlt)]
  · rw [coefficient_ofScientific, exponent_ofScientific hds]
    congr 1
    ring

end Numeral

namespace Double

variable {m : Nat} {e : Int}

/-- The numeral that spells a magnitude. -/
def numeral (m : Nat) (e : Int) : Numeral :=
  if m = 0 then ⟨['0'], ['0'], none⟩
  else
    let s := significant (shortest m e).1
    .ofPoint s.1 ((shortest m e).2 + s.2 + s.1.length)

theorem magnitudeChars_eq_chars (h : Canonical m e) : magnitudeChars m e = (numeral m e).chars := by
  rw [magnitudeChars, numeral]
  split
  · rfl
  case isFalse hm =>
    have hne := significant_ne_nil (shortest_ne_zero h hm)
    dsimp only
    generalize (significant (shortest m e).1).1 = ds at hne ⊢
    generalize (shortest m e).2 + ((significant (shortest m e).1).2 : Int) + ds.length = point
    rw [Numeral.ofPoint]
    split
    · split
      case isTrue hle =>
        have hpos : ¬ point ≤ 0 := by
          have := List.length_pos_iff.mpr hne
          omega
        rw [positional, if_neg hpos, if_pos hle]
        simp [Numeral.chars, Numeral.fractionChars, Numeral.powerChars]
      case isFalse hlt => exact Numeral.positional_eq_chars hne point
    · exact Numeral.scientific_eq_chars hne _ _ _

theorem valid_numeral (h : Canonical m e) : (numeral m e).Valid := by
  rw [numeral]
  split
  · exact ⟨areDigits_replicate_zero 1, List.cons_ne_nil _ _, areDigits_replicate_zero 1,
      fun p hp => absurd hp (Option.not_mem_none p)⟩
  case isFalse hm =>
    exact Numeral.valid_ofPoint (areDigits_significant _) (significant_ne_nil (shortest_ne_zero h hm))

theorem isFraction_numeral (h : Canonical m e) : (numeral m e).IsFraction := by
  rw [numeral]
  split
  · exact ⟨Or.inl rfl, Or.inl (List.cons_ne_nil _ _)⟩
  case isFalse hm =>
    have hc := shortest_ne_zero h hm
    exact Numeral.isFraction_ofPoint (significant_ne_nil hc) (significant_head hc)

/-- What is written denotes the number. -/
theorem ofScientific_numeral (negative : Bool) (h : Canonical m e) :
    ofScientific negative (numeral m e).coefficient (numeral m e).exponent =
      .finite negative m e h := by
  rw [numeral]
  split
  case isTrue hm =>
    subst hm
    have he : e = -1074 := by
      rcases h.2.2.2 with h0 | h0
      · exact absurd h0 (by decide)
      · exact h0
    subst he
    rfl
  case isFalse hm =>
    have hne := significant_ne_nil (shortest_ne_zero h hm)
    have hvalue := digitsValue_significant (shortest m e).1
    dsimp only
    rw [Numeral.ofScientific_ofPoint negative hne, add_sub_cancel_right,
      ← shortest_reads_back negative h hm, ← ofScientific_shift _ _ _ (significant _).2, hvalue,
      add_sub_cancel_right]

-- ---------------------------------------------------------------------------
-- Reading
-- ---------------------------------------------------------------------------

theorem readUnsigned_magnitudeChars (h : Canonical m e) :
    readUnsigned (magnitudeChars m e) =
      some ((numeral m e).coefficient, (numeral m e).exponent) := by
  rw [magnitudeChars_eq_chars h, Numeral.readUnsigned_chars (valid_numeral h)]

theorem isPlain_text (d : Double) : IsPlain d.text.toList := by
  cases d with
  | nan =>
    show ∀ c ∈ "nan".toList, c ∈ numberSigns
    exact List.all_iff_forall_prop.mp (by decide)
  | infinite negative => cases negative <;> exact List.all_iff_forall_prop.mp (by decide)
  | finite negative m e h =>
    rw [text, String.toList_ofList]
    refine isPlain_signed negative ?_
    rw [magnitudeChars_eq_chars h]
    exact isPlain_chars (valid_numeral h)

/-- Every double is read back from its text. -/
theorem readDouble_text (d : Double) : readDouble d.text = some d := by
  cases d with
  | nan => decide
  | infinite negative => cases negative <;> decide
  | finite negative m e h =>
    have hdigit : BeginsWithDigit (magnitudeChars m e) :=
      magnitudeChars_eq_chars h ▸ Numeral.beginsWithDigit (valid_numeral h)
    have hplain : IsPlain (signed negative (magnitudeChars m e)) := by
      have := isPlain_text (.finite negative m e h)
      rwa [text, String.toList_ofList] at this
    rw [readDouble, text, String.toList_ofList]
    show readDoubleChars (signed negative (magnitudeChars m e)) = _
    simp only [readDoubleChars, asciiDigits_of_isPlain hplain, trimNumber_of_isPlain hplain,
      dropUnderscores_of_isPlain hplain, Option.bind_eq_bind, Option.bind_some,
      takeSign_signed (takeSign_of_beginsWithDigit hdigit),
      spells_of_beginsWithDigit hdigit "inf" rfl,
      spells_of_beginsWithDigit hdigit "infinity" rfl,
      spells_of_beginsWithDigit hdigit "nan" rfl, readUnsigned_magnitudeChars h]
    exact congrArg some (ofScientific_numeral negative h)

end Double

end ListQuery.Number
