import Mathlib.Algebra.Order.Field.Power
import Mathlib.Data.Nat.Log
import Mathlib.Data.Rat.Cast.Order
import Mathlib.Tactic.FieldSimp
import Mathlib.Tactic.Linarith
import Mathlib.Tactic.Positivity
import ListQuery.Number.Double
import ListQuery.Proofs.Number.Digits

/-!
# Rounding to a double

What rounding depends on is the quotient alone. The exponent under which a quotient is rounded is
the only one that gives its integer part 53 bits or is the least one, so two ways to write a
quotient, or a decimal number, are rounded alike, and a number that a double holds is that double:

* `IsExponent.unique`, `isExponent_exponentOf` — the exponent of a quotient;
* `ofRatio_scale` — rounding in other units;
* `ofRatio_exact` — what a double holds is not changed;
* `ofRatio_value`, `nearest_near` — what a quotient is rounded to, and how far off that is;
* `ofScientific_shift` — zeros at the end of a coefficient do not count.
-/

namespace ListQuery.Number.Double

-- ---------------------------------------------------------------------------
-- The exponent of a quotient
-- ---------------------------------------------------------------------------

/-- The exponent under which the integer part of a quotient has 53 bits, or the least one. -/
structure IsExponent (x : ℚ) (e : Int) : Prop where
  least : -1074 ≤ e
  below : x < 2 ^ 53 * (2 : ℚ) ^ e
  full  : 2 ^ 52 * (2 : ℚ) ^ e ≤ x ∨ e = -1074

theorem two_zpow_pos (e : Int) : 0 < (2 : ℚ) ^ e := zpow_pos (by norm_num) e

theorem two_pow_mul_zpow (k : Nat) (e : Int) :
    (2 : ℚ) ^ k * (2 : ℚ) ^ e = (2 : ℚ) ^ (k + e) := by
  rw [zpow_add₀ (by norm_num), zpow_natCast]

theorem IsExponent.not_below {x : ℚ} {e e' : Int} (h : IsExponent x e) (h' : IsExponent x e') :
    ¬ e < e' := by
  intro hlt
  rcases h'.full with hfull | hleast
  · have hbelow := h.below
    rw [two_pow_mul_zpow] at hbelow hfull
    have hle : (2 : ℚ) ^ ((53 : Nat) + e) ≤ (2 : ℚ) ^ ((52 : Nat) + e') :=
      zpow_le_zpow_right₀ (by norm_num) (by push_cast; omega)
    exact absurd (lt_of_lt_of_le hbelow hle) (not_lt.mpr hfull)
  · have := h.least
    omega

theorem IsExponent.unique {x : ℚ} {e e' : Int} (h : IsExponent x e) (h' : IsExponent x e') :
    e = e' :=
  le_antisymm (not_lt.mp (h'.not_below h)) (not_lt.mp (h.not_below h'))

theorem scaled_snd_pos {d : Nat} (hd : 0 < d) (n : Nat) (e : Int) : 0 < (scaled n d e).2 := by
  rw [scaled]
  split
  · exact Nat.mul_pos hd (Nat.pow_pos (by decide))
  · exact hd

theorem scaled_ratio {d : Nat} (hd : 0 < d) (n : Nat) (e : Int) :
    ((scaled n d e).1 : ℚ) / (scaled n d e).2 = (n : ℚ) / d / (2 : ℚ) ^ e := by
  have hd' : (d : ℚ) ≠ 0 := by exact_mod_cast hd.ne'
  have h2 : (2 : ℚ) ^ e.natAbs ≠ 0 := by positivity
  rw [scaled]
  split
  case isTrue h =>
    have he : (2 : ℚ) ^ e = 2 ^ e.natAbs := by
      conv_lhs => rw [← Int.natAbs_of_nonneg h, zpow_natCast]
    rw [he]
    simp only [Nat.pow_eq]
    push_cast
    field_simp
  case isFalse h =>
    have he : (2 : ℚ) ^ e = (2 ^ e.natAbs)⁻¹ := by
      conv_lhs => rw [show e = -(e.natAbs : Int) by omega, zpow_neg, zpow_natCast]
    rw [he]
    simp only [Nat.pow_eq]
    push_cast
    field_simp

theorem le_div_scaled {d : Nat} (hd : 0 < d) (n k : Nat) (e : Int) :
    k ≤ (scaled n d e).1 / (scaled n d e).2 ↔ (k : ℚ) * (2 : ℚ) ^ e ≤ (n : ℚ) / d := by
  have hpos := scaled_snd_pos hd n e
  have hpos' : (0 : ℚ) < (scaled n d e).2 := by exact_mod_cast hpos
  rw [Nat.le_div_iff_mul_le hpos, ← le_div_iff₀ (two_zpow_pos e), ← scaled_ratio hd,
    le_div_iff₀ hpos']
  exact_mod_cast Iff.rfl

/-- The logarithms of the two numbers fix the quotient but for a factor of four. -/
theorem quotient_between {n d : Nat} (hn : n ≠ 0) (hd : 0 < d) :
    (2 : ℚ) ^ ((Nat.log2 n : Int) - Nat.log2 d - 1) ≤ (n : ℚ) / d ∧
      (n : ℚ) / d < (2 : ℚ) ^ ((Nat.log2 n : Int) - Nat.log2 d + 1) := by
  have hd' : (0 : ℚ) < d := by exact_mod_cast hd
  have hnlow : (2 : ℚ) ^ Nat.log2 n ≤ n := by exact_mod_cast Nat.log2_self_le hn
  have hnhigh : (n : ℚ) < 2 ^ (Nat.log2 n + 1) := by exact_mod_cast Nat.lt_log2_self
  have hdlow : (2 : ℚ) ^ Nat.log2 d ≤ d := by exact_mod_cast Nat.log2_self_le hd.ne'
  have hdhigh : (d : ℚ) < 2 ^ (Nat.log2 d + 1) := by exact_mod_cast Nat.lt_log2_self
  constructor
  · rw [le_div_iff₀ hd']
    calc (2 : ℚ) ^ ((Nat.log2 n : Int) - Nat.log2 d - 1) * d
        ≤ (2 : ℚ) ^ ((Nat.log2 n : Int) - Nat.log2 d - 1) * 2 ^ (Nat.log2 d + 1) :=
          mul_le_mul_of_nonneg_left hdhigh.le (two_zpow_pos _).le
      _ = (2 : ℚ) ^ Nat.log2 n := by
          rw [mul_comm, two_pow_mul_zpow, ← zpow_natCast]
          congr 1
          push_cast
          ring
      _ ≤ n := hnlow
  · rw [div_lt_iff₀ hd']
    calc (n : ℚ) < 2 ^ (Nat.log2 n + 1) := hnhigh
      _ = (2 : ℚ) ^ ((Nat.log2 n : Int) - Nat.log2 d + 1) * 2 ^ Nat.log2 d := by
          rw [mul_comm _ ((2 : ℚ) ^ Nat.log2 d), two_pow_mul_zpow, ← zpow_natCast]
          congr 1
          push_cast
          ring
      _ ≤ (2 : ℚ) ^ ((Nat.log2 n : Int) - Nat.log2 d + 1) * d :=
          mul_le_mul_of_nonneg_left hdlow (two_zpow_pos _).le

theorem isExponent_exponentOf {n d : Nat} (hn : n ≠ 0) (hd : 0 < d) :
    IsExponent ((n : ℚ) / d) (exponentOf n d) := by
  obtain ⟨hlow, hhigh⟩ := quotient_between hn hd
  rw [exponentOf]
  generalize he : max ((Nat.log2 n : Int) - Nat.log2 d - 53) (-1074) = e
  simp only [Nat.pow_eq]
  have hfloor := le_div_scaled hd n (2 ^ 53) e
  push_cast at hfloor
  split
  case isTrue hbig =>
    refine ⟨by omega, ?_, Or.inl ?_⟩
    · refine lt_of_lt_of_le hhigh ?_
      rw [two_pow_mul_zpow]
      exact zpow_le_zpow_right₀ (by norm_num) (by push_cast; omega)
    · calc (2 : ℚ) ^ 52 * 2 ^ (e + 1) = 2 ^ 53 * 2 ^ e := by
            rw [zpow_add_one₀ (by norm_num)]
            ring
        _ ≤ (n : ℚ) / d := hfloor.mp hbig
  case isFalse hsmall =>
    refine ⟨by omega, not_le.mp fun h => hsmall (hfloor.mpr h), ?_⟩
    by_cases hleast : e = -1074
    · exact Or.inr hleast
    · refine Or.inl ?_
      rw [two_pow_mul_zpow]
      exact le_trans (zpow_le_zpow_right₀ (by norm_num) (by push_cast; omega)) hlow

-- ---------------------------------------------------------------------------
-- The nearest mantissa
-- ---------------------------------------------------------------------------

theorem nearest_scale (n d : Nat) {t : Nat} (ht : 0 < t) :
    nearest (n * t) (d * t) = nearest n d := by
  have hlt : 2 * (n % d * t) < d * t ↔ 2 * (n % d) < d := by
    rw [← Nat.mul_assoc]
    exact Nat.mul_lt_mul_right ht
  have hgt : d * t < 2 * (n % d * t) ↔ d < 2 * (n % d) := by
    rw [← Nat.mul_assoc]
    exact Nat.mul_lt_mul_right ht
  simp only [nearest, Nat.mul_div_mul_right _ _ ht, Nat.mul_mod_mul_right, hlt, hgt]

theorem nearest_mul_self (m : Nat) {d : Nat} (hd : 0 < d) : nearest (m * d) d = m := by
  simp only [nearest, Nat.mul_div_cancel _ hd, Nat.mul_mod_left]
  exact if_pos hd

/-- The nearest integer is off by a half at most. -/
theorem nearest_error {d : Nat} (hd : 0 < d) (n : Nat) :
    2 * nearest n d * d ≤ 2 * n + d ∧ 2 * n ≤ 2 * nearest n d * d + d := by
  have hdiv := Nat.div_add_mod n d
  have hmod := Nat.mod_lt n hd
  simp only [nearest]
  have hq : 2 * (n / d) * d = 2 * (d * (n / d)) := by ring
  have hq1 : 2 * (n / d + 1) * d = 2 * (d * (n / d)) + 2 * d := by ring
  split
  · rw [hq]
    omega
  · split
    · rw [hq1]
      omega
    · rcases Nat.mod_two_eq_zero_or_one (n / d) with hev | hodd
      · rw [hev, Nat.add_zero, hq]
        omega
      · rw [hodd, hq1]
        omega

/-- Mantissa and exponent as a number; a mantissa that was rounded up to 54 bits is halved. -/
def pack (negative : Bool) (m : Nat) (e : Int) : Double :=
  let (m, e) := if m = Nat.pow 2 53 then (Nat.pow 2 52, e + 1) else (m, e)
  if h : Canonical m e then .finite negative m e h else .infinite negative

theorem ofRatio_of_isExponent (negative : Bool) {n d : Nat} (hn : n ≠ 0) (hd : 0 < d) {e : Int}
    (he : IsExponent ((n : ℚ) / d) e) :
    ofRatio negative n d = pack negative (nearest (scaled n d e).1 (scaled n d e).2) e := by
  rw [ofRatio, if_neg hn, (isExponent_exponentOf hn hd).unique he]
  rfl

-- ---------------------------------------------------------------------------
-- Rounding in other units
-- ---------------------------------------------------------------------------

theorem scaled_scale (n d t : Nat) (e : Int) :
    scaled (n * t) (d * t) e = ((scaled n d e).1 * t, (scaled n d e).2 * t) := by
  rw [scaled, scaled]
  split
  · exact Prod.ext rfl (Nat.mul_right_comm _ _ _)
  · exact Prod.ext (Nat.mul_right_comm _ _ _) rfl

theorem ofRatio_scale (negative : Bool) (n : Nat) {d t : Nat} (hd : 0 < d) (ht : 0 < t) :
    ofRatio negative (n * t) (d * t) = ofRatio negative n d := by
  by_cases hn : n = 0
  · rw [hn, Nat.zero_mul, ofRatio, ofRatio, if_pos rfl, if_pos rfl]
  have hquot : ((n * t : Nat) : ℚ) / (d * t : Nat) = (n : ℚ) / d := by
    have hd' : (d : ℚ) ≠ 0 := by exact_mod_cast hd.ne'
    have ht' : (t : ℚ) ≠ 0 := by exact_mod_cast ht.ne'
    push_cast
    field_simp
  have he := isExponent_exponentOf hn hd
  rw [ofRatio_of_isExponent negative hn hd he,
    ofRatio_of_isExponent negative (Nat.mul_ne_zero hn ht.ne') (Nat.mul_pos hd ht)
      (hquot.symm ▸ he), scaled_scale, nearest_scale _ _ ht]

/-- A quotient that a double holds is rounded to that double. -/
theorem ofRatio_exact (negative : Bool) {n d m : Nat} {e : Int} (hd : 0 < d) (hm : m ≠ 0)
    (h : Canonical m e) (hx : (n : ℚ) / d = m * (2 : ℚ) ^ e) :
    ofRatio negative n d = .finite negative m e h := by
  obtain ⟨hlt, hleast, hmost, hfull⟩ := h
  have hm' : (0 : ℚ) < m := by exact_mod_cast Nat.pos_of_ne_zero hm
  have hn : n ≠ 0 := by
    rintro rfl
    rw [Nat.cast_zero, zero_div] at hx
    exact absurd hx (mul_pos hm' (two_zpow_pos e)).ne
  have he : IsExponent ((n : ℚ) / d) e := by
    refine ⟨hleast, ?_, ?_⟩
    · rw [hx]
      exact mul_lt_mul_of_pos_right (by exact_mod_cast hlt) (two_zpow_pos e)
    · rcases hfull with hfull | hfull
      · refine Or.inl ?_
        rw [hx]
        exact mul_le_mul_of_nonneg_right (by exact_mod_cast hfull) (two_zpow_pos e).le
      · exact Or.inr hfull
  have hscaled : (scaled n d e).1 = m * (scaled n d e).2 := by
    have hpos : ((scaled n d e).2 : ℚ) ≠ 0 := by exact_mod_cast (scaled_snd_pos hd n e).ne'
    have hratio := scaled_ratio hd n e
    rw [hx, mul_div_assoc, div_self (two_zpow_pos e).ne', mul_one, div_eq_iff hpos] at hratio
    exact_mod_cast hratio
  rw [ofRatio_of_isExponent negative hn hd he, hscaled,
    nearest_mul_self m (scaled_snd_pos hd n e), pack, if_neg (ne_of_lt hlt)]
  exact dif_pos _

theorem nearest_near {d : Nat} (hd : 0 < d) (n : Nat) :
    (nearest n d : ℚ) - (n : ℚ) / d ≤ 1 / 2 ∧ (n : ℚ) / d - nearest n d ≤ 1 / 2 := by
  obtain ⟨hhigh, hlow⟩ := nearest_error hd n
  have hd' : (0 : ℚ) < d := by exact_mod_cast hd
  have hhigh' : 2 * (nearest n d : ℚ) * d ≤ 2 * n + d := by exact_mod_cast hhigh
  have hlow' : 2 * (n : ℚ) ≤ 2 * nearest n d * d + d := by exact_mod_cast hlow
  constructor
  · rw [sub_le_iff_le_add, ← sub_le_iff_le_add', le_div_iff₀ hd']
    linarith
  · rw [sub_le_iff_le_add, div_le_iff₀ hd']
    linarith

/-- Below the largest exponent the result is finite, and it is the nearest mantissa under the
exponent of the quotient. -/
theorem ofRatio_value (negative : Bool) {n d : Nat} (hn : n ≠ 0) (hd : 0 < d) {e : Int}
    (he : IsExponent ((n : ℚ) / d) e) (hmost : e < 971) :
    ∃ m' e' h, ofRatio negative n d = .finite negative m' e' h ∧
      (m' : ℚ) * (2 : ℚ) ^ e' = (nearest (scaled n d e).1 (scaled n d e).2 : ℚ) * (2 : ℚ) ^ e := by
  have hpos := scaled_snd_pos hd n e
  have hpos' : (0 : ℚ) < (scaled n d e).2 := by exact_mod_cast hpos
  have hratio := scaled_ratio hd n e
  obtain ⟨hhigh, hlow⟩ := nearest_error hpos (scaled n d e).1
  have hbelow : (scaled n d e).1 < 2 ^ 53 * (scaled n d e).2 := by
    have h := (div_lt_iff₀ (two_zpow_pos e)).mpr he.below
    rw [← hratio, div_lt_iff₀ hpos'] at h
    exact_mod_cast h
  have hfull : 2 ^ 52 * (scaled n d e).2 ≤ (scaled n d e).1 ∨ e = -1074 := by
    refine he.full.imp_left fun h => ?_
    rw [← le_div_iff₀ (two_zpow_pos e), ← hratio, le_div_iff₀ hpos'] at h
    exact_mod_cast h
  rw [ofRatio_of_isExponent negative hn hd he]
  generalize (scaled n d e).1 = a at hhigh hlow hbelow hfull ⊢
  generalize (scaled n d e).2 = b at hpos hhigh hlow hbelow hfull ⊢
  generalize nearest a b = m at hhigh hlow ⊢
  have hmle : m ≤ 2 ^ 53 := by
    by_contra hlarge
    have : (2 ^ 53 + 1) * b ≤ m * b := Nat.mul_le_mul_right b (by omega)
    rw [Nat.mul_assoc] at hhigh
    omega
  have hmfull : 2 ^ 52 ≤ m ∨ e = -1074 := by
    refine hfull.imp_left fun h => ?_
    by_contra hsmall
    have : (m + 1) * b ≤ 2 ^ 52 * b := Nat.mul_le_mul_right b (by omega)
    rw [Nat.mul_assoc] at hlow
    rw [Nat.add_mul] at this
    omega
  rw [pack]
  by_cases hm : m = 2 ^ 53
  · have hc : Canonical (2 ^ 52) (e + 1) := ⟨by decide, by have := he.least; omega, by omega,
      Or.inl le_rfl⟩
    refine ⟨2 ^ 52, e + 1, hc, ?_, ?_⟩
    · rw [hm]
      exact dif_pos hc
    · rw [hm, zpow_add_one₀ (by norm_num)]
      push_cast
      ring
  · have hc : Canonical m e := ⟨lt_of_le_of_ne hmle hm, he.least, hmost.le, hmfull⟩
    refine ⟨m, e, hc, ?_, rfl⟩
    rw [if_neg (show ¬m = Nat.pow 2 53 from hm)]
    exact dif_pos hc

-- ---------------------------------------------------------------------------
-- Decimal numbers
-- ---------------------------------------------------------------------------

theorem digitCount_mul_ten {c : Nat} (hc : c ≠ 0) : digitCount (c * 10) = digitCount c + 1 := by
  have hlow := pow_digitCount_le hc
  have hhigh := lt_pow_digitCount c
  have hpos := digitCount_pos c
  have hc10 : c * 10 ≠ 0 := by omega
  have hlow' := pow_digitCount_le hc10
  have hhigh' := lt_pow_digitCount (c * 10)
  have hpos' := digitCount_pos (c * 10)
  refine Nat.le_antisymm ?_ ?_
  · -- ten times the number is below the next power
    have h : 10 ^ (digitCount (c * 10) - 1) < 10 ^ (digitCount c + 1) := by
      rw [Nat.pow_succ]
      omega
    have := (Nat.pow_lt_pow_iff_right (by decide : 1 < 10)).mp h
    omega
  · have h : 10 ^ digitCount c < 10 ^ digitCount (c * 10) * 1 := by
      have hsucc : 10 ^ digitCount c = 10 ^ (digitCount c - 1) * 10 := by
        rw [← Nat.pow_succ, Nat.succ_eq_add_one, Nat.sub_add_cancel hpos]
      omega
    rw [Nat.mul_one] at h
    have := (Nat.pow_lt_pow_iff_right (by decide : 1 < 10)).mp h
    omega

theorem ofScientific_mul_ten (negative : Bool) (c : Nat) (k : Int) :
    ofScientific negative (c * 10) (k - 1) = ofScientific negative c k := by
  by_cases hc : c = 0
  · rw [hc, ofScientific, ofScientific, if_pos (Or.inl rfl), if_pos (Or.inl rfl)]
  have hsize : (digitCount (c * 10) : Int) + (k - 1) = digitCount c + k := by
    rw [digitCount_mul_ten hc]
    omega
  have hzero : c * 10 = 0 ↔ c = 0 := by omega
  rw [ofScientific, ofScientific, hsize]
  simp only [hzero, Nat.pow_eq]
  -- only the quotients differ, in the powers that bring them to integers
  split
  · rfl
  · split
    · rfl
    · by_cases hk : 1 ≤ k
      · have hpow : c * 10 * 10 ^ (k - 1).natAbs = c * 10 ^ k.natAbs := by
          rw [Nat.mul_assoc, ← Nat.pow_succ', show (k - 1).natAbs.succ = k.natAbs by omega]
        rw [if_pos (by omega), if_pos (by omega), hpow]
      · have hpow : 10 ^ (k - 1).natAbs = 10 ^ k.natAbs * 10 := by
          rw [← Nat.pow_succ, show k.natAbs.succ = (k - 1).natAbs by omega]
        have hpos : 0 < 10 ^ k.natAbs := Nat.pow_pos (by decide)
        rw [if_neg (by omega), hpow, ofRatio_scale negative c hpos (by decide)]
        by_cases hk0 : k = 0
        · rw [if_pos (by omega), hk0, Int.natAbs_zero, Nat.pow_zero, Nat.mul_one]
        · rw [if_neg (by omega)]

/-- Zeros at the end of a coefficient do not change the number. -/
theorem ofScientific_shift (negative : Bool) (c : Nat) (k : Int) (j : Nat) :
    ofScientific negative (c * 10 ^ j) (k - j) = ofScientific negative c k := by
  induction j with
  | zero => rw [Nat.pow_zero, Nat.mul_one, Nat.cast_zero, sub_zero]
  | succ j ih =>
    have hk : k - ((j + 1 : Nat) : Int) = k - j - 1 := by
      push_cast
      ring
    rw [hk, Nat.pow_succ, ← Nat.mul_assoc, ofScientific_mul_ten, ih]

end ListQuery.Number.Double
