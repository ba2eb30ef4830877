import ListQuery.Number.Reading
import ListQuery.Paging.Result
import ListQuery.Proofs.Number.Digits
import ListQuery.Proofs.Number.Rounding

/-!
# The number of pages

The number of pages is computed in double precision, and up to `2 ^ 53` rows it is the exact ceiling
of the quotient: a quotient that is no integer is at least one part of the page size away from the
integers next to it, and that is more than rounding moves it.

* `ceiling_eq` — the ceiling of a double, by its value;
* `pageCount_eq`, `pageCount_nonneg` — the number of pages;
* `digitCount_pageCount` — how long it can be.
-/

namespace ListQuery

open Number Double

-- ---------------------------------------------------------------------------
-- Ceilings
-- ---------------------------------------------------------------------------

theorem ceil_div_eq {a b n : Nat} (hb : 0 < b) (hle : (a : ℚ) / b ≤ n)
    (hlt : (n : ℚ) < (a : ℚ) / b + 1) : (a + b - 1) / b = n := by
  have hb' : (0 : ℚ) < b := by exact_mod_cast hb
  have hle' : a ≤ n * b := by
    rw [div_le_iff₀ hb'] at hle
    exact_mod_cast hle
  have hlt' : n * b < a + b := by
    have h := mul_lt_mul_of_pos_right hlt hb'
    rw [add_mul, div_mul_cancel₀ _ hb'.ne', one_mul] at h
    exact_mod_cast h
  refine Nat.div_eq_of_lt_le (by omega) ?_
  rw [Nat.add_mul]
  omega

theorem magnitude_ratio (m : Nat) (e : Int) :
    0 < (magnitude m e).2 ∧
      ((magnitude m e).1 : ℚ) / (magnitude m e).2 = (m : ℚ) * (2 : ℚ) ^ e := by
  rw [magnitude]
  split
  case isTrue h =>
    have he : (2 : ℚ) ^ e = 2 ^ e.natAbs := by
      conv_lhs => rw [← Int.natAbs_of_nonneg h, zpow_natCast]
    refine ⟨one_pos, ?_⟩
    rw [he, Nat.cast_one, div_one]
    exact Nat.cast_mul m _ |>.trans (by rw [Nat.pow_eq, Nat.cast_pow]; rfl)
  case isFalse h =>
    have he : (2 : ℚ) ^ e = (2 ^ e.natAbs)⁻¹ := by
      conv_lhs => rw [show e = -(e.natAbs : Int) by omega, zpow_neg, zpow_natCast]
    refine ⟨Nat.pow_pos (by decide), ?_⟩
    rw [he, Nat.pow_eq, Nat.cast_pow, div_eq_mul_inv]
    rfl

/-- The least natural number that is not below a double. -/
theorem ceiling_eq {m n : Nat} {e : Int} (hle : (m : ℚ) * (2 : ℚ) ^ e ≤ n)
    (hlt : (n : ℚ) < (m : ℚ) * (2 : ℚ) ^ e + 1) : ceiling false m e = n := by
  obtain ⟨hpos, hratio⟩ := magnitude_ratio m e
  rw [← hratio] at hle hlt
  show (((magnitude m e).1 + (magnitude m e).2 - 1) / (magnitude m e).2 : Nat) = (n : Int)
  rw [ceil_div_eq hpos hle hlt]

-- ---------------------------------------------------------------------------
-- The quotient of rows and page size
-- ---------------------------------------------------------------------------

section Quotient

variable {total perPage : Nat} {e : Int}

/-- The exponent of a quotient of at most `2 ^ 53`. -/
theorem exponent_le_one (ht : total ≤ 2 ^ 53) (hp : 0 < perPage)
    (he : IsExponent ((total : ℚ) / perPage) e) : e ≤ 1 := by
  rcases he.full with hfull | hleast
  · by_contra hlarge
    have hp' : (0 : ℚ) < perPage := by exact_mod_cast hp
    have hone : (1 : ℚ) ≤ perPage := by exact_mod_cast hp
    have hx : (total : ℚ) / perPage ≤ 2 ^ 53 := by
      rw [div_le_iff₀ hp']
      have ht' : (total : ℚ) ≤ 2 ^ 53 := by exact_mod_cast ht
      nlinarith
    have hpow : (2 : ℚ) ^ (54 : Nat) ≤ 2 ^ 52 * (2 : ℚ) ^ e := by
      rw [two_pow_mul_zpow, ← zpow_natCast]
      exact zpow_le_zpow_right₀ (by norm_num) (by push_cast; omega)
    have := le_trans hpow (le_trans hfull hx)
    norm_num at this
  · omega

/-- A quotient that is an integer is not moved by rounding. -/
theorem nearest_of_dvd (ht : total ≤ 2 ^ 53) (h0 : total ≠ 0) (hp : 0 < perPage)
    (he : IsExponent ((total : ℚ) / perPage) e) (hd : perPage ∣ total) :
    (nearest (scaled total perPage e).1 (scaled total perPage e).2 : ℚ) * (2 : ℚ) ^ e =
      (total : ℚ) / perPage := by
  obtain ⟨q, rfl⟩ := hd
  have hpos := scaled_snd_pos hp (perPage * q) e
  have hpos' : ((scaled (perPage * q) perPage e).2 : ℚ) ≠ 0 := by exact_mod_cast hpos.ne'
  have hratio := scaled_ratio hp (perPage * q) e
  -- the quotient is an integer in units of the exponent as well
  obtain ⟨k, hk⟩ : ∃ k : Nat, ((perPage * q : Nat) : ℚ) / perPage = k * (2 : ℚ) ^ e := by
    have hx : ((perPage * q : Nat) : ℚ) / perPage = q := by
      have hp' : (perPage : ℚ) ≠ 0 := by exact_mod_cast hp.ne'
      push_cast
      field_simp
    rw [hx]
    by_cases hle : e ≤ 0
    · refine ⟨q * 2 ^ e.natAbs, ?_⟩
      have hexp : (2 : ℚ) ^ e = (2 ^ e.natAbs)⁻¹ := by
        conv_lhs => rw [show e = -(e.natAbs : Int) by omega, zpow_neg, zpow_natCast]
      rw [hexp]
      push_cast
      field_simp
    · have hone : e = 1 := by
        have := exponent_le_one ht hp he
        omega
      subst hone
      have hfull := he.full.resolve_right (by decide)
      rw [hx, zpow_one] at hfull
      have hlow : 2 ^ 53 ≤ q := by
        have h : ((2 ^ 53 : Nat) : ℚ) ≤ q := by
          push_cast
          linarith
        exact_mod_cast h
      have hhigh : q ≤ perPage * q := Nat.le_mul_of_pos_left q hp
      refine ⟨2 ^ 52, ?_⟩
      rw [show q = 2 ^ 53 by omega, zpow_one]
      norm_num
  have hscaled : (scaled (perPage * q) perPage e).1 = k * (scaled (perPage * q) perPage e).2 := by
    rw [hk, mul_div_assoc, div_self (two_zpow_pos e).ne', mul_one, div_eq_iff hpos'] at hratio
    exact_mod_cast hratio
  rw [hscaled, nearest_mul_self k hpos, hk]

/-- Rounding moves a quotient that is no integer by less than one part of the page size. -/
theorem half_unit_lt (ht : total ≤ 2 ^ 53) (hp : 0 < perPage) (hp' : perPage ≤ 2 ^ 53)
    (he : IsExponent ((total : ℚ) / perPage) e) (hd : ¬perPage ∣ total) :
    (2 : ℚ) ^ e / 2 < 1 / perPage := by
  have hq : (0 : ℚ) < perPage := by exact_mod_cast hp
  rw [lt_div_iff₀ hq]
  rcases he.full with hfull | hleast
  · rw [le_div_iff₀ hq] at hfull
    have ht' : (total : ℚ) ≤ 2 ^ 53 := by exact_mod_cast ht
    have hle : (2 : ℚ) ^ e * perPage ≤ 2 := by
      have h : (2 : ℚ) ^ 52 * ((2 : ℚ) ^ e * perPage) ≤ 2 ^ 52 * 2 := by
        calc (2 : ℚ) ^ 52 * ((2 : ℚ) ^ e * perPage) = 2 ^ 52 * (2 : ℚ) ^ e * perPage := by ring
          _ ≤ (total : ℚ) := hfull
          _ ≤ 2 ^ 52 * 2 := le_trans ht' (by norm_num)
      exact le_of_mul_le_mul_left h (by positivity)
    refine lt_of_le_of_ne (by linarith) fun heq => hd ?_
    -- at equality the number of rows and the page size are powers of two
    have htotal : total = 2 ^ 53 := by
      have h : ((2 ^ 53 : Nat) : ℚ) ≤ total := by
        push_cast
        calc (2 : ℚ) ^ 53 = 2 ^ 53 * ((2 : ℚ) ^ e / 2 * perPage) := by rw [heq, mul_one]
          _ = 2 ^ 52 * (2 : ℚ) ^ e * perPage := by ring
          _ ≤ (total : ℚ) := hfull
      have h' : 2 ^ 53 ≤ total := by exact_mod_cast h
      omega
    have hpow : (perPage : ℚ) = (2 : ℚ) ^ (1 - e) := by
      rw [zpow_sub₀ (by norm_num), zpow_one, eq_div_iff (two_zpow_pos e).ne']
      linarith
    have hone := exponent_le_one ht hp he
    obtain ⟨k, hk⟩ : ∃ k : Nat, 1 - e = k := ⟨(1 - e).toNat, by omega⟩
    rw [hk, zpow_natCast] at hpow
    have hpow' : perPage = 2 ^ k := by exact_mod_cast hpow
    have hkle : k ≤ 53 := by
      rw [hpow'] at hp'
      exact (Nat.pow_le_pow_iff_right (by decide)).mp hp'
    rw [htotal, hpow']
    exact Nat.pow_dvd_pow 2 hkle
  · have hp'' : (perPage : ℚ) ≤ 2 ^ 53 := by exact_mod_cast hp'
    have hsmall : (2 : ℚ) ^ e ≤ (2 ^ 53)⁻¹ := by
      rw [hleast, ← zpow_natCast, ← zpow_neg]
      exact zpow_le_zpow_right₀ (by norm_num) (by norm_num)
    have hpos := two_zpow_pos e
    calc (2 : ℚ) ^ e / 2 * perPage ≤ (2 ^ 53)⁻¹ / 2 * 2 ^ 53 := by
          exact mul_le_mul (by linarith) hp'' hq.le (by positivity)
      _ < 1 := by norm_num

/-- What the quotient is rounded to has the same ceiling. -/
theorem rounded_between {n r : Nat} (ht : total ≤ 2 ^ 53) (h0 : total ≠ 0) (hp : 0 < perPage)
    (hp' : perPage ≤ 2 ^ 53) (he : IsExponent ((total : ℚ) / perPage) e) (hr : r < perPage)
    (hn : n * perPage + r = total + perPage - 1) {v : ℚ}
    (hv : v = (nearest (scaled total perPage e).1 (scaled total perPage e).2 : ℚ) * (2 : ℚ) ^ e) :
    v ≤ n ∧ (n : ℚ) < v + 1 := by
  have hq : (0 : ℚ) < perPage := by exact_mod_cast hp
  by_cases hd : perPage ∣ total
  · rw [hv, nearest_of_dvd ht h0 hp he hd, div_le_iff₀ hq, ← sub_lt_iff_lt_add, lt_div_iff₀ hq]
    have hhigh : n * perPage < total + perPage := by omega
    have hhigh' : (n : ℚ) * perPage < total + perPage := by exact_mod_cast hhigh
    have hlow : total ≤ n * perPage := by omega
    exact ⟨by exact_mod_cast hlow, by linarith⟩
  · obtain ⟨hup, hdown⟩ :=
      nearest_near (scaled_snd_pos hp total e) (scaled total perPage e).1
    have hpow := two_zpow_pos e
    rw [scaled_ratio hp] at hup hdown
    have hmoved := half_unit_lt ht hp hp' he hd
    have hx : (total : ℚ) / perPage / (2 : ℚ) ^ e * (2 : ℚ) ^ e = (total : ℚ) / perPage :=
      div_mul_cancel₀ _ hpow.ne'
    have hup' : v - (total : ℚ) / perPage ≤ (2 : ℚ) ^ e / 2 := by
      rw [hv, ← hx]
      have := mul_le_mul_of_nonneg_right hup hpow.le
      linarith
    have hdown' : (total : ℚ) / perPage - v ≤ (2 : ℚ) ^ e / 2 := by
      rw [hv, ← hx]
      have := mul_le_mul_of_nonneg_right hdown hpow.le
      linarith
    have hne : total ≠ n * perPage := fun h => hd (h ▸ Nat.dvd_mul_left perPage n)
    have hlow : total + 1 ≤ n * perPage := by omega
    have hhigh : n * perPage + 1 ≤ total + perPage := by omega
    have hlow' : (total : ℚ) / perPage + 1 / perPage ≤ n := by
      rw [← add_div, div_le_iff₀ hq]
      exact_mod_cast hlow
    have hhigh' : (n : ℚ) + 1 / perPage ≤ (total : ℚ) / perPage + 1 := by
      have h : ((n : ℚ) * perPage + 1) / perPage ≤ ((total : ℚ) + perPage) / perPage :=
        div_le_div_of_nonneg_right (by exact_mod_cast hhigh) hq.le
      rwa [add_div, add_div, mul_div_cancel_right₀ _ hq.ne', div_self hq.ne'] at h
    exact ⟨by linarith, by linarith⟩

/-- The number of pages is the exact ceiling of the quotient. -/
theorem pageCount_eq (ht : total ≤ 2 ^ 53) (hp : 0 < perPage) (hp' : perPage ≤ 2 ^ 53) :
    pageCount total perPage = .ok (((total + perPage - 1) / perPage : Nat) : Int) := by
  by_cases h0 : total = 0
  · subst h0
    rw [Nat.cast_zero, pageCount, if_pos rfl, Nat.div_eq_of_lt (by omega)]
    rfl
  have he := isExponent_exponentOf h0 hp
  obtain ⟨m', e', hc, hround, hvalue⟩ :=
    ofRatio_value false h0 hp he (by have := exponent_le_one ht hp he; omega)
  obtain ⟨hle, hlt⟩ := rounded_between ht h0 hp hp' he (Nat.mod_lt (total + perPage - 1) hp)
    (by rw [Nat.mul_comm]; exact Nat.div_add_mod _ _) hvalue
  rw [pageCount, if_neg (by exact_mod_cast h0), Int.natAbs_natCast, Int.natAbs_natCast,
    show decide ((total : Int) < 0) = false from decide_eq_false (by omega), hround]
  exact congrArg Except.ok (ceiling_eq hle hlt)

end Quotient

-- ---------------------------------------------------------------------------
-- The size of the number
-- ---------------------------------------------------------------------------

section
variable {m j k : Nat} {e : Int} (hm : m < 2 ^ j) (he : e ≤ k)
include hm he

theorem magnitude_lt : (magnitude m e).1 < 2 ^ (j + k) := by
  rw [magnitude, Nat.pow_add]
  split
  case isTrue =>
    exact Nat.mul_lt_mul_of_lt_of_le hm (Nat.pow_le_pow_right two_pos (by omega))
      (Nat.pow_pos two_pos)
  case isFalse =>
    exact hm.trans_le (Nat.le_mul_of_pos_right _ (Nat.pow_pos two_pos))

theorem natAbs_ceiling_lt (negative : Bool) : (ceiling negative m e).natAbs < 2 ^ (j + k) := by
  have hpos := (magnitude_ratio m e).1
  refine lt_of_le_of_lt ?_ (magnitude_lt hm he)
  generalize hr : magnitude m e = r at hpos
  obtain ⟨a, b⟩ := r
  rw [ceiling, hr]
  dsimp only at hpos ⊢
  split
  · rw [Int.natAbs_neg, Int.natAbs_natCast]
    exact Nat.div_le_self a b
  · rw [Int.natAbs_natCast, ← Nat.lt_succ_iff, Nat.div_lt_iff_lt_mul hpos, Nat.succ_mul]
    have hself := Nat.le_mul_of_pos_right a hpos
    omega

end

theorem digitCount_le_of_lt_two_pow {n k : Nat} (h : n < 2 ^ k) (hk : k ≤ maxIntegerDigits) :
    digitCount n ≤ maxIntegerDigits := by
  refine (length_natChars_le (by decide)).mpr ?_
  calc n < 2 ^ k := h
    _ ≤ 10 ^ k := Nat.pow_le_pow_left (by decide) k
    _ ≤ 10 ^ maxIntegerDigits := Nat.pow_le_pow_right (by decide) hk

/-- Rounding keeps the sign. -/
theorem sign_ofRatio {negative negative' : Bool} {num den m : Nat} {e : Int}
    {h : Canonical m e} (heq : ofRatio negative num den = .finite negative' m e h) :
    negative' = negative := by
  simp only [ofRatio, zero] at heq
  split_ifs at heq <;> injection heq with hsign <;> exact hsign.symm

theorem pageCount_nonneg {total perPage pages : Int} (htotal : 0 ≤ total)
    (h : pageCount total perPage = .ok pages) : 0 ≤ pages := by
  rw [pageCount] at h
  split at h
  case isTrue => simp [← Except.ok.inj h]
  case isFalse =>
    split at h
    case h_1 negative m e hcanonical hratio =>
      have hsign : negative = false := by
        rw [sign_ofRatio hratio]
        simpa using htotal
      rw [← Except.ok.inj h, hsign]
      exact Int.natCast_nonneg _
    case h_2 => cases h

/-- The number of pages comes from a double, so it has few enough digits to be written and read. -/
theorem digitCount_pageCount {total perPage pages : Int} (h : pageCount total perPage = .ok pages) :
    digitCount pages.natAbs ≤ maxIntegerDigits := by
  rw [pageCount] at h
  split at h
  case isTrue =>
    rw [← Except.ok.inj h]
    decide
  case isFalse =>
    split at h
    case h_1 negative m e hcanonical _ =>
      rw [← Except.ok.inj h]
      obtain ⟨hm, -, he, -⟩ := hcanonical
      exact digitCount_le_of_lt_two_pow (natAbs_ceiling_lt hm he negative) (by decide)
    case h_2 => cases h

end ListQuery
