import ListQuery.Number.Reading
import Mathlib.Data.Nat.Digits.Defs
import Mathlib.Tactic.Ring

/-!
# Runs of digits

The decimal digits of a number spell the number again, zeros on the left do not count and a zero on
the right is a factor of ten. `digitCount` is where a number stands between the powers of ten:

* `digitsValue_natChars`, `digitsValue_padded` — writing and reading a number;
* `takeWhile_digits`, `dropWhile_digits` — a run of digits ends where no digit follows;
* `lt_pow_digitCount`, `pow_digitCount_le` — `10 ^ (digitCount n - 1) ≤ n < 10 ^ digitCount n`.
-/

namespace ListQuery.Number

-- ---------------------------------------------------------------------------
-- The digits of a number
-- ---------------------------------------------------------------------------

/-- All of the characters are digits `0` to `9`. -/
def AreDigits (cs : List Char) : Prop := ∀ c ∈ cs, isAsciiDigit c = true

theorem isAsciiDigit_of_isDigit {c : Char} (h : c.isDigit = true) : isAsciiDigit c = true := by
  rw [Char.isDigit, Bool.and_eq_true, decide_eq_true_eq, decide_eq_true_eq] at h
  rw [isAsciiDigit, decide_eq_true_eq]
  exact ⟨UInt32.le_iff_toNat_le.mp h.1, UInt32.le_iff_toNat_le.mp h.2⟩

theorem areDigits_natChars (n : Nat) : AreDigits (natChars n) := fun _ hc =>
  isAsciiDigit_of_isDigit (Nat.isDigit_of_mem_toDigits (by decide) (by decide) hc)

theorem natChars_ne_nil (n : Nat) : natChars n ≠ [] := Nat.toDigits_ne_nil

theorem areDigits_append {a b : List Char} (ha : AreDigits a) (hb : AreDigits b) :
    AreDigits (a ++ b) := by
  intro c hc
  rcases List.mem_append.mp hc with h | h
  · exact ha c h
  · exact hb c h

theorem areDigits_replicate_zero (k : Nat) : AreDigits (List.replicate k '0') := by
  intro c hc
  rw [List.eq_of_mem_replicate hc]
  decide

theorem areDigits_padded (width n : Nat) : AreDigits (padded width n) :=
  areDigits_append (areDigits_replicate_zero _) (areDigits_natChars n)

theorem areDigits_all {cs : List Char} (h : AreDigits cs) : cs.all isAsciiDigit = true :=
  List.all_eq_true.mpr h

-- ---------------------------------------------------------------------------
-- The value of a run
-- ---------------------------------------------------------------------------

theorem digitsValue_natChars (n : Nat) : digitsValue (natChars n) = n :=
  Nat.ofDigitChars_ten_toDigits

theorem digitsValue_append (a b : List Char) :
    digitsValue (a ++ b) = digitsValue a * 10 ^ b.length + digitsValue b := by
  have h : Nat.ofDigitChars 10 (a ++ b) 0 =
      Nat.ofDigitChars 10 a 0 * 10 ^ b.length + Nat.ofDigitChars 10 b 0 := by
    rw [Nat.ofDigitChars_append, Nat.ofDigitChars_eq_ofDigitChars_zero, Nat.mul_comm]
  exact h

theorem digitsValue_replicate_zero (k : Nat) : digitsValue (List.replicate k '0') = 0 := by
  have h : Nat.ofDigitChars 10 (List.replicate k '0') 0 = 0 := by
    rw [Nat.ofDigitChars_replicate_zero, Nat.mul_zero]
  exact h

/-- Zeros on the left do not count. -/
theorem digitsValue_zeros_append (k : Nat) (ds : List Char) :
    digitsValue (List.replicate k '0' ++ ds) = digitsValue ds := by
  rw [digitsValue_append, digitsValue_replicate_zero, Nat.zero_mul, Nat.zero_add]

/-- Every zero on the right is a factor of ten. -/
theorem digitsValue_append_zeros (ds : List Char) (k : Nat) :
    digitsValue (ds ++ List.replicate k '0') = digitsValue ds * 10 ^ k := by
  rw [digitsValue_append, digitsValue_replicate_zero, List.length_replicate, Nat.add_zero]

theorem digitsValue_padded (width n : Nat) : digitsValue (padded width n) = n := by
  rw [padded, digitsValue_zeros_append, digitsValue_natChars]

theorem length_natChars_le {n k : Nat} (hk : 0 < k) : (natChars n).length ≤ k ↔ n < 10 ^ k :=
  Nat.length_toDigits_le_iff (by decide) hk

/-- A number that fits is written with exactly as many digits as are asked for. -/
theorem length_padded {width n : Nat} (hw : 0 < width) (h : n < 10 ^ width) :
    (padded width n).length = width := by
  have hle := (length_natChars_le hw).mpr h
  rw [padded, List.length_append, List.length_replicate]
  omega

theorem padded_ne_nil (width n : Nat) : padded width n ≠ [] := by
  rw [padded]
  exact fun h => natChars_ne_nil n (List.append_eq_nil_iff.mp h).2

-- ---------------------------------------------------------------------------
-- Where a run ends
-- ---------------------------------------------------------------------------

/-- No digit comes first. -/
def EndsRun (rest : List Char) : Prop := ∀ c ∈ rest.head?, isAsciiDigit c = false

theorem takeWhile_digits {ds rest : List Char} (hd : AreDigits ds) (hr : EndsRun rest) :
    (ds ++ rest).takeWhile isAsciiDigit = ds := by
  rw [List.takeWhile_append_of_pos hd]
  cases rest with
  | nil => rw [List.takeWhile_nil, List.append_nil]
  | cons c rest =>
    rw [List.takeWhile_cons_of_neg (by rw [hr c rfl]; exact Bool.false_ne_true), List.append_nil]

theorem dropWhile_digits {ds rest : List Char} (hd : AreDigits ds) (hr : EndsRun rest) :
    (ds ++ rest).dropWhile isAsciiDigit = rest := by
  rw [List.dropWhile_append_of_pos hd]
  cases rest with
  | nil => rfl
  | cons c rest => rw [List.dropWhile_cons_of_neg (by rw [hr c rfl]; exact Bool.false_ne_true)]

/-- A run of digits is less than the power of ten that has one digit more. -/
theorem digitsValue_lt {ds : List Char} (h : AreDigits ds) : digitsValue ds < 10 ^ ds.length := by
  induction ds with
  | nil => decide
  | cons c ds ih =>
    have hc : isAsciiDigit c = true := h c (List.mem_cons_self ..)
    have htail := ih fun d hd => h d (List.mem_cons_of_mem _ hd)
    have hone : digitsValue [c] ≤ 9 := by
      rw [isAsciiDigit, decide_eq_true_eq] at hc
      show 10 * 0 + (c.toNat - '0'.toNat) ≤ 9
      have h0 : '0'.toNat = 48 := rfl
      have h9 : '9'.toNat = 57 := rfl
      omega
    calc digitsValue ([c] ++ ds)
        = digitsValue [c] * 10 ^ ds.length + digitsValue ds := digitsValue_append [c] ds
      _ < 9 * 10 ^ ds.length + 10 ^ ds.length :=
          Nat.add_lt_add_of_le_of_lt (Nat.mul_le_mul_right _ hone) htail
      _ = 10 ^ (ds.length + 1) := by ring

-- ---------------------------------------------------------------------------
-- The number of digits
-- ---------------------------------------------------------------------------

theorem digitCount_pos (n : Nat) : 0 < digitCount n := Nat.length_toDigits_pos

theorem lt_pow_digitCount (n : Nat) : n < 10 ^ digitCount n :=
  (length_natChars_le (digitCount_pos n)).mp le_rfl

theorem pow_digitCount_le {n : Nat} (hn : n ≠ 0) : 10 ^ (digitCount n - 1) ≤ n := by
  rcases Nat.eq_zero_or_pos (digitCount n - 1) with h0 | hpos
  · rw [h0, Nat.pow_zero]
    omega
  · by_contra hlt
    have hle : digitCount n ≤ digitCount n - 1 := (length_natChars_le hpos).mpr (by omega)
    omega

theorem digitCount_mono {m n : Nat} (h : m ≤ n) : digitCount m ≤ digitCount n :=
  (length_natChars_le (digitCount_pos n)).mpr (h.trans_lt (lt_pow_digitCount n))

/-- Only zero is written with a zero in front: without that zero there would be fewer digits. -/
theorem natChars_head_ne_zero {n : Nat} (hn : n ≠ 0) : (natChars n).head? ≠ some '0' := by
  intro hhead
  obtain ⟨ds, hds⟩ : ∃ ds, natChars n = '0' :: ds := by
    cases h : natChars n with
    | nil => exact absurd h (natChars_ne_nil n)
    | cons c ds =>
      rw [h, List.head?_cons, Option.some.injEq] at hhead
      exact ⟨ds, by rw [hhead]⟩
  have hdigits : AreDigits ds := fun c hc =>
    areDigits_natChars n c (hds ▸ List.mem_cons_of_mem _ hc)
  have hvalue : digitsValue ds = n := by
    rw [← digitsValue_natChars n, hds]
    exact (digitsValue_zeros_append 1 ds).symm
  have hlen : digitCount n = ds.length + 1 := by
    rw [digitCount, hds, List.length_cons]
  have hlt := digitsValue_lt hdigits
  have hle := pow_digitCount_le hn
  rw [hlen, Nat.add_sub_cancel] at hle
  omega

end ListQuery.Number
