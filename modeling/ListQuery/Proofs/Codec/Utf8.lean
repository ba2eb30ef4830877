import ListQuery.Codec.Utf8
import Mathlib.Data.UInt
import Mathlib.Tactic.SplitIfs

/-!
# UTF-8 read back

The octets of a character are read as that character: its own bits come back, and the bounds of the
second octet are met because a character is neither a surrogate nor beyond the last code point.

* `readUtf8_utf8EncodeChar` — one character, whatever comes after it;
* `strictUtf8?_utf8`, `lenientUtf8_utf8` — whole texts.
-/

namespace ListQuery.Codec

-- ---------------------------------------------------------------------------
-- Octets
-- ---------------------------------------------------------------------------

theorem toNat_octet {n : Nat} (h : n < 256) : (UInt8.ofNat n).toNat = n := by
  rw [UInt8.toNat_ofNat', Nat.mod_eq_of_lt h]

theorem isTail_iff {b : UInt8} : isTail b = true ↔ 128 ≤ b.toNat ∧ b.toNat < 192 := by
  simp only [isTail, decide_eq_true_eq, UInt8.le_iff_toNat_le]
  show 128 ≤ b.toNat ∧ b.toNat ≤ 191 ↔ _
  omega

theorem isTail_octet {n : Nat} (h : n < 64) : isTail (UInt8.ofNat (n + 128)) = true := by
  rw [isTail_iff, toNat_octet (by omega)]
  omega

theorem payload_octet {n : Nat} (h : n < 64) : payload (UInt8.ofNat (n + 128)) = n := by
  rw [payload, toNat_octet (by omega)]
  omega

/-- Overlong forms, surrogates and numbers beyond the last code point are what the bounds of the
second octet keep out. -/
theorem isSecond_iff {a b : UInt8} :
    isSecond a b = true ↔
      (if a.toNat = 0xE0 then 0xA0 else if a.toNat = 0xF0 then 0x90 else 0x80) ≤ b.toNat ∧
      b.toNat ≤ if a.toNat = 0xED then 0x9F else if a.toNat = 0xF4 then 0x8F else 0xBF := by
  have heq : ∀ first : UInt8, a = first ↔ a.toNat = first.toNat := fun _ => UInt8.toNat_inj.symm
  simp only [isSecond, secondBounds, decide_eq_true_eq, UInt8.le_iff_toNat_le, heq]
  split_ifs <;> simp_all


-- ---------------------------------------------------------------------------
-- Characters
-- ---------------------------------------------------------------------------

section
variable {a b c d : UInt8} (rest : List UInt8)

theorem readUtf8_one (ha : a.toNat < 0x80) :
    readUtf8 (a :: rest) = some (Char.ofNat a.toNat) :: readUtf8 rest := by
  have h : a < 0x80 := UInt8.lt_iff_toNat_lt.mpr ha
  rw [readUtf8.eq_def]
  exact if_pos h

theorem readUtf8_two (ha : 0xC2 ≤ a.toNat ∧ a.toNat ≤ 0xDF) (hb : isTail b = true) :
    readUtf8 (a :: b :: rest) =
      some (Char.ofNat (a.toNat % 32 * 64 + payload b)) :: readUtf8 rest := by
  rw [readUtf8.eq_def]
  simp only [UInt8.le_iff_toNat_le, UInt8.lt_iff_toNat_lt, UInt8.reduceToNat]
  rw [if_neg (by omega), if_pos ha, if_pos hb]

theorem readUtf8_three (ha : 0xE0 ≤ a.toNat ∧ a.toNat ≤ 0xEF) (hb : isSecond a b = true)
    (hc : isTail c = true) :
    readUtf8 (a :: b :: c :: rest) =
      some (Char.ofNat (a.toNat % 16 * 4096 + payload b * 64 + payload c)) :: readUtf8 rest := by
  rw [readUtf8.eq_def]
  simp only [UInt8.le_iff_toNat_le, UInt8.lt_iff_toNat_lt, UInt8.reduceToNat]
  rw [if_neg (by omega), if_neg (by omega), if_pos ha, if_pos hb, if_pos hc]

theorem readUtf8_four (ha : 0xF0 ≤ a.toNat ∧ a.toNat ≤ 0xF4) (hb : isSecond a b = true)
    (hc : isTail c = true) (hd : isTail d = true) :
    readUtf8 (a :: b :: c :: d :: rest) =
      some (Char.ofNat
        (a.toNat % 8 * 262144 + payload b * 4096 + payload c * 64 + payload d)) ::
        readUtf8 rest := by
  rw [readUtf8.eq_def]
  simp only [UInt8.le_iff_toNat_le, UInt8.lt_iff_toNat_lt, UInt8.reduceToNat]
  rw [if_neg (by omega), if_neg (by omega), if_neg (by omega), if_pos ha, if_pos hb, if_pos hc,
    if_pos hd]

/-- The octets of a character are read as that character, whatever comes after them. -/
theorem readUtf8_utf8EncodeChar (x : Char) :
    readUtf8 (String.utf8EncodeChar x ++ rest) = some x :: readUtf8 rest := by
  have hvalid : x.toNat < 0xD800 ∨ 0xDFFF < x.toNat ∧ x.toNat < 0x110000 := x.valid
  have hback : ∀ {n : Nat}, n = x.toNat → some (Char.ofNat n) = some x := by
    rintro _ rfl
    rw [Char.ofNat_toNat]
  have hn : x.val.toNat = x.toNat := rfl
  simp only [String.utf8EncodeChar, hn]
  generalize x.toNat = n at hvalid hback
  -- the widths in the order in which the writer tries them; the bounds of the second octet matter
  -- to the last two only
  split_ifs with h1 h2 h3
  · have ha : (UInt8.ofNat n).toNat = n := toNat_octet (by omega)
    rw [List.singleton_append, readUtf8_one rest (by omega), hback ha]
  · have ha : (UInt8.ofNat (n / 64 % 32 + 192)).toNat = n / 64 + 192 := by
      rw [toNat_octet (by omega)]
      omega
    have hb : n % 64 < 64 := Nat.mod_lt _ (by decide)
    rw [List.cons_append, List.singleton_append, readUtf8_two rest (by omega) (isTail_octet hb),
      ha, payload_octet hb, hback (by omega)]
  · have ha : (UInt8.ofNat (n / 4096 % 16 + 224)).toNat = n / 4096 + 224 := by
      rw [toNat_octet (by omega)]
      omega
    have hb : n / 64 % 64 < 64 := Nat.mod_lt _ (by decide)
    have hc : n % 64 < 64 := Nat.mod_lt _ (by decide)
    have hsecond : isSecond (UInt8.ofNat (n / 4096 % 16 + 224))
        (UInt8.ofNat (n / 64 % 64 + 128)) = true := by
      rw [isSecond_iff, ha, toNat_octet (by omega)]
      split_ifs <;> omega
    simp only [List.cons_append, List.nil_append]
    rw [readUtf8_three rest (by omega) hsecond (isTail_octet hc), ha, payload_octet hb,
      payload_octet hc, hback (by omega)]
  · have ha : (UInt8.ofNat (n / 262144 % 8 + 240)).toNat = n / 262144 + 240 := by
      rw [toNat_octet (by omega)]
      omega
    have hb : n / 4096 % 64 < 64 := Nat.mod_lt _ (by decide)
    have hc : n / 64 % 64 < 64 := Nat.mod_lt _ (by decide)
    have hd : n % 64 < 64 := Nat.mod_lt _ (by decide)
    have hsecond : isSecond (UInt8.ofNat (n / 262144 % 8 + 240))
        (UInt8.ofNat (n / 4096 % 64 + 128)) = true := by
      rw [isSecond_iff, ha, toNat_octet (by omega)]
      split_ifs <;> omega
    simp only [List.cons_append, List.nil_append]
    rw [readUtf8_four rest (by omega) hsecond (isTail_octet hc) (isTail_octet hd), ha,
      payload_octet hb, payload_octet hc, payload_octet hd, hback (by omega)]

end

-- ---------------------------------------------------------------------------
-- Texts
-- ---------------------------------------------------------------------------

theorem readUtf8_utf8 (cs : List Char) : readUtf8 (utf8 cs) = cs.map some := by
  induction cs with
  | nil => rfl
  | cons c cs ih =>
    rw [utf8, List.flatMap_cons, readUtf8_utf8EncodeChar]
    exact congrArg (some c :: ·) ih

/-- The strict reader gives back the characters that were written. -/
theorem strictUtf8?_utf8 (cs : List Char) : strictUtf8? (utf8 cs) = some cs := by
  rw [strictUtf8?, readUtf8_utf8]
  induction cs with
  | nil => rfl
  | cons c cs ih =>
    rw [List.map_cons, List.mapM_cons, ih]
    rfl

/-- So does the lenient one. -/
theorem lenientUtf8_utf8 (cs : List Char) : lenientUtf8 (utf8 cs) = cs := by
  rw [lenientUtf8, readUtf8_utf8, List.map_map]
  exact List.map_id cs

end ListQuery.Codec
