import ListQuery.Codec.Base64
import ListQuery.Codec.Utf8
import Mathlib.Data.UInt
import Mathlib.Tactic.NormNum

/-!
# Tokens read back

A token is URL-safe base64 without padding. Its length tells how much padding was left out, so the
reader can put it back and gives the octets that were written:

* `readToken_base64` — the octets of a token are those it was made from;
* `base64_ascii` — a token is ASCII.
-/

namespace ListQuery.Codec

-- ---------------------------------------------------------------------------
-- Digits
-- ---------------------------------------------------------------------------

theorem base64Value?_base64Char :
    ∀ n < 64, base64Value? (base64Char n) = some n := by
  decide

theorem base64Char_ne_pad : ∀ n < 64, base64Char n ≠ '=' := by
  decide

theorem base64Char_ascii : ∀ n < 64, (base64Char n).toNat < 0x80 := by
  decide

theorem readBase64_first {n : Nat} (hn : n < 64) (cs : List Char) :
    readBase64 .start (base64Char n :: cs) = readBase64 ⟨1, n, 0⟩ cs := by
  rw [readBase64, if_neg (base64Char_ne_pad n hn), base64Value?_base64Char n hn]
  rfl

theorem readBase64_second {n bits pads : Nat} (hn : n < 64) (cs : List Char) :
    readBase64 ⟨1, bits, pads⟩ (base64Char n :: cs) =
      (readBase64 ⟨2, n % 16, 0⟩ cs).map (UInt8.ofNat (bits * 4 + n / 16) :: ·) := by
  rw [readBase64, if_neg (base64Char_ne_pad n hn), base64Value?_base64Char n hn]
  rfl

theorem readBase64_third {n bits pads : Nat} (hn : n < 64) (cs : List Char) :
    readBase64 ⟨2, bits, pads⟩ (base64Char n :: cs) =
      (readBase64 ⟨3, n % 4, 0⟩ cs).map (UInt8.ofNat (bits * 16 + n / 4) :: ·) := by
  rw [readBase64, if_neg (base64Char_ne_pad n hn), base64Value?_base64Char n hn]
  rfl

theorem readBase64_fourth {n bits pads : Nat} (hn : n < 64) (cs : List Char) :
    readBase64 ⟨3, bits, pads⟩ (base64Char n :: cs) =
      (readBase64 .start cs).map (UInt8.ofNat (bits * 64 + n) :: ·) := by
  rw [readBase64, if_neg (base64Char_ne_pad n hn), base64Value?_base64Char n hn]
  rfl

-- ---------------------------------------------------------------------------
-- Groups
-- ---------------------------------------------------------------------------

theorem UInt8.ofNat_eq_of_toNat {n : Nat} {a : UInt8} (h : n = a.toNat) : UInt8.ofNat n = a := by
  rw [h]
  exact UInt8.ofNat_toNat

/-- The first octet of a group, with the bits that go to the second one. -/
theorem readBase64_firstOctet (a : UInt8) {bits : Nat} (hbits : bits < 16) (cs : List Char) :
    readBase64 .start (base64Char (a.toNat / 4) :: base64Char (a.toNat % 4 * 16 + bits) :: cs) =
      (readBase64 ⟨2, bits, 0⟩ cs).map (a :: ·) := by
  have ha := a.toNat_lt
  have hbyte : UInt8.ofNat (a.toNat / 4 * 4 + (a.toNat % 4 * 16 + bits) / 16) = a :=
    UInt8.ofNat_eq_of_toNat (by omega)
  have hrest : (a.toNat % 4 * 16 + bits) % 16 = bits := by omega
  rw [readBase64_first (by omega), readBase64_second (by omega), hbyte, hrest]

/-- The second octet, with the bits that go to the third one. -/
theorem readBase64_secondOctet (b : UInt8) {bits : Nat} (hbits : bits < 4) (cs : List Char) :
    readBase64 ⟨2, b.toNat / 16, 0⟩ (base64Char (b.toNat % 16 * 4 + bits) :: cs) =
      (readBase64 ⟨3, bits, 0⟩ cs).map (b :: ·) := by
  have hbyte : UInt8.ofNat (b.toNat / 16 * 16 + (b.toNat % 16 * 4 + bits) / 4) = b :=
    UInt8.ofNat_eq_of_toNat (by omega)
  have hrest : (b.toNat % 16 * 4 + bits) % 4 = bits := by omega
  rw [readBase64_third (by omega), hbyte, hrest]

theorem readBase64_thirdOctet (c : UInt8) (cs : List Char) :
    readBase64 ⟨3, c.toNat / 64, 0⟩ (base64Char (c.toNat % 64) :: cs) =
      (readBase64 .start cs).map (c :: ·) := by
  have hbyte : UInt8.ofNat (c.toNat / 64 * 64 + c.toNat % 64) = c :=
    UInt8.ofNat_eq_of_toNat (by omega)
  rw [readBase64_fourth (by omega), hbyte]

/-- Three octets and what comes after them. -/
theorem readBase64_group (a b c : UInt8) (cs : List Char) :
    readBase64 .start
        (base64Char (a.toNat / 4) :: base64Char (a.toNat % 4 * 16 + b.toNat / 16) ::
          base64Char (b.toNat % 16 * 4 + c.toNat / 64) :: base64Char (c.toNat % 64) :: cs) =
      (readBase64 .start cs).map fun r => a :: b :: c :: r := by
  have hb := b.toNat_lt
  have hc := c.toNat_lt
  rw [readBase64_firstOctet a (by omega), readBase64_secondOctet b (by omega),
    readBase64_thirdOctet, Option.map_map, Option.map_map]
  rfl

/-- The last two octets, with one padding sign. -/
theorem readBase64_two (a b : UInt8) :
    readBase64 .start
        [base64Char (a.toNat / 4), base64Char (a.toNat % 4 * 16 + b.toNat / 16),
          base64Char (b.toNat % 16 * 4), '='] = some [a, b] := by
  have hb := b.toNat_lt
  have hsecond := readBase64_secondOctet b (by decide : 0 < 4) ['=']
  rw [Nat.add_zero] at hsecond
  rw [readBase64_firstOctet a (by omega), hsecond]
  rfl

/-- The last octet, with two padding signs. -/
theorem readBase64_one (a : UInt8) :
    readBase64 .start
        [base64Char (a.toNat / 4), base64Char (a.toNat % 4 * 16), '=', '='] = some [a] := by
  have hfirst := readBase64_firstOctet a (by decide : 0 < 16) ['=', '=']
  rw [Nat.add_zero] at hfirst
  rw [hfirst]
  rfl

-- ---------------------------------------------------------------------------
-- Whole tokens
-- ---------------------------------------------------------------------------

/-- The padding that was left out of a token of so many characters. -/
def padding (length : Nat) : List Char := List.replicate ((4 - length % 4) % 4) '='

theorem padding_add_four (n : Nat) : padding (n + 1 + 1 + 1 + 1) = padding n := by
  rw [padding, padding, show (n + 1 + 1 + 1 + 1) % 4 = n % 4 by omega]

/-- The octets come back, group by group; only the last group can need padding. -/
theorem readBase64_base64 (bs : List UInt8) :
    readBase64 .start (base64 bs ++ padding (base64 bs).length) = some bs := by
  induction bs using base64.induct with
  | case1 a b c r ih =>
    simp only [base64, List.cons_append, List.length_cons]
    rw [readBase64_group, padding_add_four, ih]
    rfl
  | case2 a b => exact readBase64_two a b
  | case3 a => exact readBase64_one a
  | case4 => rfl

/-- What holds of the characters for all numbers below 64 holds of all characters of a token. -/
theorem mem_base64 {p : Char → Prop} (h : ∀ n < 64, p (base64Char n)) (bs : List UInt8) :
    ∀ c ∈ base64 bs, p c := by
  induction bs using base64.induct with
  | case1 a b c r ih =>
    have ha := a.toNat_lt
    have hb := b.toNat_lt
    have hc := c.toNat_lt
    simp only [base64, List.forall_mem_cons]
    exact ⟨h _ (by omega), h _ (by omega), h _ (by omega), h _ (by omega), ih⟩
  | case2 a b =>
    have ha := a.toNat_lt
    have hb := b.toNat_lt
    simp only [base64, List.forall_mem_cons]
    exact ⟨h _ (by omega), h _ (by omega), h _ (by omega), List.forall_mem_nil _⟩
  | case3 a =>
    have ha := a.toNat_lt
    simp only [base64, List.forall_mem_cons]
    exact ⟨h _ (by omega), h _ (by omega), List.forall_mem_nil _⟩
  | case4 => exact List.forall_mem_nil _

theorem base64_ascii (bs : List UInt8) : (base64 bs).all (·.toNat < 0x80) = true :=
  List.all_eq_true.mpr fun c hc =>
    decide_eq_true (mem_base64 (p := fun c => c.toNat < 0x80) base64Char_ascii bs c hc)

/-- A token gives the octets from which it was made. -/
theorem readToken_base64 (bs : List UInt8) : readToken (base64 bs) = some bs := by
  rw [readToken, if_pos (base64_ascii bs)]
  exact readBase64_base64 bs

theorem base64_ne_nil {bs : List UInt8} (h : bs ≠ []) : base64 bs ≠ [] := by
  match bs with
  | []              => exact absurd rfl h
  | [_]             => simp [base64]
  | [_, _]          => simp [base64]
  | _ :: _ :: _ :: _ => simp [base64]

-- ---------------------------------------------------------------------------
-- ASCII as octets
-- ---------------------------------------------------------------------------

theorem utf8_cons_of_ascii {c : Char} (h : c.toNat < 0x80) (cs : List Char) :
    utf8 (c :: cs) = UInt8.ofNat c.toNat :: utf8 cs := by
  have hv : c.val.toNat ≤ 127 := Nat.le_of_lt_succ h
  rw [utf8, List.flatMap_cons, String.utf8EncodeChar, if_pos hv]
  rfl

end ListQuery.Codec
