import Mathlib.Data.Bool.AllAny
import Mathlib.Tactic.SplitIfs
import ListQuery.Json.Reader
import ListQuery.Json.Writer

/-!
# Texts in documents

A text is written character by character, each one as itself, as a letter after a backslash, or as
one or two UTF-16 units, and it is read the same way:

* `stringBody_escapeChar` — one character;
* `stringBody_stringChars` — a whole text, up to its closing quote;
* `escapeChar_ascii` — what is written of it is ASCII.
-/

namespace ListQuery.Json

open ListQuery.Text

-- ---------------------------------------------------------------------------
-- Hexadecimal digits
-- ---------------------------------------------------------------------------

theorem hexDigit_mod (n : Nat) : hexDigit n = hexDigit (n % 16) := by
  rw [hexDigit, hexDigit, Nat.mod_mod]

theorem hexDigitValue?_hexDigit (n : Nat) : hexDigitValue? (hexDigit n) = some (n % 16) := by
  have hall : ∀ k < 16, hexDigitValue? (hexDigit k) = some k := by decide
  rw [hexDigit_mod]
  exact hall (n % 16) (Nat.mod_lt n (by decide))

theorem hexDigit_ascii (n : Nat) : (hexDigit n).toNat < 0x80 := by
  have hall : ∀ k < 16, (hexDigit k).toNat < 0x80 := by decide
  rw [hexDigit_mod]
  exact hall (n % 16) (Nat.mod_lt n (by decide))

theorem unitEscape_eq (n : Nat) :
    unitEscape n = ['\\', 'u', hexDigit (n / 16 / 16 / 16), hexDigit (n / 16 / 16),
      hexDigit (n / 16), hexDigit n] :=
  rfl

theorem unit?_hexDigits {n : Nat} (h : n < 0x10000) :
    unit? (hexDigit (n / 16 / 16 / 16)) (hexDigit (n / 16 / 16)) (hexDigit (n / 16))
      (hexDigit n) = some n := by
  simp only [unit?, hexDigitValue?_hexDigit, Option.bind_eq_bind, Option.bind_some]
  congr 1
  omega

-- ---------------------------------------------------------------------------
-- One character
-- ---------------------------------------------------------------------------

/-- The result with one more character before the text that was read. -/
def consRead (c : Char) (r : Except Failure (List Char × List Char)) :
    Except Failure (List Char × List Char) :=
  r.map fun (s, rest) => (c :: s, rest)

/-- A unit that is no half of a pair. -/
theorem stringBody_unit {n : Nat} (h : n < 0x10000) (hh : isHigh n = false) (hl : isLow n = false)
    (cs : List Char) :
    stringBody none (unitEscape n ++ cs) = consRead (Char.ofNat n) (stringBody none cs) := by
  have hchar : unitChar n = Char.ofNat n := by
    rw [unitChar, hh, hl]
    rfl
  rw [unitEscape_eq]
  simp only [List.cons_append, List.nil_append]
  rw [stringBody, unit?_hexDigits h]
  simp only [hh, Bool.false_eq_true, if_false, hchar]
  rfl

/-- The two halves of a pair. -/
theorem stringBody_pair {high low : Nat} (hh : isHigh high = true) (hl : isLow low = true)
    (cs : List Char) :
    stringBody none (unitEscape high ++ (unitEscape low ++ cs)) =
      consRead (pairChar high low) (stringBody none cs) := by
  have hhigh : high < 0x10000 := by
    rw [isHigh, decide_eq_true_eq] at hh
    omega
  have hlow : low < 0x10000 := by
    rw [isLow, decide_eq_true_eq] at hl
    omega
  rw [unitEscape_eq, unitEscape_eq]
  simp only [List.cons_append, List.nil_append]
  rw [stringBody, unit?_hexDigits hhigh]
  simp only [hh, if_true]
  rw [stringBody, unit?_hexDigits hlow]
  simp only [hl, if_true]
  rfl

theorem stringBody_letter {c e : Char} (hu : c ≠ 'u') (h : letterEscape? c = some e)
    (cs : List Char) : stringBody none ('\\' :: c :: cs) = consRead e (stringBody none cs) := by
  rw [stringBody]
  · rw [h]
    rfl
  · exact fun a b c' d cs' heq _ => hu heq

theorem stringBody_plain {c : Char} (hq : c ≠ '"') (hb : c ≠ '\\') (hc : ¬c.toNat < 0x20)
    (cs : List Char) : stringBody none (c :: cs) = consRead c (stringBody none cs) := by
  rw [stringBody]
  · rw [if_neg fun h => h.elim hc hb]
    rfl
  · exact fun a b c' d cs' heq _ => hb heq
  · exact fun c' cs' heq _ => hb heq
  · exact hq

/-- A character outside the basic plane is written as the two halves of a pair. -/
theorem pairChar_halves {c : Char} (h : 0x10000 ≤ c.toNat) :
    pairChar (0xD800 + (c.toNat - 0x10000) / 0x400) (0xDC00 + (c.toNat - 0x10000) % 0x400) = c := by
  have hvalue : 0x10000 + (0xD800 + (c.toNat - 0x10000) / 0x400 - 0xD800) * 0x400 +
      (0xDC00 + (c.toNat - 0x10000) % 0x400 - 0xDC00) = c.toNat := by omega
  rw [pairChar, hvalue, Char.ofNat_toNat]

theorem toNat_valid (c : Char) : c.toNat < 0xD800 ∨ 0xDFFF < c.toNat ∧ c.toNat < 0x110000 :=
  c.valid

/-- A character is read back as it was written. -/
theorem stringBody_escapeChar (c : Char) (cs : List Char) :
    stringBody none (escapeChar c ++ cs) = consRead c (stringBody none cs) := by
  rw [escapeChar]
  split_ifs with hquote hback hline hreturn htab hbackspace hfeed hplain hunit
  · subst hquote
    exact stringBody_letter (by decide) rfl cs
  · subst hback
    exact stringBody_letter (by decide) rfl cs
  · subst hline
    exact stringBody_letter (by decide) rfl cs
  · subst hreturn
    exact stringBody_letter (by decide) rfl cs
  · subst htab
    exact stringBody_letter (by decide) rfl cs
  · subst hbackspace
    exact stringBody_letter (by decide) rfl cs
  · subst hfeed
    exact stringBody_letter (by decide) rfl cs
  · exact stringBody_plain hquote hback (by omega) cs
  · have hvalid := toNat_valid c
    have hhigh : isHigh c.toNat = false := decide_eq_false (by omega)
    have hlow : isLow c.toNat = false := decide_eq_false (by omega)
    rw [stringBody_unit hunit hhigh hlow, Char.ofNat_toNat]
  · have hvalid := toNat_valid c
    have hhigh : isHigh (0xD800 + (c.toNat - 0x10000) / 0x400) = true := decide_eq_true (by omega)
    have hlow : isLow (0xDC00 + (c.toNat - 0x10000) % 0x400) = true := decide_eq_true (by omega)
    dsimp only
    rw [List.append_assoc, stringBody_pair hhigh hlow, pairChar_halves (by omega)]

-- ---------------------------------------------------------------------------
-- Whole texts
-- ---------------------------------------------------------------------------

theorem stringBody_flatMap (s rest : List Char) :
    stringBody none (s.flatMap escapeChar ++ '"' :: rest) = .ok (s, rest) := by
  induction s with
  | nil => rw [List.flatMap_nil, List.nil_append, stringBody]; rfl
  | cons c s ih =>
    rw [List.flatMap_cons, List.append_assoc, stringBody_escapeChar, ih]
    rfl

/-- A text is read back up to its closing quote. -/
theorem stringBody_stringChars (s : String) (rest : List Char) :
    ∃ body, stringChars s ++ rest = '"' :: body ∧ stringBody none body = .ok (s.toList, rest) := by
  refine ⟨s.toList.flatMap escapeChar ++ '"' :: rest, ?_, stringBody_flatMap s.toList rest⟩
  rw [stringChars]
  simp only [List.cons_append, List.append_assoc, List.nil_append]

theorem unitEscape_ascii (n : Nat) : ∀ c ∈ unitEscape n, c.toNat < 0x80 := by
  rw [unitEscape_eq]
  simp only [List.forall_mem_cons, hexDigit_ascii, true_and]
  exact ⟨by decide, by decide, fun c hc => absurd hc List.not_mem_nil⟩

theorem escapeChar_ascii (c : Char) : ∀ d ∈ escapeChar c, d.toNat < 0x80 := by
  rw [escapeChar]
  split_ifs with hquote hback hline hreturn htab hbackspace hfeed hplain hunit
  · exact List.all_iff_forall_prop.mp (by decide)
  · exact List.all_iff_forall_prop.mp (by decide)
  · exact List.all_iff_forall_prop.mp (by decide)
  · exact List.all_iff_forall_prop.mp (by decide)
  · exact List.all_iff_forall_prop.mp (by decide)
  · exact List.all_iff_forall_prop.mp (by decide)
  · exact List.all_iff_forall_prop.mp (by decide)
  · intro d hd
    rw [List.mem_singleton.mp hd]
    omega
  · exact unitEscape_ascii _
  · intro d hd
    rcases List.mem_append.mp hd with hd | hd
    · exact unitEscape_ascii _ d hd
    · exact unitEscape_ascii _ d hd

theorem stringChars_ascii (s : String) : ∀ c ∈ stringChars s, c.toNat < 0x80 := by
  intro c hc
  rw [stringChars] at hc
  rcases List.mem_append.mp hc with hc | hc
  · rcases List.mem_cons.mp hc with rfl | hc
    · decide
    · obtain ⟨d, -, hd⟩ := List.mem_flatMap.mp hc
      exact escapeChar_ascii d c hd
  · rw [List.mem_singleton] at hc
    rw [hc]
    decide

end ListQuery.Json
