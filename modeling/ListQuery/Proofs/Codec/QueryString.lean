import ListQuery.Codec.QueryString
import ListQuery.Proofs.Codec.Utf8
import ListQuery.Proofs.Text.Split

/-!
# Query strings read back

Every octet is written as one of three spellings that the reader tells apart, and neither of the
signs between pieces is part of a spelling. So pairs of any texts come back in order.

* `decodeOctets_encodeOctet` — one octet, whatever comes after it;
* `decodeChars_encodeChars` — one text;
* `decodeQuery_encodeQuery` — all pairs.
-/

namespace ListQuery.Codec

open ListQuery.Text

-- ---------------------------------------------------------------------------
-- Octets
-- ---------------------------------------------------------------------------

theorem hexValue?_upperHexDigit : ∀ n < 16, hexValue? (upperHexDigit n) = some n := by
  decide

/-- A sign that stands for itself is one octet, and none of the signs that mean something else. -/
theorem plainSign_octet : ∀ n < 256, isPlainSign (UInt8.ofNat n) = true →
    Char.ofNat n ∉ ['%', '+', '&', '='] ∧
      String.utf8EncodeChar (Char.ofNat n) = [UInt8.ofNat n] := by
  decide +kernel

/-- The signs between pieces are always written as something else. -/
theorem separators_notMem_encodeOctet : ∀ n < 256,
    '&' ∉ encodeOctet (UInt8.ofNat n) ∧ '=' ∉ encodeOctet (UInt8.ofNat n) := by
  decide +kernel

theorem decodeOctets_cons {c : Char} (hpercent : c ≠ '%') (hplus : c ≠ '+') (cs : List Char) :
    decodeOctets (c :: cs) = String.utf8EncodeChar c ++ decodeOctets cs := by
  rw [decodeOctets.eq_def]
  split <;> simp_all

theorem decodeOctets_percent {x y : Nat} (hx : x < 16) (hy : y < 16) (cs : List Char) :
    decodeOctets ('%' :: upperHexDigit x :: upperHexDigit y :: cs) =
      UInt8.ofNat (x * 16 + y) :: decodeOctets cs := by
  rw [decodeOctets, hexValue?_upperHexDigit x hx, hexValue?_upperHexDigit y hy]

theorem decodeOctets_encodeOctet (b : UInt8) (cs : List Char) :
    decodeOctets (encodeOctet b ++ cs) = b :: decodeOctets cs := by
  have hb := b.toNat_lt
  unfold encodeOctet
  split_ifs with hplain hspace
  · have hsign := plainSign_octet b.toNat hb
    rw [UInt8.ofNat_toNat] at hsign
    obtain ⟨hne, hoctet⟩ := hsign hplain
    simp only [List.mem_cons, not_or] at hne
    rw [List.singleton_append, decodeOctets_cons hne.1 hne.2.1, hoctet]
    rfl
  · rw [hspace]
    rfl
  · simp only [List.cons_append, List.nil_append]
    rw [decodeOctets_percent (by omega) (by omega), Nat.div_add_mod', UInt8.ofNat_toNat]

-- ---------------------------------------------------------------------------
-- Texts and pairs
-- ---------------------------------------------------------------------------

theorem decodeOctets_flatMap (bs : List UInt8) : decodeOctets (bs.flatMap encodeOctet) = bs := by
  induction bs with
  | nil => rfl
  | cons b bs ih => rw [List.flatMap_cons, decodeOctets_encodeOctet, ih]

/-- Characters survive the encoding. -/
theorem decodeChars_encodeChars (cs : List Char) : decodeChars (encodeChars cs) = cs := by
  rw [decodeChars, encodeChars, decodeOctets_flatMap, lenientUtf8_utf8]

theorem separators_notMem_encodeChars (cs : List Char) :
    '&' ∉ encodeChars cs ∧ '=' ∉ encodeChars cs := by
  have hoctet (b : UInt8) := separators_notMem_encodeOctet b.toNat b.toNat_lt
  simp only [UInt8.ofNat_toNat] at hoctet
  simp only [encodeChars, List.mem_flatMap, not_exists, not_and]
  exact ⟨fun b _ => (hoctet b).1, fun b _ => (hoctet b).2⟩

/-- A pair as a piece between two `&`. -/
def encodePair (p : String × String) : List Char :=
  encodeChars p.1.toList ++ '=' :: encodeChars p.2.toList

theorem decodePair_encodePair (p : String × String) : decodePair (encodePair p) = p := by
  rw [decodePair, encodePair, cutChars?_append (separators_notMem_encodeChars _).2]
  simp [decodeChars_encodeChars]

/-- The pairs of a query string are those from which it was made. -/
theorem decodeQuery_encodeQuery (items : List (String × String)) :
    decodeQuery (encodeQuery items) = items := by
  have hpieces : ∀ piece ∈ items.map encodePair, '&' ∉ piece ∧ piece ≠ [] := by
    intro piece hpiece
    obtain ⟨p, -, rfl⟩ := List.mem_map.mp hpiece
    have hkey := (separators_notMem_encodeChars p.1.toList).1
    have hvalue := (separators_notMem_encodeChars p.2.toList).1
    simp [encodePair, hkey, hvalue]
  rw [decodeQuery, encodeQuery, String.toList_ofList]
  show ((splitChars '&' (List.intercalate ['&'] (items.map encodePair))).filter _).map _ = _
  by_cases hne : items = []
  · subst hne
    rfl
  · have hsplit : splitChars '&' (List.intercalate ['&'] (items.map encodePair)) =
        items.map encodePair :=
      splitChars_intercalate (by simpa using hne) fun piece hpiece => (hpieces piece hpiece).1
    have hkept : (items.map encodePair).filter (· ≠ []) = items.map encodePair :=
      List.filter_eq_self.mpr fun piece hpiece => decide_eq_true (hpieces piece hpiece).2
    rw [hsplit, hkept, List.map_map]
    calc _ = items.map id := List.map_congr_left fun p _ => decodePair_encodePair p
      _ = items := List.map_id items

end ListQuery.Codec
