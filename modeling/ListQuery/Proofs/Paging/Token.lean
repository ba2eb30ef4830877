import ListQuery.Paging.Cursor
import ListQuery.Proofs.Codec.Base64
import ListQuery.Proofs.Codec.Utf8
import ListQuery.Proofs.Json.Record

/-!
# Tokens of key values

The token of a record leads back to the entries of the record, each in the form in which a document
gives it back.

* `decode?_encode` — decoding what was encoded;
* `exists_encode` — what can be encoded.
-/

namespace ListQuery.Cursor

open Codec

theorem encode_eq_ok {v : Value} {token : String} (h : encode v = .ok token) :
    ∃ cs, Json.chars v = .ok cs ∧ token.toList = base64 (utf8 cs) := by
  obtain ⟨cs, hcs, rfl⟩ := map_eq_ok.mp h
  exact ⟨cs, hcs, String.toList_ofList⟩

theorem utf8_ne_nil {cs : List Char} (hne : cs ≠ []) (h : ∀ c ∈ cs, c.toNat < 0x80) :
    utf8 cs ≠ [] := by
  obtain ⟨c, r, rfl⟩ := List.exists_cons_of_ne_nil hne
  rw [utf8_cons_of_ascii (h c List.mem_cons_self)]
  exact List.cons_ne_nil _ _

/-- The entries of a record come back from its token, whatever their order there. -/
theorem decode?_encode {es : Entries Value} {token : String}
    (hs : ∀ e ∈ es, Json.IsScalar e.2) (hn : es.keys.Nodup)
    (h : encode (.record es) = .ok token) :
    token ≠ "" ∧ ∃ decoded : Entries Value, decode? token = .ok (some decoded) ∧
      ∀ key, decoded.get? key = (es.get? key).map Json.jsonForm := by
  obtain ⟨cs, hcs, htoken⟩ := encode_eq_ok h
  have hascii := Json.chars_record_ascii hs hcs
  have hread := Json.read_record hs hn hcs
  have hne : cs ≠ [] := by
    obtain ⟨texts, -, rfl⟩ := Json.chars_record hcs
    exact List.append_ne_nil_of_left_ne_nil (List.cons_ne_nil _ _) _
  have hempty : token ≠ "" := by
    rintro rfl
    exact base64_ne_nil (utf8_ne_nil hne hascii) htoken.symm
  refine ⟨hempty, (Json.sorted es).map fun e => (e.1, Json.jsonForm e.2), ?_, fun key => ?_⟩
  · rw [decode?, if_neg hempty, htoken, readToken_base64, Option.bind_some, strictUtf8?_utf8]
    show valuesOf? cs = _
    rw [valuesOf?, hread, Value.record]
    dsimp only
    rw [textEntries_record]
  · rw [Entries.get?_map]
    have hperm := Json.sorted_perm es
    rw [Entries.get?_perm ((hperm.map _).nodup_iff.mpr hn) hperm]

/-- A record of values that have documents has a token. -/
theorem exists_encode {es : Entries Value} (h : ∀ e ∈ es, ∃ cs, Json.chars e.2 = .ok cs) :
    ∃ token, encode (.record es) = .ok token := by
  obtain ⟨cs, hcs⟩ := Json.exists_chars_record h
  exact ⟨_, map_eq_ok.mpr ⟨cs, hcs, rfl⟩⟩

end ListQuery.Cursor
