import ListQuery.Proofs.Failure
import ListQuery.Proofs.Json.Scalar
import ListQuery.Proofs.Value.Entries

/-!
# Records in documents

A record of such values is written with its entries in the order of their keys, and its document is
read back as a record of the same entries. The order does not show where entries are looked up.

* `read_parts` — values or entries up to the closing bracket;
* `value_list`, `value_record` — what stands between brackets;
* `spells_record` — a record of values of any depth;
* `read_record` — the document of a record of words, numbers and texts.
-/

namespace ListQuery

namespace Json

open Number

-- ---------------------------------------------------------------------------
-- Texts one after the other
-- ---------------------------------------------------------------------------

/-- The first of several texts, with the comma and the others after it. -/
theorem intercalate_append (text text' : List Char) (texts : List (List Char)) (rest : List Char) :
    List.intercalate [','] (text :: text' :: texts) ++ rest =
      text ++ ',' :: (List.intercalate [','] (text' :: texts) ++ rest) := by
  rw [List.intercalate_cons_cons, List.append_assoc, List.append_assoc, List.singleton_append]

theorem length_intercalate (text text' : List Char) (texts : List (List Char)) :
    (List.intercalate [','] (text :: text' :: texts)).length =
      text.length + 1 + (List.intercalate [','] (text' :: texts)).length := by
  rw [List.intercalate_cons_cons, List.length_append, List.length_append, List.length_singleton]

/-- Texts one after the other begin with the first of them. -/
theorem intercalate_begins {text : List Char} {P : Char → Prop}
    (h : ∃ c r, text = c :: r ∧ P c) (texts : List (List Char)) (rest : List Char) :
    ∃ c r, List.intercalate [','] (text :: texts) ++ rest = c :: r ∧ P c := by
  obtain ⟨c, r, rfl, hc⟩ := h
  cases texts with
  | nil => exact ⟨c, r ++ rest, by rw [List.intercalate_singleton]; rfl, hc⟩
  | cons text' texts => exact ⟨c, _, by rw [intercalate_append]; rfl, hc⟩

theorem bracketed_append (left right : Char) (texts : List (List Char)) (rest : List Char) :
    bracketed left right texts ++ rest =
      left :: (List.intercalate [','] texts ++ right :: rest) := by
  rw [bracketed, List.cons_append, List.cons_append, List.append_assoc, List.singleton_append]

theorem length_bracketed (left right : Char) (texts : List (List Char)) :
    (bracketed left right texts).length = (List.intercalate [','] texts).length + 2 := by
  rw [bracketed, List.length_append, List.length_cons, List.length_singleton]

-- ---------------------------------------------------------------------------
-- Parts between brackets
-- ---------------------------------------------------------------------------

/-- What a reader of parts up to a closing bracket makes of one text: the part, if it is one, before
those that follow a comma, or as the last. -/
structure TakesPart {α : Type} (reader : Nat → List Char → Except Failure (List α × List Char))
    (right : Char) (text : List Char) (part : Except Failure α) : Prop where
  begins : ∃ c r, text = c :: r ∧ isJsonBlank c = false ∧ c ≠ right
  comma  : ∀ fuel r, text.length < fuel → reader (fuel + 1) (text ++ ',' :: r) =
    part.bind fun a => (reader fuel (skipBlank r)).map fun (as, r) => (a :: as, r)
  last   : ∀ fuel r, text.length < fuel →
    reader (fuel + 1) (text ++ right :: r) = part.map fun a => ([a], r)

/-- Parts up to the closing bracket: all of them, or the first failure. -/
theorem read_parts {α β : Type} {reader : Nat → List Char → Except Failure (List α × List Char)}
    {right : Char} {f : β → Except Failure α} {bs : List β} {texts : List (List Char)}
    (h : List.Forall₂ (fun b text => TakesPart reader right text (f b)) bs texts) (hne : bs ≠ [])
    {fuel : Nat} (hf : (List.intercalate [','] texts).length + 1 < fuel) (rest : List Char) :
    reader fuel (List.intercalate [','] texts ++ right :: rest) =
      (bs.mapM f).map fun as => (as, rest) := by
  induction h generalizing fuel with
  | nil => exact absurd rfl hne
  | @cons b text bs texts hb hbs ih =>
    obtain ⟨fuel, rfl⟩ : ∃ k, fuel = k + 1 := ⟨fuel - 1, by omega⟩
    rw [List.mapM_cons]
    cases hbs with
    | nil =>
      rw [List.intercalate_singleton] at hf ⊢
      rw [hb.last fuel rest (by omega)]
      cases f b <;> rfl
    | @cons b' text' bs texts hb' hbs =>
      rw [length_intercalate] at hf
      obtain ⟨c, r, hr, hc, -⟩ := intercalate_begins hb'.begins texts (right :: rest)
      have hrest := @ih (List.cons_ne_nil _ _) fuel (by omega)
      rw [intercalate_append, hb.comma fuel _ (by omega), hr, skipBlank_cons hc, ← hr, hrest]
      cases f b with
      | error e => rfl
      | ok a => cases (b' :: bs).mapM f <;> rfl

/-- What stands after the opening bracket when there are parts. -/
theorem exists_bracketed {α β : Type}
    {reader : Nat → List Char → Except Failure (List α × List Char)} (left : Char) {right : Char}
    {f : β → Except Failure α} {bs : List β} {texts : List (List Char)}
    (h : List.Forall₂ (fun b text => TakesPart reader right text (f b)) bs texts) (hne : bs ≠ [])
    {fuel : Nat} (hf : (bracketed left right texts).length ≤ fuel) (rest : List Char) :
    ∃ cs, bracketed left right texts ++ rest = left :: cs ∧ skipBlank cs = cs ∧
      (∀ r, cs ≠ right :: r) ∧ reader fuel cs = (bs.mapM f).map fun as => (as, rest) := by
  rw [length_bracketed] at hf
  have hparts := read_parts h hne (by omega : _ < fuel) rest
  cases h with
  | nil => exact absurd rfl hne
  | @cons b text bs texts hb hbs =>
    obtain ⟨c, r, hr, hc, hright⟩ := intercalate_begins hb.begins texts (right :: rest)
    refine ⟨_, bracketed_append left right _ rest, ?_, fun r' heq => ?_, hparts⟩
    · rw [hr, skipBlank_cons hc]
    · exact hright (List.cons.inj (hr.symm.trans heq)).1

section Values

variable {room : Nat} {text : List Char} {part : Except Failure Value}

/-- A value is a part of a list. -/
theorem takesPart_items (hbegins : ∃ c r, text = c :: r ∧ isJsonBlank c = false ∧ c ≠ ']')
    (h : ∀ fuel rest, text.length < fuel → EndsValue rest →
      value room fuel (text ++ rest) = part.map fun v => (v, rest)) :
    TakesPart (items room) ']' text part where
  begins := hbegins
  comma fuel r hf := by
    rw [items, h fuel _ hf (endsValue_comma r)]
    cases part <;> rfl
  last fuel r hf := by
    rw [items, h fuel _ hf (endsValue_bracket r)]
    cases part <;> rfl

/-- What is done after an entry. -/
def afterEntry (room fuel : Nat) (e : String × Value) (rest : List Char) :
    Except Failure (Entries Value × List Char) :=
  match rest with
  | ',' :: r    => (entries room fuel (skipBlank r)).map fun (es, r) => (e :: es, r)
  | '\x7d' :: r => .ok ([e], r)
  | _           => .error .notDocument

theorem afterEntry_eq_error {fuel : Nat} {e : String × Value} {rest : List Char}
    (hcomma : ∀ r, rest = ',' :: r → False) (hbrace : ∀ r, rest = '\x7d' :: r → False) :
    afterEntry room fuel e rest = .error .notDocument := by
  unfold afterEntry
  split
  case h_1 r => exact absurd rfl (hcomma r)
  case h_2 r => exact absurd rfl (hbrace r)
  case h_3 => rfl

section
variable (key : String) (hbegins : ∃ c r, text = c :: r ∧ isJsonBlank c = false)
  (h : ∀ fuel rest, text.length < fuel → EndsValue rest →
    value room fuel (text ++ rest) = part.map fun v => (v, rest))

include hbegins h

theorem entries_entry {fuel : Nat} {rest : List Char}
    (hf : (stringChars key ++ ':' :: text).length < fuel) (hr : EndsValue rest) :
    entries room (fuel + 1) (stringChars key ++ ':' :: text ++ rest) =
      part.bind fun v => afterEntry room fuel (key, v) rest := by
  obtain ⟨body, hbody, hstring⟩ := stringBody_stringChars key (':' :: (text ++ rest))
  have hlength : text.length < fuel := by
    rw [List.length_append, List.length_cons] at hf
    omega
  have hcolon : skipBlank (':' :: (text ++ rest)) = ':' :: (text ++ rest) := rfl
  rw [List.append_assoc, List.cons_append, hbody, entries]
  simp only [hstring, bind, Except.bind, hcolon, skipBlank_of_begins hbegins,
    h fuel rest hlength hr, String.ofList_toList]
  cases part with
  | error e => rfl
  | ok v =>
    simp only [Except.map, skipBlank_of_endsValue hr]
    split
    case h_1 r =>
      show _ = (entries room fuel (skipBlank r)).map _
      cases entries room fuel (skipBlank r) <;> rfl
    case h_2 r => rfl
    case h_3 hcomma hbrace => exact (afterEntry_eq_error hcomma hbrace).symm

/-- A value after a key and a colon is a part of a record. -/
theorem takesPart_entries :
    TakesPart (entries room) '\x7d' (stringChars key ++ ':' :: text)
      (part.map fun v => (key, v)) where
  begins := ⟨'"', _, rfl, rfl, by decide⟩
  comma fuel r hf := by
    rw [entries_entry key hbegins h hf (endsValue_comma r)]
    cases part <;> rfl
  last fuel r hf := by
    rw [entries_entry key hbegins h hf (endsValue_brace r)]
    cases part <;> rfl

end

/-- A list from what is read between its brackets. -/
theorem value_list {β : Type} {f : β → Except Failure Value} {bs : List β}
    {texts : List (List Char)}
    (h : List.Forall₂ (fun b text => TakesPart (items room) ']' text (f b)) bs texts) {fuel : Nat}
    (hf : (bracketed '[' ']' texts).length ≤ fuel) (rest : List Char) :
    value (room + 1) (fuel + 1) (bracketed '[' ']' texts ++ rest) =
      (bs.mapM f).map fun vs => (.list vs, rest) := by
  by_cases hne : bs = []
  · subst hne
    cases h
    rfl
  · obtain ⟨cs, hcs, hblank, hright, hread⟩ := exists_bracketed '[' h hne hf rest
    rw [hcs, value, if_neg (Nat.succ_ne_zero room), hblank]
    split
    case h_1 r => exact absurd rfl (hright r)
    case h_2 =>
      rw [Nat.add_sub_cancel, hread]
      cases bs.mapM f <;> rfl

/-- A record from what is read between its braces. -/
theorem value_record {β : Type} {f : β → Except Failure (String × Value)} {bs : List β}
    {texts : List (List Char)}
    (h : List.Forall₂ (fun b text => TakesPart (entries room) '\x7d' text (f b)) bs texts)
    {fuel : Nat} (hf : (bracketed '\x7b' '\x7d' texts).length ≤ fuel) (rest : List Char) :
    value (room + 1) (fuel + 1) (bracketed '\x7b' '\x7d' texts ++ rest) =
      (bs.mapM f).map fun es => (.record (Entries.ofList es), rest) := by
  by_cases hne : bs = []
  · subst hne
    cases h
    rfl
  · obtain ⟨cs, hcs, hblank, hright, hread⟩ := exists_bracketed '\x7b' h hne hf rest
    rw [hcs, value, if_neg (Nat.succ_ne_zero room), hblank]
    split
    case h_1 r => exact absurd rfl (hright r)
    case h_2 =>
      rw [Nat.add_sub_cancel, hread]
      cases bs.mapM f <;> rfl

end Values

/-- The text of an entry. -/
def IsEntry (depth : Nat) (e : String × Value) (text : List Char) : Prop :=
  ∃ cs, text = stringChars e.1 ++ ':' :: cs ∧ Spells depth cs e.2

theorem IsEntry.takesPart {depth room : Nat} {e : String × Value} {text : List Char}
    (h : IsEntry depth e text) (hd : depth ≤ room) :
    TakesPart (entries room) '\x7d' text (.ok e) := by
  obtain ⟨cs, rfl, hcs⟩ := h
  have hreads : ∀ fuel rest, cs.length < fuel → EndsValue rest →
      value room fuel (cs ++ rest) = (Except.ok e.2).map fun v => (v, rest) :=
    fun fuel rest => hcs.reads room fuel rest hd
  exact takesPart_entries e.1 hcs.begins hreads

/-- The document of a record, from the texts of its entries. -/
theorem spells_record {depth : Nat} {es : Entries Value} {texts : List (List Char)}
    (h : List.Forall₂ (IsEntry depth) es texts) (hn : es.keys.Nodup) :
    Spells (depth + 1) (bracketed '\x7b' '\x7d' texts) (.record es) := by
  refine ⟨⟨'\x7b', _, rfl, rfl⟩, fun room fuel rest hd hf hr => ?_⟩
  obtain ⟨fuel, rfl⟩ : ∃ k, fuel = k + 1 := ⟨fuel - 1, by omega⟩
  obtain ⟨room, rfl⟩ : ∃ k, room = k + 1 := ⟨room - 1, by omega⟩
  have hparts := h.imp fun e text he => he.takesPart (by omega : _ ≤ room)
  rw [value_record hparts (by omega), mapM_ok, List.map_id']
  exact congrArg (fun es => Except.ok (Value.record es, rest)) (Entries.ofList_of_nodup hn)

-- ---------------------------------------------------------------------------
-- Writing records
-- ---------------------------------------------------------------------------

/-- The text of an entry, if its value has a document. -/
def entryText (e : String × Value) : Except Failure (List Char) :=
  (chars e.2).map fun cs => stringChars e.1 ++ ':' :: cs

theorem entryChars_record (es : Entries Value) :
    entryChars (es.map fun e => (.text e.1, e.2)) =
      es.map fun e => (.text e.1, entryText e) := by
  induction es with
  | nil => rw [List.map_nil, entryChars]; rfl
  | cons e es ih =>
    rw [List.map_cons, entryChars, ih, List.map_cons, entryText]
    cases hc : chars e.2 <;> rfl

/-- Entries with text keys in the order of their keys. -/
def sorted (es : Entries Value) : Entries Value :=
  es.mergeSort fun a b => keyLe (.text a.1) (.text b.1)

theorem sorted_perm (es : Entries Value) : (sorted es).Perm es := List.mergeSort_perm _ _

/-- The document of a record is made of the texts of its entries in the order of their keys. -/
theorem chars_record_eq (es : Entries Value) :
    chars (.record es) = ((sorted es).mapM entryText).map (bracketed '\x7b' '\x7d') := by
  have hkeys : areSortable ((es.map fun e => (Value.text e.1, e.2)).map (·.1)) = true := by
    rw [areSortable, Bool.or_eq_true, Bool.or_eq_true]
    refine Or.inl (Or.inr ?_)
    rw [List.map_map, List.all_map]
    exact List.all_eq_true.mpr fun _ _ => rfl
  have hsort : sortByKey (es.map fun e => (Value.text e.1, entryText e)) =
      (sorted es).map fun e => (Value.text e.1, entryText e) :=
    (List.map_mergeSort (l := es) (r := fun a b : String × Value => keyLe (.text a.1) (.text b.1))
      (s := fun a b : Value × Except Failure (List Char) => keyLe a.1 b.1)
      (f := fun e => (Value.text e.1, entryText e)) fun _ _ _ _ => rfl).symm
  rw [Value.record, chars, if_pos hkeys, entryChars_record, hsort, firstFailure, List.mapM_map]
  rfl

theorem chars_record {es : Entries Value} {cs : List Char} (h : chars (.record es) = .ok cs) :
    ∃ texts, List.Forall₂ (fun e text => entryText e = .ok text) (sorted es) texts ∧
      cs = bracketed '\x7b' '\x7d' texts := by
  rw [chars_record_eq] at h
  obtain ⟨texts, htexts, rfl⟩ := map_eq_ok.mp h
  exact ⟨texts, mapM_eq_ok.mp htexts, rfl⟩

/-- A record of values that have documents has one. -/
theorem exists_chars_record {es : Entries Value} (h : ∀ e ∈ es, ∃ cs, chars e.2 = .ok cs) :
    ∃ cs, chars (.record es) = .ok cs := by
  have htexts : ∀ e ∈ sorted es, ∃ text, entryText e = .ok text := by
    intro e he
    obtain ⟨cs, hcs⟩ := h e ((sorted_perm es).mem_iff.mp he)
    exact ⟨_, map_eq_ok.mpr ⟨cs, hcs, rfl⟩⟩
  obtain ⟨texts, htexts⟩ := exists_mapM_eq_ok.mpr htexts
  rw [chars_record_eq]
  exact ⟨_, map_eq_ok.mpr ⟨texts, htexts, rfl⟩⟩

/-- A word, number or text has a document, unless it is an integer of too many digits. -/
theorem exists_chars {v : Value} (hv : IsScalar v)
    (hint : ∀ n, v = .int n → digitCount n.natAbs ≤ maxIntegerDigits) : ∃ cs, chars v = .ok cs := by
  cases v with
  | int n => simp [chars, integerChars, hint n rfl]
  | list vs => exact absurd hv id
  | map es => exact absurd hv id
  | _ => simp [chars]

/-- A document is read as its characters are read in front of nothing. -/
theorem read_of_value {cs : List Char} {part : Except Failure Value}
    (hbegins : ∃ c r, cs = c :: r ∧ isJsonBlank c = false)
    (h : value maxDepth (cs.length + 1) (cs ++ []) = part.map fun v => (v, [])) :
    read cs = part := by
  have hblank := skipBlank_of_begins hbegins []
  rw [List.append_nil] at h hblank
  rw [read, hblank, h]
  cases part <;> rfl

theorem read_spells {depth : Nat} {cs : List Char} {v : Value} (h : Spells depth cs v)
    (hd : depth ≤ maxDepth) : read cs = .ok v :=
  read_of_value h.begins (h.reads maxDepth _ [] hd (Nat.lt_succ_self _) endsValue_nil)

/-- The document of a record of words, numbers and texts is read as a record of the same entries. -/
theorem read_record {es : Entries Value} {cs : List Char} (hs : ∀ e ∈ es, IsScalar e.2)
    (hn : es.keys.Nodup) (h : chars (.record es) = .ok cs) :
    read cs = .ok (.record ((sorted es).map fun e => (e.1, jsonForm e.2))) := by
  obtain ⟨texts, htexts, rfl⟩ := chars_record h
  have hentries : List.Forall₂ (IsEntry 0) ((sorted es).map fun e => (e.1, jsonForm e.2)) texts := by
    rw [List.forall₂_map_left_iff]
    have hall := (List.forall₂_and_left (p := fun e : String × Value => IsScalar e.2) _ _).mpr
      ⟨fun e he => hs e ((sorted_perm es).mem_iff.mp he), htexts⟩
    refine hall.imp fun e text he => ?_
    obtain ⟨cs, hcs, rfl⟩ := map_eq_ok.mp he.2
    exact ⟨cs, rfl, spells_chars he.1 hcs⟩
  refine read_spells (spells_record hentries ?_) (by decide)
  rw [Entries.keys_map]
  exact ((sorted_perm es).map _).nodup_iff.mpr hn

-- ---------------------------------------------------------------------------
-- Documents are ASCII
-- ---------------------------------------------------------------------------

theorem chars_ascii {v : Value} {cs : List Char} (hv : IsScalar v) (h : chars v = .ok cs) :
    ∀ c ∈ cs, c.toNat < 0x80 := by
  have hplain : ∀ {ds : List Char}, IsPlain ds → ∀ c ∈ ds, c.toNat < 0x80 := fun hds c hc =>
    (numberSigns_plain c (hds c hc)).2.2.1
  cases v with
  | list vs => exact absurd hv id
  | map es => exact absurd hv id
  | null =>
    rw [chars] at h
    obtain rfl := Except.ok.inj h
    exact List.all_iff_forall_prop.mp (by decide)
  | bool b =>
    rw [chars] at h
    obtain rfl := Except.ok.inj h
    cases b <;> exact List.all_iff_forall_prop.mp (by decide)
  | int n =>
    rw [chars, integerChars] at h
    split at h
    case isFalse => cases h
    case isTrue =>
      obtain rfl := Except.ok.inj h
      rw [intChars]
      split
      · exact hplain (isPlain_cons (by decide) (isPlain_of_areDigits (areDigits_natChars _)))
      · exact hplain (isPlain_of_areDigits (areDigits_natChars _))
  | float d =>
    rw [chars] at h
    obtain rfl := Except.ok.inj h
    cases d with
    | nan => exact List.all_iff_forall_prop.mp (by decide)
    | infinite negative => cases negative <;> exact List.all_iff_forall_prop.mp (by decide)
    | finite negative m e hc => exact hplain (Double.isPlain_text (.finite negative m e hc))
  | text s =>
    rw [chars] at h
    obtain rfl := Except.ok.inj h
    exact stringChars_ascii s
  | decimal d | date d | time d | timestamp d =>
    simp only [chars] at h
    obtain rfl := Except.ok.inj h
    exact stringChars_ascii _

theorem bracketed_ascii {left right : Char} {texts : List (List Char)} (hleft : left.toNat < 0x80)
    (hright : right.toNat < 0x80) (h : ∀ text ∈ texts, ∀ c ∈ text, c.toNat < 0x80) :
    ∀ c ∈ bracketed left right texts, c.toNat < 0x80 := by
  have hjoined : ∀ c ∈ List.intercalate [','] texts, c.toNat < 0x80 := by
    induction texts with
    | nil => exact fun c hc => absurd hc List.not_mem_nil
    | cons t texts ih =>
      cases texts with
      | nil =>
        rw [List.intercalate_singleton]
        exact h t List.mem_cons_self
      | cons t' texts =>
        rw [List.intercalate_cons_cons]
        intro c hc
        rcases List.mem_append.mp hc with hc | hc
        · rcases List.mem_append.mp hc with hc | hc
          · exact h t List.mem_cons_self c hc
          · rw [List.mem_singleton.mp hc]
            decide
        · exact ih (fun u hu => h u (List.mem_cons_of_mem t hu)) c hc
  intro c hc
  rw [bracketed] at hc
  rcases List.mem_append.mp hc with hc | hc
  · rcases List.mem_cons.mp hc with rfl | hc
    · exact hleft
    · exact hjoined c hc
  · rw [List.mem_singleton.mp hc]
    exact hright

/-- The document of a record is ASCII where the documents of its values are. -/
theorem record_ascii {es : Entries Value} {cs : List Char}
    (hs : ∀ e ∈ es, ∀ ds, chars e.2 = .ok ds → ∀ c ∈ ds, c.toNat < 0x80)
    (h : chars (.record es) = .ok cs) : ∀ c ∈ cs, c.toNat < 0x80 := by
  obtain ⟨texts, htexts, rfl⟩ := chars_record h
  refine bracketed_ascii (by decide) (by decide) fun text hmem c hc => ?_
  obtain ⟨e, he, heq⟩ := exists_of_mem_forall₂ htexts hmem
  obtain ⟨ds, hds, rfl⟩ := map_eq_ok.mp heq
  rcases List.mem_append.mp hc with hc | hc
  · exact stringChars_ascii _ c hc
  · rcases List.mem_cons.mp hc with rfl | hc
    · decide
    · exact hs e ((sorted_perm es).mem_iff.mp he) ds hds c hc

theorem chars_record_ascii {es : Entries Value} {cs : List Char} (hs : ∀ e ∈ es, IsScalar e.2)
    (h : chars (.record es) = .ok cs) : ∀ c ∈ cs, c.toNat < 0x80 :=
  record_ascii (fun e he _ hds => chars_ascii (hs e he) hds) h

end Json

end ListQuery
