import ListQuery.Calendar.Printing
import ListQuery.Calendar.Reading
import ListQuery.Proofs.Number.DecimalText

/-!
# Dates and timestamps read back

Each number of the extended form has a fixed width, so the readers find the same numbers again. The
one thing that is lost is an offset of less than a second: it is written, but it is read as none.

* `readDate_text` — every date is read back from its text;
* `Timestamp.readTimestamp_textWith` — and every timestamp whose offset is spellable;
* `Timestamp.readTimestamp_textWith_of_not` — what is read of the others.
-/

namespace ListQuery.Calendar

open ListQuery.Number

-- ---------------------------------------------------------------------------
-- Numbers of a fixed width
-- ---------------------------------------------------------------------------

/-- A number of a fixed width is read back, whatever follows it. -/
theorem takeDigits_padded {w n : Nat} (hw : 0 < w) (h : n < 10 ^ w) (rest : List Char) :
    takeDigits w (padded w n ++ rest) = some (n, rest) := by
  have hlen : (padded w n).length = w := length_padded hw h
  have htake : (padded w n ++ rest).take w = padded w n := List.take_left' hlen
  have hdrop : (padded w n ++ rest).drop w = rest := List.drop_left' hlen
  rw [takeDigits, htake, hdrop, digitsValue_padded]
  exact if_pos ⟨hlen, areDigits_all (areDigits_padded w n)⟩

theorem padded_eq_cons (w n : Nat) : ∃ d r, padded w n = d :: r ∧ isAsciiDigit d = true := by
  obtain ⟨d, r, h⟩ := List.exists_cons_of_ne_nil (padded_ne_nil w n)
  exact ⟨d, r, h, areDigits_padded w n d (h ▸ List.mem_cons_self)⟩

/-- A number of a fixed width begins with a digit, so with no other sign. -/
theorem peek_padded_ne (w n : Nat) (rest : List Char) {c : Char} (hc : isAsciiDigit c = false) :
    peek (padded w n ++ rest) ≠ c := by
  obtain ⟨d, r, h, hd⟩ := padded_eq_cons w n
  rw [h]
  intro heq
  have : d = c := heq
  rw [this, hc] at hd
  exact Bool.noConfusion hd

-- ---------------------------------------------------------------------------
-- Octets
-- ---------------------------------------------------------------------------

/-- The signs of dates and times are single octets and no blanks. -/
def IsVisible (cs : List Char) : Prop := ∀ c ∈ cs, c.toNat < 0x80 ∧ Text.isBlank c = false

theorem isVisible_append {a b : List Char} (ha : IsVisible a) (hb : IsVisible b) :
    IsVisible (a ++ b) := by
  intro c hc
  rcases List.mem_append.mp hc with h | h
  · exact ha c h
  · exact hb c h

theorem isVisible_cons {c : Char} {cs : List Char}
    (hc : c.toNat < 0x80 ∧ Text.isBlank c = false) (h : IsVisible cs) :
    IsVisible (c :: cs) := by
  intro d hd
  rcases List.mem_cons.mp hd with rfl | hd
  · exact hc
  · exact h d hd

theorem isVisible_nil : IsVisible [] := fun _ hc => absurd hc List.not_mem_nil

theorem isVisible_padded (w n : Nat) : IsVisible (padded w n) := by
  intro c hc
  have hplain := numberSigns_plain c (isPlain_of_areDigits (areDigits_padded w n) c hc)
  exact ⟨hplain.2.2.1, hplain.1⟩

theorem octets_of_ascii {cs : List Char} (h : ∀ c ∈ cs, c.toNat < 0x80) : octets cs = cs := by
  induction cs with
  | nil => rfl
  | cons c cs ih =>
    have htail : octets cs = cs := ih fun d hd => h d (List.mem_cons_of_mem c hd)
    rw [octets] at htail
    rw [octets, List.flatMap_cons, if_pos (h c List.mem_cons_self), htail]
    rfl

theorem isVisible_fractionChars (micro : Nat) : IsVisible (fractionChars micro) := by
  rw [fractionChars]
  split
  · exact isVisible_nil
  · exact isVisible_cons (by decide) (isVisible_padded 6 _)

theorem octets_of_isVisible {cs : List Char} (h : IsVisible cs) : octets cs = cs :=
  octets_of_ascii fun c hc => (h c hc).1

-- ---------------------------------------------------------------------------
-- Dates
-- ---------------------------------------------------------------------------

namespace Date

variable (d : Date)

theorem year_lt : d.year < 10 ^ 4 := by
  have := d.valid.2.1
  omega

theorem month_lt : d.month < 10 ^ 2 := by
  have := d.valid.2.2.2.1
  omega

theorem day_lt : d.day < 10 ^ 2 := by
  have h := d.valid.2.2.2.2.2
  have hdays : daysIn d.year d.month ≤ 31 := by
    rw [daysIn]
    split
    · split <;> omega
    · split <;> omega
  omega

theorem ofParts?_self : Date.ofParts? d.year d.month d.day = some d := dif_pos d.valid

theorem chars_eq :
    d.chars = padded 4 d.year ++ '-' :: (padded 2 d.month ++ '-' :: padded 2 d.day) := by
  rw [chars, List.append_assoc, List.cons_append]

theorem length_chars : d.chars.length = 10 := by
  rw [chars_eq, List.length_append, length_padded (by decide) d.year_lt, List.length_cons,
    List.length_append, length_padded (by decide) d.month_lt, List.length_cons,
    length_padded (by decide) d.day_lt]

theorem isVisible_chars : IsVisible d.chars := by
  rw [chars_eq]
  exact isVisible_append (isVisible_padded 4 _) (isVisible_cons (by decide)
    (isVisible_append (isVisible_padded 2 _) (isVisible_cons (by decide) (isVisible_padded 2 _))))

end Date

theorem readDateOctets_chars (d : Date) : readDateOctets d.chars = some d := by
  have hday : takeDigits 2 (padded 2 d.day) = some (d.day, []) := by
    have h := takeDigits_padded (by decide) d.day_lt []
    rwa [List.append_nil] at h
  have hweek : peek (padded 2 d.month ++ '-' :: padded 2 d.day) ≠ 'W' :=
    peek_padded_ne 2 _ _ rfl
  have hdash : ∀ cs, (peek ('-' :: cs) == '-') = true := fun _ => rfl
  rw [readDateOctets, d.chars_eq, takeDigits_padded (by decide) d.year_lt]
  simp only [Option.bind_eq_bind, Option.bind_some, hdash, if_true, List.tail_cons, if_neg hweek,
    takeDigits_padded (by decide : 0 < 2) d.month_lt]
  show (takeDigits 2 (padded 2 d.day)).bind _ = _
  rw [hday]
  exact d.ofParts?_self

theorem Date.trim_text (d : Date) : Text.trim d.text = d.text :=
  trim_eq_self fun c hc => (d.isVisible_chars c (by rwa [Date.text, String.toList_ofList] at hc)).2

/-- Every date is read back from its text. -/
theorem readDate_text (d : Date) : readDate d.text = some d := by
  rw [readDate, Date.text, String.toList_ofList, octets_of_isVisible d.isVisible_chars]
  exact (if_pos (Or.inr (Or.inr d.length_chars))).trans (readDateOctets_chars d)

-- ---------------------------------------------------------------------------
-- Numbers between colons
-- ---------------------------------------------------------------------------

/-- A number and the colon after it. -/
theorem readNumbers_colon {k v : Nat} {followed : Bool} {done : List Nat} {rest : List Char}
    (hv : v < 10 ^ 2) (hrest : rest ≠ []) :
    readNumbers true followed (k + 1) done (padded 2 v ++ ':' :: rest) =
      readNumbers true followed k (done ++ [v]) rest := by
  rw [readNumbers, takeDigits_padded (by decide) hv]
  have hcolons : (if k = 2 then (':' == ':') else true) = true := by
    split <;> rfl
  simp only [Option.bind_eq_bind, Option.bind_some, hcolons, if_neg hrest, and_self, if_true]

/-- The last number when nothing follows it. -/
theorem readNumbers_last {k v : Nat} {followed : Bool} {done : List Nat} (hv : v < 10 ^ 2) :
    readNumbers true followed (k + 1) done (padded 2 v) = some (done ++ [v], 0, followed) := by
  have h := takeDigits_padded (by decide) hv []
  rw [List.append_nil] at h
  rw [readNumbers, h]
  rfl

theorem readFraction_padded {micro : Nat} {followed : Bool} (h : micro < 10 ^ 6) :
    readFraction (padded 6 micro) followed = some (micro, followed) := by
  have hlen : (padded 6 micro).length = 6 := length_padded (by decide) h
  have htake := takeDigits_padded (by decide) h []
  rw [List.append_nil] at htake
  rw [readFraction, hlen]
  show (takeDigits 6 (padded 6 micro)).bind _ = _
  rw [htake]
  show some (micro * 10 ^ 0, followed) = _
  rw [Nat.pow_zero, Nat.mul_one]

/-- The last number with the fraction of a second, if there is one. -/
theorem readNumbers_second {v micro : Nat} {followed : Bool} {done : List Nat} (hv : v < 10 ^ 2)
    (hm : micro < 10 ^ 6) :
    readNumbers true followed 1 done (padded 2 v ++ fractionChars micro) =
      some (done ++ [v], micro, followed) := by
  rw [fractionChars]
  split
  case isTrue h =>
    rw [List.append_nil, h]
    exact readNumbers_last hv
  case isFalse h =>
    have hrest : padded 6 micro ≠ [] := padded_ne_nil 6 micro
    rw [readNumbers, takeDigits_padded (by decide) hv]
    simp only [Option.bind_eq_bind, Option.bind_some, if_neg hrest]
    show (readFraction (padded 6 micro) followed).map _ = _
    rw [readFraction_padded hm]
    rfl

theorem readParts_clock {hour minute second micro : Nat} {followed : Bool} (hh : hour < 10 ^ 2)
    (hm : minute < 10 ^ 2) (hs : second < 10 ^ 2) (hu : micro < 10 ^ 6) :
    readParts (padded 2 hour ++ ':' :: (padded 2 minute ++ ':' :: (padded 2 second ++
      fractionChars micro))) followed = some (⟨hour, minute, second, micro⟩, followed) := by
  have hsecond : padded 2 second ++ fractionChars micro ≠ [] := fun h =>
    padded_ne_nil 2 second (List.append_eq_nil_iff.mp h).1
  have hminute : padded 2 minute ++ ':' :: (padded 2 second ++ fractionChars micro) ≠ [] := fun h =>
    padded_ne_nil 2 minute (List.append_eq_nil_iff.mp h).1
  rw [readParts, readNumbers_colon hh hminute, readNumbers_colon hm hsecond,
    readNumbers_second hs hu]
  rfl

theorem readParts_minutes {hour minute : Nat} {followed : Bool} (hh : hour < 10 ^ 2)
    (hm : minute < 10 ^ 2) :
    readParts (padded 2 hour ++ ':' :: padded 2 minute) followed =
      some (⟨hour, minute, 0, 0⟩, followed) := by
  rw [readParts, readNumbers_colon hh (padded_ne_nil 2 minute), readNumbers_last hm]
  rfl

-- ---------------------------------------------------------------------------
-- Offsets
-- ---------------------------------------------------------------------------

namespace Offset

variable (o : Offset)

/-- Offsets of a second or more, and none at all: those whose text says what they are. -/
def IsSpellable : Prop := o.micros = 0 ∨ 1000000 ≤ o.micros.natAbs

instance : Decidable o.IsSpellable := by unfold IsSpellable; infer_instance

/-- The characters after the sign. -/
def bodyChars : List Char :=
  let n := o.micros.natAbs
  let seconds := n / 1000000
  let micro := n % 1000000
  padded 2 (seconds / 3600) ++ ':' :: (padded 2 (seconds / 60 % 60) ++
    (if seconds % 60 = 0 ∧ micro = 0 then []
      else ':' :: (padded 2 (seconds % 60) ++ fractionChars micro)))

theorem chars_eq : o.chars = (if o.micros < 0 then '-' else '+') :: o.bodyChars := by
  rw [chars, bodyChars]
  simp only [List.cons_append, List.append_assoc]

theorem readParts_bodyChars :
    ∃ hour minute second micro : Nat,
      readParts o.bodyChars false = some (⟨hour, minute, second, micro⟩, false) ∧
        (hour * 60 + minute) * 60 + second = o.micros.natAbs / 1000000 ∧
        micro = o.micros.natAbs % 1000000 := by
  have hbound := o.valid
  rw [dayMicros] at hbound
  obtain ⟨n, hn⟩ : ∃ n, n = o.micros.natAbs := ⟨_, rfl⟩
  rw [bodyChars, ← hn]
  rw [← hn] at hbound
  have hhour : n / 1000000 / 3600 < 10 ^ 2 := by omega
  have hminute : n / 1000000 / 60 % 60 < 10 ^ 2 := by omega
  have hsecond : n / 1000000 % 60 < 10 ^ 2 := by omega
  have hmicro : n % 1000000 < 10 ^ 6 := by omega
  split
  case isTrue h =>
    refine ⟨n / 1000000 / 3600, n / 1000000 / 60 % 60, 0, 0, ?_, by omega, h.2.symm⟩
    rw [List.append_nil]
    exact readParts_minutes hhour hminute
  case isFalse h =>
    exact ⟨_, _, _, _, readParts_clock hhour hminute hsecond hmicro, by omega, rfl⟩

/-- What is read of the text of an offset. -/
theorem readOffset_chars :
    readOffset o.chars =
      if o.micros.natAbs / 1000000 = 0 then some .utc else some o := by
  obtain ⟨hour, minute, second, micro, hparts, hseconds, hmicro⟩ := o.readParts_bodyChars
  have hmark : peek o.chars ≠ 'Z' := by
    rw [chars_eq]
    split
    · exact (by decide : '-' ≠ 'Z')
    · exact (by decide : '+' ≠ 'Z')
  have htail : o.chars.tail = o.bodyChars := by rw [chars_eq, List.tail_cons]
  have hsign : (peek o.chars = '-') ↔ o.micros < 0 := by
    rw [chars_eq]
    by_cases h : o.micros < 0
    · rw [if_pos h]
      exact iff_of_true rfl h
    · rw [if_neg h]
      exact iff_of_false (by decide : '+' ≠ '-') h
  rw [readOffset, if_neg hmark, htail, hparts]
  simp only [Option.bind_eq_bind, Option.bind_some, hseconds, Bool.false_eq_true, if_false]
  split
  · rfl
  case isFalse h =>
    have hmicros : (if peek o.chars = '-' then
        -((o.micros.natAbs / 1000000 : Nat) * 1000000 + micro : Int)
        else ((o.micros.natAbs / 1000000 : Nat) * 1000000 + micro : Int)) = o.micros := by
      simp only [hsign]
      split <;> omega
    rw [hmicros]
    exact dif_pos o.valid

theorem readOffset_of_isSpellable (h : o.IsSpellable) : readOffset o.chars = some o := by
  rw [readOffset_chars]
  split
  case isTrue hzero =>
    have h0 : o.micros = 0 := by
      rcases h with h | h
      · exact h
      · omega
    obtain ⟨micros, valid⟩ := o
    subst h0
    rfl
  case isFalse => rfl

theorem readOffset_chars_eq_utc (h : ¬o.IsSpellable) : readOffset o.chars = some .utc := by
  rw [readOffset_chars]
  refine if_pos ?_
  rw [IsSpellable] at h
  omega

theorem isVisible_chars : IsVisible o.chars := by
  rw [chars_eq, bodyChars]
  refine isVisible_cons (by split <;> decide) (isVisible_append (isVisible_padded 2 _)
    (isVisible_cons (by decide) (isVisible_append (isVisible_padded 2 _) ?_)))
  split
  · exact isVisible_nil
  · exact isVisible_cons (by decide)
      (isVisible_append (isVisible_padded 2 _) (isVisible_fractionChars _))

end Offset

-- ---------------------------------------------------------------------------
-- Times of day
-- ---------------------------------------------------------------------------

namespace Clock

variable (c : Clock)

theorem chars_eq :
    c.chars = padded 2 c.hour ++ ':' :: (padded 2 c.minute ++ ':' :: (padded 2 c.second ++
      fractionChars c.micro)) := by
  rw [chars]
  simp only [List.append_assoc, List.cons_append]

theorem ofParts?_self : Clock.ofParts? c.hour c.minute c.second c.micro = some c := dif_pos c.valid

theorem readParts_chars (followed : Bool) :
    readParts c.chars followed = some (⟨c.hour, c.minute, c.second, c.micro⟩, followed) := by
  obtain ⟨hhour, hminute, hsecond, hmicro⟩ := c.valid
  rw [chars_eq]
  exact readParts_clock (by omega) (by omega) (by omega) (by omega)

theorem isVisible_chars : IsVisible c.chars := by
  rw [chars_eq]
  exact isVisible_append (isVisible_padded 2 _) (isVisible_cons (by decide)
    (isVisible_append (isVisible_padded 2 _) (isVisible_cons (by decide)
      (isVisible_append (isVisible_padded 2 _) (isVisible_fractionChars _)))))

theorem isOffsetMark_of_isAsciiDigit {d : Char} (h : isAsciiDigit d = true) :
    isOffsetMark d = false :=
  of_isAsciiDigit (P := fun d => isOffsetMark d = false) (by decide) h

/-- A time of day holds no sign that begins an offset. -/
theorem isOffsetMark_of_mem_chars {d : Char} (h : d ∈ c.chars) : isOffsetMark d = false := by
  have hdigits : ∀ {w n : Nat}, d ∈ padded w n → isOffsetMark d = false := fun hd =>
    isOffsetMark_of_isAsciiDigit (areDigits_padded _ _ d hd)
  have hfraction : d ∈ fractionChars c.micro → isOffsetMark d = false := by
    rw [fractionChars]
    split
    · exact fun hd => absurd hd List.not_mem_nil
    · intro hd
      rcases List.mem_cons.mp hd with rfl | hd
      · rfl
      · exact hdigits hd
  rw [chars_eq] at h
  rcases List.mem_append.mp h with h | h
  · exact hdigits h
  rcases List.mem_cons.mp h with rfl | h
  · rfl
  rcases List.mem_append.mp h with h | h
  · exact hdigits h
  rcases List.mem_cons.mp h with rfl | h
  · rfl
  rcases List.mem_append.mp h with h | h
  · exact hdigits h
  · exact hfraction h

/-- The time of day ends where the offset begins. -/
theorem span_offset (o : Option Offset) :
    (c.chars ++ offsetChars o).takeWhile (!isOffsetMark ·) = c.chars ∧
      (c.chars ++ offsetChars o).dropWhile (!isOffsetMark ·) = offsetChars o := by
  have hclock : ∀ d ∈ c.chars, (!isOffsetMark d) = true := by
    intro d hd
    rw [c.isOffsetMark_of_mem_chars hd]
    rfl
  have hoffset : (offsetChars o).takeWhile (!isOffsetMark ·) = [] ∧
      (offsetChars o).dropWhile (!isOffsetMark ·) = offsetChars o := by
    cases o with
    | none => exact ⟨rfl, rfl⟩
    | some o =>
      show o.chars.takeWhile _ = [] ∧ o.chars.dropWhile _ = o.chars
      rw [o.chars_eq]
      split <;> exact ⟨rfl, rfl⟩
  rw [List.takeWhile_append_of_pos hclock, List.dropWhile_append_of_pos hclock, hoffset.1,
    hoffset.2, List.append_nil]
  exact ⟨rfl, rfl⟩

end Clock

/-- What is read of the text of a time of day: the offset as its own text is read. -/
theorem readDayTimeOctets_chars (c : Clock) (o : Option Offset) :
    readDayTimeOctets (c.chars ++ offsetChars o) =
      match o with
      | none   => some ⟨c, none⟩
      | some o => (readOffset o.chars).map fun o' => ⟨c, some o'⟩ := by
  obtain ⟨hbody, hmark⟩ := c.span_offset o
  rw [readDayTimeOctets]
  simp only [hbody, hmark, c.readParts_chars, Option.bind_eq_bind, Option.bind_some]
  cases o with
  | none =>
    show (Clock.ofParts? c.hour c.minute c.second c.micro).bind _ = _
    rw [c.ofParts?_self]
    rfl
  | some o =>
    have hne : offsetChars (some o) ≠ [] := by
      show o.chars ≠ []
      rw [o.chars_eq]
      exact List.cons_ne_nil _ _
    rw [if_neg hne, c.ofParts?_self]
    show ((readOffset o.chars).map some).bind _ = (readOffset o.chars).map _
    cases readOffset o.chars <;> rfl

-- ---------------------------------------------------------------------------
-- Timestamps
-- ---------------------------------------------------------------------------

theorem isVisible_offsetChars (o : Option Offset) : IsVisible (offsetChars o) := by
  cases o with
  | none => exact isVisible_nil
  | some o => exact o.isVisible_chars

namespace Timestamp

variable (t : Timestamp)

/-- Timestamps without an offset, or with one whose text says what it is. -/
def IsSpellable : Prop := ∀ o ∈ t.offset, o.IsSpellable

instance : Decidable t.IsSpellable := by unfold IsSpellable; infer_instance

theorem chars_textWith (separator : Char) :
    (t.textWith separator).toList =
      t.date.chars ++ separator :: (t.clock.chars ++ offsetChars t.offset) := by
  rw [textWith, String.toList_ofList, List.append_assoc, List.cons_append]

/-- A date in the extended form takes up ten octets. -/
theorem dateLength_chars (d : Date) (rest : List Char) :
    dateLength (d.chars ++ rest) = some 10 := by
  have hlen : (d.chars ++ rest).length = 10 + rest.length := by
    rw [List.length_append, d.length_chars]
  have hyear : (padded 4 d.year).length = 4 := length_padded (by decide) d.year_lt
  have hfour : (d.chars ++ rest).drop 4 =
      '-' :: (padded 2 d.month ++ ('-' :: padded 2 d.day ++ rest)) := by
    rw [d.chars_eq, List.append_assoc, List.drop_left' hyear]
    simp only [List.cons_append, List.append_assoc]
  have hfive : (d.chars ++ rest).drop 5 = padded 2 d.month ++ ('-' :: padded 2 d.day ++ rest) := by
    rw [show (5 : Nat) = 4 + 1 from rfl, ← List.drop_drop, hfour]
    rfl
  have hweek := peek_padded_ne 2 d.month ('-' :: padded 2 d.day ++ rest) (c := 'W') rfl
  have hmark : peek ((d.chars ++ rest).drop 4) = '-' := by
    rw [hfour]
    rfl
  have hdigit : peek ((d.chars ++ rest).drop 5) ≠ 'W' := by
    rw [hfive]
    exact hweek
  rw [dateLength, hlen, if_neg (by omega), if_neg (by omega)]
  exact (if_pos hmark).trans (if_pos hdigit)

/-- What is read of the text of a timestamp: the offset as its own text is read. -/
theorem readTimestamp_textWith_eq :
    readTimestamp (t.textWith ' ') =
      match t.offset with
      | none   => some t
      | some o => (readOffset o.chars).map fun o' => { t with offset := some o' } := by
  have htime : IsVisible (t.clock.chars ++ offsetChars t.offset) :=
    isVisible_append t.clock.isVisible_chars (isVisible_offsetChars _)
  have hall : ∀ c ∈ (t.textWith ' ').toList, c.toNat < 0x80 := by
    intro c hc
    rw [chars_textWith] at hc
    rcases List.mem_append.mp hc with hc | hc
    · exact (t.date.isVisible_chars c hc).1
    · rcases List.mem_cons.mp hc with rfl | hc
      · decide
      · exact (htime c hc).1
  have hdrop : (t.textWith ' ').toList.drop (10 + 1) = t.clock.chars ++ offsetChars t.offset := by
    rw [chars_textWith, ← List.drop_drop, List.drop_left' t.date.length_chars]
    rfl
  have htake : (t.textWith ' ').toList.take 10 = t.date.chars := by
    rw [chars_textWith, List.take_left' t.date.length_chars]
  have hlength : dateLength (t.textWith ' ').toList = some 10 := by
    rw [chars_textWith]
    exact dateLength_chars t.date _
  have hlong : ¬(t.textWith ' ').toList.length ≤ 10 := by
    rw [chars_textWith, List.length_append, t.date.length_chars, List.length_cons]
    omega
  rw [readTimestamp, octets_of_ascii hall, hlength]
  simp only [Option.bind_eq_bind, Option.bind_some, htake, readDateOctets_chars, if_neg hlong,
    hdrop, octets_of_isVisible htime, readDayTimeOctets_chars]
  obtain ⟨date, clock, offset⟩ := t
  cases offset with
  | none => rfl
  | some o =>
    show ((readOffset o.chars).map _).bind _ = (readOffset o.chars).map _
    cases readOffset o.chars <;> rfl

/-- Every timestamp with a spellable offset is read back from its text. -/
theorem readTimestamp_textWith (h : t.IsSpellable) : readTimestamp (t.textWith ' ') = some t := by
  rw [readTimestamp_textWith_eq]
  obtain ⟨date, clock, offset⟩ := t
  cases offset with
  | none => rfl
  | some o =>
    show (readOffset o.chars).map _ = _
    rw [o.readOffset_of_isSpellable (h o rfl)]
    rfl

/-- Any other timestamp is read as one without the lead of its offset. -/
theorem readTimestamp_textWith_of_not (h : ¬t.IsSpellable) :
    readTimestamp (t.textWith ' ') = some { t with offset := some .utc } := by
  rw [readTimestamp_textWith_eq]
  obtain ⟨date, clock, offset⟩ := t
  cases offset with
  | none => exact absurd (fun o ho => absurd ho (Option.not_mem_none o)) h
  | some o =>
    have ho : ¬o.IsSpellable := fun hs => h fun o' ho' => Option.some.inj ho' ▸ hs
    show (readOffset o.chars).map _ = _
    rw [o.readOffset_chars_eq_utc ho]
    rfl

/-- There is nothing to trim off the text of a timestamp. -/
theorem trim_textWith : Text.trim (t.textWith ' ') = t.textWith ' ' := by
  have hdate := t.date.isVisible_chars
  have htime : IsVisible (t.clock.chars ++ offsetChars t.offset) :=
    isVisible_append t.clock.isVisible_chars (isVisible_offsetChars _)
  have hdatene : t.date.chars ≠ [] := by
    intro h
    have := t.date.length_chars
    rw [h] at this
    exact absurd this (by decide)
  have htimene : t.clock.chars ++ offsetChars t.offset ≠ [] := by
    rw [t.clock.chars_eq]
    exact List.append_ne_nil_of_left_ne_nil
      (List.append_ne_nil_of_left_ne_nil (padded_ne_nil 2 _) _) _
  have htrim : Text.trimChars (t.textWith ' ').toList = (t.textWith ' ').toList := by
    rw [chars_textWith]
    exact trimChars_between hdatene (fun c hc => (hdate c hc).2) htimene fun c hc => (htime c hc).2
  rw [Text.trim, htrim, String.ofList_toList]

end Timestamp

end ListQuery.Calendar

/-!
## Texts of days and of times

A text that is read as a timestamp ends with its date, or goes on with a time of day. The first is
read as the midnight of the date; so is a text that goes on with the time of midnight, and what was
read no longer tells one from the other.

* `SpellsDay`, `SpellsTime` — the two kinds of texts;
* `readTimestamp_eq_some_iff` — there are no others, and what is read of each;
* `spellsDay_text` — the text of a date is of the first kind.
-/

namespace ListQuery.Calendar

/-- The text ends with the date that it begins with. -/
def SpellsDay (s : String) (d : Date) : Prop :=
  let cs := octets s.toList
  ∃ n, dateLength cs = some n ∧ cs.length ≤ n ∧ readDateOctets cs = some d

/-- The text goes on with a time of day, after its date and one separating character. -/
def SpellsTime (s : String) (t : Timestamp) : Prop :=
  let cs := octets s.toList
  ∃ n, dateLength cs = some n ∧ n < cs.length ∧ readDateOctets (cs.take n) = some t.date ∧
    readDayTimeOctets (octets (s.toList.drop (n + 1))) = some ⟨t.clock, t.offset⟩

variable {s : String} {t : Timestamp} {d : Date}

theorem SpellsDay.read (h : SpellsDay s d) : readTimestamp s = some (.ofDate d) := by
  obtain ⟨n, hn, hends, hdate⟩ := h
  unfold readTimestamp
  simp only [hn, List.take_of_length_le hends, hdate, Option.bind_eq_bind, Option.bind_some,
    if_pos hends]

theorem SpellsTime.read (h : SpellsTime s t) : readTimestamp s = some t := by
  obtain ⟨n, hn, hgoesOn, hdate, htime⟩ := h
  unfold readTimestamp
  simp only [hn, hdate, htime, Option.bind_eq_bind, Option.bind_some,
    if_neg (Nat.not_le_of_lt hgoesOn)]

/-- What is read as a timestamp is a date or goes on with a time. -/
theorem readTimestamp_eq_some_iff :
    readTimestamp s = some t ↔ (∃ d, SpellsDay s d ∧ t = .ofDate d) ∨ SpellsTime s t := by
  constructor
  · intro h
    unfold readTimestamp at h
    obtain ⟨n, hn, h⟩ := Option.bind_eq_some_iff.mp h
    obtain ⟨d, hd, h⟩ := Option.bind_eq_some_iff.mp h
    split at h
    case isTrue hends =>
      rw [List.take_of_length_le hends] at hd
      exact .inl ⟨d, ⟨n, hn, hends, hd⟩, (Option.some.inj h).symm⟩
    case isFalse hgoesOn =>
      obtain ⟨time, htime, h⟩ := Option.bind_eq_some_iff.mp h
      obtain rfl := Option.some.inj h
      exact .inr ⟨n, hn, Nat.lt_of_not_le hgoesOn, hd, htime⟩
  · rintro (⟨d, hd, rfl⟩ | ht)
    · exact hd.read
    · exact ht.read

/-- A text that goes on with a time does not end with its date. -/
theorem SpellsTime.not_spellsDay (h : SpellsTime s t) : ¬SpellsDay s d := by
  rintro ⟨n, hn, hends, -⟩
  obtain ⟨n', hn', hgoesOn, -⟩ := h
  obtain rfl := Option.some.inj (hn.symm.trans hn')
  exact absurd hends (Nat.not_le_of_lt hgoesOn)

theorem spellsDay_text (d : Date) : SpellsDay d.text d := by
  have hoctets : octets d.text.toList = d.chars := by
    rw [Date.text, String.toList_ofList, octets_of_isVisible d.isVisible_chars]
  have hlength := Timestamp.dateLength_chars d []
  rw [List.append_nil] at hlength
  refine ⟨10, ?_, ?_, ?_⟩
  · rw [hoctets, hlength]
  · rw [hoctets, d.length_chars]
  · rw [hoctets, readDateOctets_chars]

end ListQuery.Calendar
