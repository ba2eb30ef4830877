import Mathlib.Data.List.Infix
import ListQuery.Proofs.Sql.Standard
import ListQuery.Sql.Text

/-!
# Texts that are sought

A text is sought with a pattern in which every sign of it stands for itself: a slash is put before
the signs that would have a meaning there, and the pattern names the slash as its escape. Letter
case is put aside by folding every sign of the pattern and of the text that is searched. Since
folding leaves the signs with a meaning alone, and gives no new ones, it is the same to fold the
pattern and to make the pattern of the folded text.

What a condition asks is read off the pieces in which it is written, by the rules of SQL; these
speak of patterns only, not of parts of texts.

* `Mark`, `marks?`, `fits` — patterns with an escape;
* `marks?_pattern`, `fits_around_iff` — the pattern of a text, and which texts fit it;
* `patternChars?`, `AsksLike` — what a written condition asks;
* `asksLike_pieces_iff` — a written condition asks for a part, a beginning or an end of the text;
* `Judge.Seeks`, `truth_affix_iff` — a judge that tests the written condition;
* `Judge.seeking` — such a judge.
-/

namespace ListQuery.Sql

-- ---------------------------------------------------------------------------
-- Patterns
-- ---------------------------------------------------------------------------

/-- What a pattern asks for at one place: a certain sign, any one sign, or any text. -/
inductive Mark where
  | sign (c : Char)
  | one
  | many

/-- The signs that have a meaning in a pattern of which the slash is the escape. -/
def hasMeaning (c : Char) : Bool := c == '/' || c == '%' || c == '_'

/-- What a sign asks for that no escape stands before. -/
def Mark.ofChar (c : Char) : Mark := if c = '%' then many else if c = '_' then one else sign c

/-- What a pattern asks for; `escaped` says whether an escape was passed last. After an escape there
has to be a sign that has a meaning, and this stands for itself. -/
def marksFrom? : Bool → List Char → Option (List Mark)
  | escaped, []      => if escaped then none else some []
  | true,    c :: cs => if hasMeaning c then (marksFrom? false cs).map (.sign c :: ·) else none
  | false,   c :: cs =>
    if c = '/' then marksFrom? true cs else (marksFrom? false cs).map (.ofChar c :: ·)

def marks? (pattern : List Char) : Option (List Mark) := marksFrom? false pattern

/-- Whether a text is as a pattern asks. -/
def fits : List Mark → List Char → Bool
  | [],            cs      => cs.isEmpty
  | .many :: ms,   cs      => cs.tails.any fun rest => fits ms rest
  | .one :: ms,    _ :: cs => fits ms cs
  | .sign c :: ms, d :: cs => c == d && fits ms cs
  | _ :: _,        []      => false

section
variable {ms : List Mark} {cs : List Char}

theorem fits_many : fits (.many :: ms) cs = true ↔ ∃ a b, a ++ b = cs ∧ fits ms b = true := by
  rw [fits, List.any_eq_true]
  constructor
  · rintro ⟨b, hb, hfits⟩
    obtain ⟨a, hab⟩ := (List.mem_tails b cs).mp hb
    exact ⟨a, b, hab, hfits⟩
  · rintro ⟨a, b, hab, hfits⟩
    exact ⟨b, (List.mem_tails b cs).mpr ⟨a, hab⟩, hfits⟩

theorem fits_many_nil : fits [.many] cs = true := fits_many.mpr ⟨cs, [], List.append_nil cs, rfl⟩

/-- Certain signs fit themselves, and what they are followed by is left to fit the rest. -/
theorem fits_signs_append {t : List Char} :
    fits (t.map .sign ++ ms) cs = true ↔ ∃ r, t ++ r = cs ∧ fits ms r = true := by
  induction t generalizing cs with
  | nil => simp
  | cons c t ih =>
    cases cs with
    | nil => simp [fits]
    | cons d cs =>
      simp only [List.map_cons, List.cons_append, fits, Bool.and_eq_true, beq_iff_eq, ih,
        List.cons.injEq]
      exact ⟨fun ⟨hc, r, hr, hfits⟩ => ⟨r, ⟨hc, hr⟩, hfits⟩,
        fun ⟨r, ⟨hc, hr⟩, hfits⟩ => ⟨hc, r, hr, hfits⟩⟩

theorem fits_signs {t : List Char} : fits (t.map .sign) cs = true ↔ t = cs := by
  rw [← List.append_nil (t.map Mark.sign), fits_signs_append]
  constructor
  · rintro ⟨r, rfl, hr⟩
    rw [List.isEmpty_iff.mp hr, List.append_nil]
  · rintro rfl
    exact ⟨[], List.append_nil t, rfl⟩

end

-- ---------------------------------------------------------------------------
-- The pattern of a text
-- ---------------------------------------------------------------------------

namespace Affix

/-- The text stands in another one where it is sought. -/
def IsIn (kind : Affix) (t cs : List Char) : Prop :=
  match kind with
  | anywhere => t <:+: cs
  | atStart  => t <+: cs
  | atEnd    => t <:+ cs

/-- A text stands where it is sought in what may be another one, letter case aside. -/
def IsInText (kind : Affix) (fold : Char → Char) (t : String) (own : Option String) : Prop :=
  ∃ s, own = some s ∧ kind.IsIn (t.toList.map fold) (s.toList.map fold)

/-- A pattern with room for any text around what is sought. -/
def around {α : Type} (kind : Affix) (any : α) (sought : List α) : List α :=
  (if kind = atStart then [] else [any]) ++ sought ++ if kind = atEnd then [] else [any]

theorem map_around {α β : Type} (kind : Affix) (f : α → β) (any : α) (sought : List α) :
    (kind.around any sought).map f = kind.around (f any) (sought.map f) := by
  cases kind <;> simp [around]

/-- What the signs of a text ask for, with room around them, is that text where it is sought. -/
theorem fits_around_iff (kind : Affix) (t cs : List Char) :
    fits (kind.around .many (t.map .sign)) cs = true ↔ kind.IsIn t cs := by
  cases kind with
  | atStart =>
    show fits (t.map .sign ++ [.many]) cs = true ↔ t <+: cs
    simp only [fits_signs_append, fits_many_nil, and_true]
    exact Iff.rfl
  | atEnd =>
    show fits (.many :: (t.map .sign ++ [])) cs = true ↔ t <:+ cs
    simp only [List.append_nil, fits_many, fits_signs]
    exact ⟨fun ⟨a, b, hab, htb⟩ => ⟨a, htb ▸ hab⟩, fun ⟨a, hat⟩ => ⟨a, t, hat, rfl⟩⟩
  | anywhere =>
    show fits (.many :: (t.map .sign ++ [.many])) cs = true ↔ t <:+: cs
    simp only [fits_many, fits_signs_append, fits_many_nil, and_true]
    constructor
    · rintro ⟨a, b, rfl, r, rfl⟩
      exact ⟨a, r, List.append_assoc a t r⟩
    · rintro ⟨a, r, rfl⟩
      exact ⟨a, t ++ r, (List.append_assoc a t r).symm, r, rfl⟩

instance (kind : Affix) (t cs : List Char) : Decidable (kind.IsIn t cs) :=
  decidable_of_iff _ (kind.fits_around_iff t cs)

theorem isInText_some {kind : Affix} {fold : Char → Char} {t s : String} :
    kind.IsInText fold t (some s) ↔ kind.IsIn (t.toList.map fold) (s.toList.map fold) := by
  simp [IsInText]

instance (kind : Affix) (fold : Char → Char) (t : String) :
    (own : Option String) → Decidable (kind.IsInText fold t own)
  | none   => isFalse nofun
  | some _ => decidable_of_iff _ isInText_some.symm

end Affix

/-- The signs of a text with an escape before each that has a meaning. -/
def escaped (cs : List Char) : List Char :=
  cs.flatMap fun c => if hasMeaning c then ['/', c] else [c]

theorem toList_escapePattern (s : String) : (escapePattern s).toList = escaped s.toList := by
  rw [escapePattern, String.toList_ofList]
  simp [escaped, hasMeaning, or_assoc]

theorem Mark.ofChar_of_not_hasMeaning {c : Char} (h : hasMeaning c = false) :
    c ≠ '/' ∧ ofChar c = sign c := by
  simp only [hasMeaning, Bool.or_eq_false_iff, beq_eq_false_iff_ne] at h
  obtain ⟨⟨hslash, hpercent⟩, hunderscore⟩ := h
  exact ⟨hslash, by rw [ofChar, if_neg hpercent, if_neg hunderscore]⟩

/-- Every sign that is escaped where it has a meaning stands for itself. -/
theorem marks?_escaped_append (t ps : List Char) :
    marks? (escaped t ++ ps) = (marks? ps).map (t.map .sign ++ ·) := by
  induction t with
  | nil => simp [escaped]
  | cons c t ih =>
    have hrest : marksFrom? false (escaped t ++ ps) = (marks? ps).map (t.map .sign ++ ·) := ih
    have hcons : (marksFrom? false (escaped t ++ ps)).map (.sign c :: ·) =
        (marks? ps).map ((c :: t).map .sign ++ ·) := by
      rw [hrest, Option.map_map]
      rfl
    rw [← hcons]
    cases hc : hasMeaning c with
    | true =>
      have hescaped : escaped (c :: t) ++ ps = '/' :: c :: (escaped t ++ ps) := by
        simp [escaped, hc]
      rw [hescaped, marks?, marksFrom?, if_pos rfl, marksFrom?, if_pos hc]
    | false =>
      obtain ⟨hslash, hmark⟩ := Mark.ofChar_of_not_hasMeaning hc
      have hescaped : escaped (c :: t) ++ ps = c :: (escaped t ++ ps) := by
        simp [escaped, hc]
      rw [hescaped, marks?, marksFrom?, if_neg hslash, hmark]

/-- The pattern of a text asks for its signs with room around them. -/
theorem marks?_pattern (kind : Affix) (t : List Char) :
    marks? (kind.around '%' (escaped t)) = some (kind.around .many (t.map .sign)) := by
  have hpercent (ps : List Char) : marks? ('%' :: ps) = (marks? ps).map (.many :: ·) := rfl
  have hnil : marks? [] = some [] := rfl
  cases kind with
  | atStart =>
    show marks? (escaped t ++ ['%']) = _
    rw [marks?_escaped_append, hpercent, hnil]
    rfl
  | atEnd =>
    show marks? ('%' :: (escaped t ++ [])) = _
    rw [hpercent, marks?_escaped_append, hnil]
    rfl
  | anywhere =>
    show marks? ('%' :: (escaped t ++ ['%'])) = _
    rw [hpercent, marks?_escaped_append, hpercent, hnil]
    rfl

-- ---------------------------------------------------------------------------
-- Letter case
-- ---------------------------------------------------------------------------

/-- How a database puts letter case aside: sign by sign, and without touching the signs that have a
meaning in a pattern. -/
structure CaseFolding where
  fold  : Char → Char
  keeps : ∀ c w, hasMeaning w = true → (fold c = w ↔ c = w)

namespace CaseFolding

variable (f : CaseFolding)

def chars (cs : List Char) : List Char := cs.map f.fold

theorem hasMeaning_fold (c : Char) : hasMeaning (f.fold c) = hasMeaning c := by
  have hsame : ∀ w, hasMeaning w = true → (f.fold c == w) = (c == w) := fun w hw =>
    Bool.eq_iff_iff.mpr (by simpa using f.keeps c w hw)
  simp only [hasMeaning]
  rw [hsame '/' rfl, hsame '%' rfl, hsame '_' rfl]

theorem fold_of_hasMeaning {c : Char} (h : hasMeaning c = true) : f.fold c = c :=
  (f.keeps c c h).mpr rfl

theorem chars_escaped (t : List Char) : f.chars (escaped t) = escaped (f.chars t) := by
  induction t with
  | nil => rfl
  | cons c t ih =>
    simp only [escaped, chars, List.flatMap_cons, List.map_append, List.map_cons] at ih ⊢
    rw [ih, f.hasMeaning_fold]
    cases hasMeaning c with
    | true => simp [f.fold_of_hasMeaning (c := '/') rfl]
    | false => rfl

/-- A folded pattern is the pattern of the folded text. -/
theorem chars_pattern (kind : Affix) (t : List Char) :
    f.chars (kind.around '%' (escaped t)) = kind.around '%' (escaped (f.chars t)) := by
  rw [← f.chars_escaped, chars, Affix.map_around, f.fold_of_hasMeaning (c := '%') rfl]
  rfl

/-- The letters from A to Z are folded, and nothing else. -/
def ofLetters : CaseFolding where
  fold := Char.toLower
  keeps c w hw := by
    have hcode : w.val.toNat = 47 ∨ w.val.toNat = 37 ∨ w.val.toNat = 95 := by
      simp only [hasMeaning, Bool.or_eq_true, beq_iff_eq] at hw
      rcases hw with (rfl | rfl) | rfl <;> decide
    unfold Char.toLower
    split
    case isFalse => exact Iff.rfl
    case isTrue hletter =>
      -- neither the letter nor what it is folded to is one of the three signs
      obtain ⟨ha, hz⟩ := hletter
      have ha : 65 ≤ c.val.toNat := UInt32.le_iff_toNat_le.mp ha
      have hz : c.val.toNat ≤ 90 := UInt32.le_iff_toNat_le.mp hz
      have hlower : (c.val + ('a'.val - 'A'.val)).toNat = c.val.toNat + 32 := by
        show (c.val.toNat + 32) % 4294967296 = _
        omega
      simp only [Char.ext_iff, ← UInt32.toNat_inj, hlower]
      omega

end CaseFolding

-- ---------------------------------------------------------------------------
-- Written conditions
-- ---------------------------------------------------------------------------

/-- The pattern that pieces spell: percent signs in quotes and bound texts, one after the other, up
to the escape; `lowering` says whether letter case is put aside where the pieces begin. -/
def patternChars? (f : CaseFolding) (lowering : Bool) : List Piece → Option (List Char)
  | .text s :: ps =>
    if s = "'%' || " ∨ s = " || '%'" then (patternChars? f lowering ps).map ('%' :: ·)
    else if s = "lower(" then patternChars? f true ps
    else if s = ")" then patternChars? f false ps
    else if s = " ESCAPE '/'" ∧ ps.isEmpty then some []
    else none
  | .bound _ ⟨.text t, _⟩ :: ps =>
    (patternChars? f lowering ps).map
      ((if lowering then f.chars t.toList else t.toList) ++ ·)
  | _ => none

/-- The test of an expression against a pattern: one dialect folds both of them in the statement, the
other one has a word for that. -/
def patternTest (d : Dialect) (subject pattern : List Piece) : List Piece :=
  match d with
  | .sqlite     => lowered subject ++ .text " LIKE " :: pattern
  | .postgresql => subject ++ .text " ILIKE " :: pattern

/-- What is left to fold of a pattern when it is tested. -/
def CaseFolding.tested (f : CaseFolding) : Dialect → List Char → List Char
  | .sqlite,     p => p
  | .postgresql, p => f.chars p

/-- Pieces ask of an expression with the text `cs` whether it fits a pattern, and `b` is the
answer. -/
def AsksLike (d : Dialect) (f : CaseFolding) (place : Place) (x : Expr) (cs : List Char)
    (ps : List Piece) (b : Bool) : Prop :=
  ∃ pattern p ms,
    ps = wrapped (place != .bare) (patternTest d (x.soughtPieces d place) pattern) ∧
      patternChars? f false pattern = some p ∧ marks? (f.tested d p) = some ms ∧
        b = fits ms (f.chars cs)

theorem wrapped_inj {w : Bool} {ps qs : List Piece} : wrapped w ps = wrapped w qs ↔ ps = qs := by
  cases w <;> simp [wrapped]

theorem patternTest_inj {d : Dialect} {subject ps qs : List Piece} :
    patternTest d subject ps = patternTest d subject qs ↔ ps = qs := by
  cases d <;> simp [patternTest]

section
variable (f : CaseFolding) (d : Dialect) (stem : String) (kind : Affix) (t : String)

/-- The pattern that is written for a text is tested as the pattern of the folded text. -/
theorem patternChars?_affixPattern :
    ∃ p, patternChars? f false (affixPattern d stem kind t) = some p ∧
      f.tested d p = kind.around '%' (escaped (f.chars t.toList)) := by
  cases d with
  | sqlite =>
    refine ⟨kind.around '%' (f.chars (escaped t.toList)), ?_, by rw [f.chars_escaped]; rfl⟩
    cases kind <;>
      simp [affixPattern, lowered, patternChars?, Affix.around, toList_escapePattern]
  | postgresql =>
    refine ⟨kind.around '%' (escaped t.toList), ?_, f.chars_pattern kind t.toList⟩
    cases kind <;> simp [affixPattern, patternChars?, Affix.around, toList_escapePattern]

/-- A written condition asks whether the text stands where it is sought, letter case aside. -/
theorem asksLike_pieces_iff {place : Place} {x : Expr} {cs : List Char} {b : Bool} :
    AsksLike d f place x cs ((Predicate.affix x kind t).pieces d place) b ↔
      (b = true ↔ kind.IsIn (f.chars t.toList) (f.chars cs)) := by
  have hwritten : (Predicate.affix x kind t).pieces d place = wrapped (place != .bare)
      (patternTest d (x.soughtPieces d place) (affixPattern d x.bindStem kind t)) := by
    cases d <;> simp only [Predicate.pieces, affixPieces, patternTest]
  obtain ⟨p, hp, htested⟩ := patternChars?_affixPattern f d x.bindStem kind t
  have hmarks := marks?_pattern kind (f.chars t.toList)
  rw [← htested] at hmarks
  rw [← kind.fits_around_iff, ← Bool.eq_iff_iff, hwritten]
  constructor
  · rintro ⟨pattern, p', ms, hpieces, hp', hms, rfl⟩
    obtain rfl := patternTest_inj.mp (wrapped_inj.mp hpieces)
    obtain rfl := Option.some.inj (hp'.symm.trans hp)
    rw [Option.some.inj (hms.symm.trans hmarks)]
  · rintro rfl
    exact ⟨_, p, _, rfl, hp, hmarks, rfl⟩

end

-- ---------------------------------------------------------------------------
-- Judges
-- ---------------------------------------------------------------------------

/-- A judge tests a sought text as the written condition asks, where the expression has a text; what
is missing has none. -/
structure Judge.Seeks (j : Judge) (d : Dialect) (f : CaseFolding) (x : Expr)
    (text : Value → Option String) : Prop where
  missing : ∀ kind t {v}, text v = none → j (.affix x kind t) v = .unknown
  present : ∀ kind t {v s} place b, text v = some s →
    AsksLike d f place x s.toList ((Predicate.affix x kind t).pieces d place) b →
      j (.affix x kind t) v = .ofBool b

section
variable {d : Dialect} {f : CaseFolding} {x : Expr} {text : Value → Option String}

/-- A row has a sought text where its own text does, letter case aside. -/
theorem Judge.Seeks.truth_affix_iff {j : Judge} (h : j.Seeks d f x text) {s : Scene} (kind : Affix)
    (t : String) :
    truth j s (.affix x kind t) = .holds ↔ kind.IsInText f.fold t (text (s.at x.subject)) := by
  unfold Affix.IsInText
  have htruth : truth j s (.affix x kind t) = j (.affix x kind t) (s.at x.subject) := by
    simp only [truth, Predicate.subject?, Option.elim_some]
  rw [htruth]
  cases hown : text (s.at x.subject) with
  | none => simp [h.missing kind t hown]
  | some own =>
    let b := fits (kind.around .many ((f.chars t.toList).map .sign)) (f.chars own.toList)
    have hb := kind.fits_around_iff (f.chars t.toList) (f.chars own.toList)
    have hasks : AsksLike d f .bare x own.toList ((Predicate.affix x kind t).pieces d .bare) b :=
      (asksLike_pieces_iff f d kind t).mpr hb
    rw [h.present kind t .bare b hown hasks, Truth.ofBool_eq_holds, hb]
    simp [CaseFolding.chars]

/-- The judge that finds sought texts in the text of an expression and is as another one
otherwise. -/
def Judge.seeking (f : CaseFolding) (text : Expr → Value → Option String) (j : Judge) : Judge
  | .affix x kind t, v => (text x v).elim .unknown fun own =>
    .ofBool (fits (kind.around .many ((f.chars t.toList).map .sign)) (f.chars own.toList))
  | p,               v => j p v

theorem seeks_seeking (d : Dialect) (f : CaseFolding) (text : Expr → Value → Option String)
    (j : Judge) (x : Expr) : (j.seeking f text).Seeks d f x (text x) where
  missing kind t v hown := by rw [Judge.seeking, hown, Option.elim_none]
  present kind t v s place b hown hasks := by
    have hb := (asksLike_pieces_iff f d kind t).mp hasks
    rw [Judge.seeking, hown, Option.elim_some]
    exact congrArg _ (Bool.eq_iff_iff.mpr ((kind.fits_around_iff _ _).trans hb.symm))

end

end ListQuery.Sql
