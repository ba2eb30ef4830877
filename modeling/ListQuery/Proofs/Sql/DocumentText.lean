import ListQuery.Proofs.Sql.Standard

/-!
# The text at a path

A path leads into a document key by key, and what stands there is read as text: a text stands for
itself, truth values and integers are spelled as JSON spells them, and nothing, as what is missing,
has no text. How a key selects a member of a list, and how numbers with a fraction, lists and maps
are written, is left to the database.

* `DocumentReader.textAt?` — the text of a document at a path;
* `Placing.ReadsText` — values that are compared by this text;
* `meets_eq_iff_textAt?`, `meets_ne_iff_textAt?` — what equality and inequality then say;
* `Judge.reading` — a judge that reads documents.
-/

namespace ListQuery.Sql

open Number

/-- How a database reads documents, where it is not settled by JSON itself. -/
structure DocumentReader where
  /-- The member of a list under a key. -/
  member  : List Value → String → Option Value
  /-- The text of a value that is neither a text nor a truth value nor an integer. -/
  written : Value → String

/-- A database that knows no members of lists, and writes all other values as they are displayed. -/
def DocumentReader.bare : DocumentReader := ⟨fun _ _ => none, Value.display⟩

namespace DocumentReader

variable (r : DocumentReader)

/-- What stands under a key; nothing if there is no such member. -/
def under (key : String) : Value → Value
  | .map es  => ((textEntries es).get? key).getD .null
  | .list vs => (r.member vs key).getD .null
  | _        => .null

def valueAt : List String → Value → Value
  | [],          v => v
  | key :: path, v => valueAt path (r.under key v)

/-- The text of a value; there is none of nothing. -/
def textOf? : Value → Option String
  | .null   => none
  | .bool b => some (if b then "true" else "false")
  | .int n  => some (intText n)
  | .text s => some s
  | v       => some (r.written v)

/-- The text at a path. -/
def textAt? (path : List String) (v : Value) : Option String := r.textOf? (r.valueAt path v)

end DocumentReader

-- ---------------------------------------------------------------------------
-- Documents with a value at a path
-- ---------------------------------------------------------------------------

/-- A document with nothing but a value at a path. -/
def documentHolding (path : List String) (v : Value) : Value :=
  path.foldr (fun key v => .map [(.text key, v)]) v

namespace DocumentReader

variable {r : DocumentReader}

theorem valueAt_documentHolding (path : List String) (v : Value) :
    r.valueAt path (documentHolding path v) = v := by
  induction path with
  | nil => rfl
  | cons key path ih =>
    have hunder : r.under key (documentHolding (key :: path) v) = documentHolding path v := by
      simp [documentHolding, under, textEntries, Entries.get?]
    rw [valueAt, hunder, ih]

theorem textAt?_documentHolding (path : List String) (v : Value) :
    r.textAt? path (documentHolding path v) = r.textOf? v := by
  rw [textAt?, valueAt_documentHolding]

/-- Nothing is at no path. -/
theorem valueAt_null (path : List String) : r.valueAt path .null = .null := by
  induction path with
  | nil => rfl
  | cons key path ih => exact ih

theorem textAt?_of_isNull {v : Value} (h : v.isNull = true) (path : List String) :
    r.textAt? path v = none := by
  cases v with
  | null => rw [textAt?, valueAt_null, textOf?]
  | _ => cases h

end DocumentReader

-- ---------------------------------------------------------------------------
-- Comparisons
-- ---------------------------------------------------------------------------

/-- Documents stand to texts as their text at the path does: without one to none, and with one equal
to itself only. -/
structure Placing.ReadsText (place : Placing) (r : DocumentReader) (path : List String) : Prop where
  missing : ∀ {v} t, r.textAt? path v = none → place v ⟨.text t, .string⟩ = none
  present : ∀ {v s} t, r.textAt? path v = some s →
    ∃ o, place v ⟨.text t, .string⟩ = some o ∧ (o = .eq ↔ s = t)

section
variable {place : Placing} {r : DocumentReader} {path : List String}
  (h : place.ReadsText r path)

include h

theorem meets_eq_iff_textAt? (v : Value) (t : String) :
    Comparison.eq.Meets place v ⟨.text t, .string⟩ ↔ r.textAt? path v = some t := by
  unfold Comparison.Meets
  cases htext : r.textAt? path v with
  | none => simp [h.missing t htext]
  | some s =>
    obtain ⟨o, ho, hequal⟩ := h.present t htext
    rw [Option.some.injEq, ← hequal]
    simp [ho, Comparison.agrees, Ordering.isEq_iff_eq_eq]

theorem meets_ne_iff_textAt? (v : Value) (t : String) :
    Comparison.ne.Meets place v ⟨.text t, .string⟩ ↔ ∃ s, r.textAt? path v = some s ∧ s ≠ t := by
  unfold Comparison.Meets
  cases htext : r.textAt? path v with
  | none => simp [h.missing t htext]
  | some s =>
    obtain ⟨o, ho, hequal⟩ := h.present t htext
    simp only [Option.some.injEq, exists_eq_left', ne_eq, ← hequal, ho]
    cases o <;> decide

end

-- ---------------------------------------------------------------------------
-- A judge that reads documents
-- ---------------------------------------------------------------------------

/-- Texts at paths in their order. -/
def DocumentReader.placing (r : DocumentReader) : Expr → Placing
  | .pathText _ path, v, ⟨.text t, _⟩ => (r.textAt? path v).map (Ord.compare · t)
  | _,                _, _            => none

/-- Tests on paths, by the texts that stand there. -/
def Judge.reading (r : DocumentReader) : Judge := .comparing r.placing

theorem isStandard_reading (r : DocumentReader) (c : Column) (path : List String) :
    (Judge.reading r).IsStandard (.pathText c path) (r.placing (.pathText c path)) := by
  refine isStandard_comparing fun {v} b hnull => ?_
  obtain ⟨value, type⟩ := b
  cases value with
  | text t =>
    show (r.textAt? path v).map _ = none
    rw [DocumentReader.textAt?_of_isNull hnull]
    rfl
  | _ => rfl

theorem readsText_placing (r : DocumentReader) (c : Column) (path : List String) :
    (r.placing (.pathText c path)).ReadsText r path where
  missing t htext := by
    show (r.textAt? path _).map _ = none
    rw [htext]
    rfl
  present t htext := by
    refine ⟨_, ?_, Std.compare_eq_iff_eq⟩
    show (r.textAt? path _).map _ = _
    rw [htext]
    rfl

end ListQuery.Sql
