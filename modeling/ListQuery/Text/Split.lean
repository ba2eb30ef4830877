import ListQuery.Text.Blank

/-!
# Splitting and joining

Cutting a text at a separator character. The pieces of `split` are never none: a text without the
separator is its own only piece, and `join` puts the pieces back together.
-/

namespace ListQuery.Text

/-- The pieces between the occurrences of `sep`. -/
def splitChars (sep : Char) : List Char → List (List Char)
  | []      => [[]]
  | c :: cs =>
    if c = sep then [] :: splitChars sep cs else (splitChars sep cs).modifyHead (c :: ·)

def split (sep : Char) (s : String) : List String :=
  (splitChars sep s.toList).map String.ofList

/-- What stands before and after the first `sep`, if there is one. -/
def cutChars? (sep : Char) (cs : List Char) : Option (List Char × List Char) :=
  match cs.dropWhile (· ≠ sep) with
  | []        => none
  | _ :: rest => some (cs.takeWhile (· ≠ sep), rest)

def cut? (sep : Char) (s : String) : Option (String × String) :=
  (cutChars? sep s.toList).map fun p => (String.ofList p.1, String.ofList p.2)

/-- The texts one after the other with `sep` between neighbours. -/
def join (sep : String) (parts : List String) : String :=
  String.ofList (List.intercalate sep.toList (parts.map String.toList))

/-- The trimmed pieces of a comma-separated list that are not blank. -/
def commaList (s : String) : List String :=
  ((split ',' s).map trim).filter (· ≠ "")

-- ---------------------------------------------------------------------------
-- Splitting undoes joining
-- ---------------------------------------------------------------------------

theorem splitChars_ne_nil (sep : Char) (cs : List Char) : splitChars sep cs ≠ [] := by
  induction cs with
  | nil => simp [splitChars]
  | cons c cs ih =>
    by_cases h : c = sep
    · simp [splitChars, h]
    · cases hs : splitChars sep cs with
      | nil => exact absurd hs ih
      | cons p ps => simp [splitChars, h, hs]

theorem intercalate_splitChars (sep : Char) (cs : List Char) :
    List.intercalate [sep] (splitChars sep cs) = cs := by
  induction cs with
  | nil => simp [splitChars, List.intercalate]
  | cons c cs ih =>
    cases hs : splitChars sep cs with
    | nil => exact absurd hs (splitChars_ne_nil sep cs)
    | cons p ps =>
      by_cases h : c = sep
      · simp only [splitChars, h, if_pos, hs] at ih ⊢
        simpa [List.intercalate] using ih
      · simp only [splitChars, h, if_false, hs, List.modifyHead_cons] at ih ⊢
        cases ps <;> simp_all [List.intercalate]

/-- No text is lost or gained by splitting. -/
theorem join_split (sep : Char) (s : String) : join (String.singleton sep) (split sep s) = s := by
  simp [join, split, Function.comp_def, intercalate_splitChars]

end ListQuery.Text
