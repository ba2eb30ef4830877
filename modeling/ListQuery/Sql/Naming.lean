import ListQuery.Sql.Dialect

/-!
# Derived names

Names that a statement has to make up from the names of its columns: a column that is projected a
second time gets a label, and every placeholder has a name. A derived name is a stem and a number
among the names of that stem. In a stem every run of signs that cannot stand there is one underscore.
-/

namespace ListQuery.Sql

open Text

/-- Signs that cannot stand in a derived name. -/
def isUnsafeSign (c : Char) : Bool := c == '%' || c == '(' || c == ')' || c == ' ' || c == '$'

/-- The characters with one underscore for every run of unsafe signs; `inRun` says whether one of
them was passed last. -/
def safeChars (inRun : Bool) : List Char → List Char
  | []      => []
  | c :: cs =>
    if isUnsafeSign c then if inRun then safeChars true cs else '_' :: safeChars true cs
    else c :: safeChars false cs

/-- The longest identifier of a dialect. -/
def Dialect.maxIdentifier : Dialect → Nat
  | sqlite     => 9999
  | postgresql => 63

/-- The stems of the names that were derived so far, and how many of those names were too long. -/
structure DerivedNames where
  stems : List String := []
  cut   : Nat := 0

/-- One more name with a stem. A name that is too long is cut, and numbered among those that were
cut. -/
def DerivedNames.next (d : Dialect) (used : DerivedNames) (stem : String) :
    String × DerivedNames :=
  let name := stem ++ "_" ++ Number.natText (used.stems.count stem + 1)
  let room := d.maxIdentifier - 6
  let used := { used with stems := stem :: used.stems }
  if name.length ≤ room then (name, used)
  else
    (String.ofList (name.toList.take room ++ '_' :: Nat.toDigits 16 (used.cut + 1)),
      { used with cut := used.cut + 1 })

-- ---------------------------------------------------------------------------
-- Labels
-- ---------------------------------------------------------------------------

/-- The stem of the labels of a column. -/
def labelStem (column : String) : String := String.ofList (safeChars false (column.toList ++ ['_']))

/-- What was projected so far: the columns under their own names, and the labels. -/
structure Labels where
  columns : List Column := []
  names   : DerivedNames := {}

/-- The label of one more repetition of a column. -/
def Labels.next (d : Dialect) (ls : Labels) (column : String) : String × Labels :=
  let (label, names) := ls.names.next d (labelStem column)
  (label, { ls with names })

-- ---------------------------------------------------------------------------
-- Placeholders
-- ---------------------------------------------------------------------------

/-- The stem of the names of placeholders for a column's values. -/
def bindStem (column : String) : String :=
  let bare (cs : List Char) : List Char := cs.dropWhile (· == '_')
  String.ofList (bare (bare (safeChars false column.toList)).reverse).reverse

/-- The stem of the names of placeholders for values that are compared with no column alone. -/
def plainBindStem : String := "param"

/-- A sign as it stands in the name of a placeholder. -/
def escapeNameSign (c : Char) : Char :=
  if c = ':' then 'C' else if c = '.' ∨ c = '[' ∨ c = ']' then '_' else c

/-- A derived name as it stands in a placeholder. -/
def placeholderName (name : String) : String := String.ofList (name.toList.map escapeNameSign)

end ListQuery.Sql
