import ListQuery.Text.LetterCase

/-!
# Names

The spelling rules that lead from a relation's name to the column that joins it: `createdBy`
becomes `created_by`, a plural becomes its singular. The plural rules are the plain English
suffixes; a word they leave alone counts as singular.
-/

namespace ListQuery.Text

def isAsciiUpper (c : Char) : Bool := decide ('A'.toNat ≤ c.toNat ∧ c.toNat ≤ 'Z'.toNat)

def isAsciiLowerOrDigit (c : Char) : Bool :=
  decide ('a'.toNat ≤ c.toNat ∧ c.toNat ≤ 'z'.toNat) ||
    decide ('0'.toNat ≤ c.toNat ∧ c.toNat ≤ '9'.toNat)

/-- An underscore between a small letter or digit and the capital after it. -/
def markHumps : List Char → List Char
  | c :: d :: cs =>
    if isAsciiLowerOrDigit c && isAsciiUpper d then c :: '_' :: markHumps (d :: cs)
    else c :: markHumps (d :: cs)
  | cs => cs

/-- `createdBy` and `created-by` in the spelling of columns, `created_by`. -/
def snakeCase (name : String) : String :=
  lower (String.ofList ((markHumps name.toList).map fun c => if c = '-' then '_' else c))

def endsIn (suffix : String) (cs : List Char) : Bool := suffix.toList.isSuffixOf cs

/-- The singular by the English suffix rules; any other word is returned as it is. -/
def singular (word : String) : String :=
  let cs := word.toList
  if endsIn "ies" cs && decide (3 < cs.length) then String.ofList (cs.take (cs.length - 3) ++ ['y'])
  else if endsIn "sses" cs || endsIn "shes" cs || endsIn "ches" cs || endsIn "xes" cs then
    String.ofList (cs.take (cs.length - 2))
  else if endsIn "s" cs && !endsIn "ss" cs then String.ofList (cs.take (cs.length - 1))
  else word

def isPlural (word : String) : Bool := singular word != word

end ListQuery.Text
