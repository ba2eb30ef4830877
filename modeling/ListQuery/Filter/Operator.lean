import ListQuery.Text.Blank
import ListQuery.Text.LetterCase

/-!
# Filter operators

The comparisons a filter can ask for, their canonical names, the other spellings that are
understood, and the category that decides how an operand is read and compiled.
-/

namespace ListQuery

inductive Operator where
  | eq | ne | gt | gte | lt | lte
  | like | ilike | notLike | notIlike
  | contains | startsWith | endsWith
  | isIn | notIn
  | isNull | isNotNull
  | between | notBetween
  | jsonContains | jsonContainedBy | jsonHasKey | jsonHasAnyKey | jsonHasAllKeys
  | fullText
  deriving DecidableEq, Repr

/-- Operators that are read and compiled alike. -/
inductive Category where
  | equality | range | set | pattern | null | json | fullText
  deriving DecidableEq, Repr

namespace Category

def name : Category → String
  | equality => "equality"
  | range    => "range"
  | set      => "set"
  | pattern  => "pattern"
  | null     => "null"
  | json     => "json"
  | fullText => "full_text"

end Category

namespace Operator

def all : List Operator :=
  [eq, ne, gt, gte, lt, lte, like, ilike, notLike, notIlike, contains, startsWith, endsWith, isIn,
    notIn, isNull, isNotNull, between, notBetween, jsonContains, jsonContainedBy, jsonHasKey,
    jsonHasAnyKey, jsonHasAllKeys, fullText]

/-- The canonical name. -/
def name : Operator → String
  | eq              => "eq"
  | ne              => "ne"
  | gt              => "gt"
  | gte             => "gte"
  | lt              => "lt"
  | lte             => "lte"
  | like            => "like"
  | ilike           => "ilike"
  | notLike         => "not_like"
  | notIlike        => "not_ilike"
  | contains        => "contains"
  | startsWith      => "starts_with"
  | endsWith        => "ends_with"
  | isIn            => "in"
  | notIn           => "not_in"
  | isNull          => "is_null"
  | isNotNull       => "is_not_null"
  | between         => "between"
  | notBetween      => "not_between"
  | jsonContains    => "json_contains"
  | jsonContainedBy => "json_contained_by"
  | jsonHasKey      => "json_has_key"
  | jsonHasAnyKey   => "json_has_any_key"
  | jsonHasAllKeys  => "json_has_all_keys"
  | fullText        => "full_text"

/-- Spellings other than the canonical names. -/
def aliases : List (String × Operator) :=
  [("=", eq), ("!=", ne), ("<>", ne), ("neq", ne), (">", gt), (">=", gte), ("<", lt), ("<=", lte),
    ("notlike", notLike), ("notilike", notIlike), ("startswith", startsWith),
    ("endswith", endsWith), ("notin", notIn), ("isnull", isNull), ("null", isNull),
    ("isnotnull", isNotNull),
    ("notnull", isNotNull), ("not_null", isNotNull), ("notbetween", notBetween),
    ("jsoncontains", jsonContains), ("jsoncontainedby", jsonContainedBy),
    ("jsonhaskey", jsonHasKey), ("jsonhasanykey", jsonHasAnyKey),
    ("jsonhasallkeys", jsonHasAllKeys), ("fulltext", fullText)]

/-- The operator of a name or other spelling, in any letter case and with blanks around it. -/
def parse? (spelling : String) : Option Operator :=
  let key := Text.lower (Text.trim spelling)
  match aliases.lookup key with
  | some op => some op
  | none    => all.find? (·.name == key)

def category : Operator → Category
  | eq | ne                                                                         => .equality
  | gt | gte | lt | lte | between | notBetween                                      => .range
  | isIn | notIn                                                                    => .set
  | like | ilike | notLike | notIlike | contains | startsWith | endsWith            => .pattern
  | isNull | isNotNull                                                              => .null
  | jsonContains | jsonContainedBy | jsonHasKey | jsonHasAnyKey | jsonHasAllKeys    => .json
  | fullText                                                                        => .fullText

/-- The sign under which the operator is known in SQL. -/
def sign : Operator → String
  | eq                              => "="
  | ne                              => "!="
  | gt                              => ">"
  | gte                             => ">="
  | lt                              => "<"
  | lte                             => "<="
  | like                            => "LIKE"
  | ilike                           => "ILIKE"
  | notLike                         => "NOT LIKE"
  | notIlike                        => "NOT ILIKE"
  | contains | startsWith | endsWith => "ILIKE"
  | isIn                            => "IN"
  | notIn                           => "NOT IN"
  | isNull                          => "IS NULL"
  | isNotNull                       => "IS NOT NULL"
  | between                         => "BETWEEN"
  | notBetween                      => "NOT BETWEEN"
  | jsonContains                    => "@>"
  | jsonContainedBy                 => "<@"
  | jsonHasKey                      => "?"
  | jsonHasAnyKey                   => "?|"
  | jsonHasAllKeys                  => "?&"
  | fullText                        => "@@"

/-- Operators whose operand is a list or a comma-separated text. -/
def takesList : Operator → Bool
  | isIn | notIn | jsonHasAnyKey | jsonHasAllKeys => true
  | _                                             => false

/-- Operators whose operand has two bounds. -/
def takesRange : Operator → Bool
  | between | notBetween => true
  | _                    => false

/-- Operators that can look inside a JSON document. -/
def worksOnPath : Operator → Bool
  | eq | ne | gt | gte | lt | lte | isIn | notIn | contains | startsWith | endsWith | isNull
  | isNotNull => true
  | _         => false

/-- Operators that compare the number at a path inside a JSON document. -/
def isOrdering : Operator → Bool
  | gt | gte | lt | lte => true
  | _                   => false

/-- Operators whose operand is a JSON document. -/
def takesDocument : Operator → Bool
  | jsonContains | jsonContainedBy => true
  | _                              => false

end Operator

end ListQuery
