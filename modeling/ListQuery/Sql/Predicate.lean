import ListQuery.Sql.Bind

/-!
# Conditions

The conditions a statement can place on rows, as data: comparisons of column expressions with bound
values, and their conjunctions and disjunctions. No condition holds text of its own except the names
of columns, and the only values in it are bound ones, truth values and the texts and paths that are
bound when it is written.
-/

namespace ListQuery.Sql

/-- What a condition compares. -/
inductive Expr where
  | column (c : Column)
  /-- The column's value as text. -/
  | asText (c : Column)
  /-- The text at a path inside a JSON document. -/
  | pathText (c : Column) (path : List String)
  /-- The number at a path inside a JSON document. -/
  | pathNumber (c : Column) (path : List String)

inductive Comparison where
  | eq | ne | gt | ge | lt | le
  deriving DecidableEq, Repr

def Comparison.sign : Comparison → String
  | eq => "="
  | ne => "!="
  | gt => ">"
  | ge => ">="
  | lt => "<"
  | le => "<="

/-- Where in a text another one is looked for. -/
inductive Affix where
  | anywhere | atStart | atEnd
  deriving DecidableEq, Repr

/-- Tests on JSON documents. -/
inductive DocumentTest where
  | contains | containedBy | hasKey | hasAnyKey | hasAllKeys
  deriving DecidableEq, Repr

def DocumentTest.sign : DocumentTest → String
  | contains    => "@>"
  | containedBy => "<@"
  | hasKey      => "?"
  | hasAnyKey   => "?|"
  | hasAllKeys  => "?&"

inductive Predicate where
  | constant (b : Bool)
  | compare (e : Expr) (op : Comparison) (v : Bind)
  /-- Equal to a truth value, or not. -/
  | isTruth (e : Expr) (negated : Bool) (b : Bool)
  | isNull (e : Expr) (negated : Bool)
  | between (e : Expr) (negated : Bool) (low high : Bind)
  | member (e : Expr) (negated : Bool) (vs : BindList)
  | like (e : Expr) (caseless negated : Bool) (pattern : Bind)
  /-- Holds a text, whatever the letter case; the signs of the text stand for themselves. -/
  | affix (e : Expr) (kind : Affix) (s : String)
  | fullText (e : Expr) (v : Bind)
  | document (e : Expr) (test : DocumentTest) (v : Bind)
  /-- The text of a column that is no JSON document is like a document. -/
  | likeDocument (e : Expr) (v : Bind)
  | all (ps : List Predicate)
  | any (ps : List Predicate)

namespace Predicate

/-- The conditions of which this one is the conjunction. -/
def conjuncts : Predicate → List Predicate
  | all ps => ps
  | p      => [p]

/-- The conditions of which this one is the disjunction. -/
def disjuncts : Predicate → List Predicate
  | any ps => ps
  | p      => [p]

/-- All of the conditions, without a conjunction inside the conjunction. -/
def conj (ps : List Predicate) : Predicate :=
  match ps.flatMap conjuncts with
  | [p] => p
  | qs  => all qs

/-- Any of the conditions, without a disjunction inside the disjunction. -/
def disj (ps : List Predicate) : Predicate :=
  match ps.flatMap disjuncts with
  | [p] => p
  | qs  => any qs

end Predicate

/-- The signs that a pattern gives a meaning stand for themselves after a slash. -/
def escapePattern (s : String) : String :=
  String.ofList (s.toList.flatMap fun c =>
    if c = '/' ∨ c = '%' ∨ c = '_' then ['/', c] else [c])

end ListQuery.Sql
