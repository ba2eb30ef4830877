import ListQuery.Schema.Entity

/-!
# SQL dialects and identifiers

The two dialects in which statements are written, and when an identifier has to stand in quotes:
when it is empty, holds anything but small letters, digits, `_` and `$`, begins with a digit or `$`,
or is a word that the dialect reserves. A line end may come last. Small letters are those whose
capital is an ASCII letter, so the dotless `ı` and the long `ſ` are among them.
-/

namespace ListQuery.Sql

open Text

inductive Dialect where
  | sqlite | postgresql
  deriving DecidableEq, Repr

namespace Dialect

def sqliteWords : List String :=
  ["add", "after", "all", "alter", "analyze", "and", "as", "asc", "attach", "autoincrement",
    "before", "begin", "between", "by", "cascade", "case", "cast", "check", "collate", "column",
    "commit", "conflict", "constraint", "create", "cross", "current_date", "current_time",
    "current_timestamp", "database", "default", "deferrable", "deferred", "delete", "desc",
    "detach", "distinct", "drop", "each", "else", "end", "escape", "except", "exclusive", "exists",
    "explain", "fail", "false", "for", "foreign", "from", "full", "glob", "group", "having", "if",
    "ignore", "immediate", "in", "index", "indexed", "initially", "inner", "insert", "instead",
    "intersect", "into", "is", "isnull", "join", "key", "left", "like", "limit", "match", "natural",
    "not", "notnull", "null", "of", "offset", "on", "or", "order", "outer", "plan", "pragma",
    "primary", "query", "raise", "references", "reindex", "rename", "replace", "restrict", "right",
    "rollback", "row", "select", "set", "table", "temp", "temporary", "then", "to", "transaction",
    "trigger", "true", "union", "unique", "update", "using", "vacuum", "values", "view", "virtual",
    "when", "where"]

def postgresqlWords : List String :=
  ["all", "analyse", "analyze", "and", "any", "array", "as", "asc", "asymmetric", "authorization",
    "between", "binary", "both", "case", "cast", "check", "collate", "column", "constraint",
    "create", "cross", "current_catalog", "current_date", "current_role", "current_schema",
    "current_time", "current_timestamp", "current_user", "default", "deferrable", "desc",
    "distinct", "do", "else", "end", "except", "false", "fetch", "for", "foreign", "freeze", "from",
    "full", "grant", "group", "having", "ilike", "in", "initially", "inner", "intersect", "into",
    "is", "isnull", "join", "leading", "left", "like", "limit", "localtime",
    "localtimestamp", "natural", "new", "not", "notnull", "null", "of", "off", "offset", "old",
    "on", "only", "or", "order", "outer", "over", "overlaps", "placing", "primary", "references",
    "returning", "right", "select", "session_user", "similar", "some", "symmetric", "table",
    "then", "to", "trailing", "true", "union", "unique", "user", "using", "variadic", "verbose",
    "when", "where", "window", "with"]

/-- The words that are no identifiers on their own. -/
def reserved : Dialect → List String
  | sqlite     => sqliteWords
  | postgresql => postgresqlWords

end Dialect

def isPlainSign (c : Char) : Bool :=
  decide ('a'.toNat ≤ c.toNat ∧ c.toNat ≤ 'z'.toNat) || Number.isAsciiDigit c || c == '_' ||
    c == '$' || c == 'ı' || c == 'ſ'

/-- One plain sign or more, after which a line end may stand. -/
def isPlain (cs : List Char) : Bool :=
  match cs with
  | []      => false
  | c :: cs => isPlainSign c && [[], ['\n']].contains (cs.dropWhile isPlainSign)

def needsQuotes (d : Dialect) (name : String) : Bool :=
  let cs := name.toList
  !isPlain cs || cs.head?.any (fun c => Number.isAsciiDigit c || c == '$') ||
    d.reserved.contains name

/-- Every occurrence of a character written twice. -/
def doubled (q : Char) (s : String) : String :=
  String.ofList (s.toList.flatMap fun c => if c = q then [q, q] else [c])

/-- An identifier as it stands in a statement. -/
def identifier (d : Dialect) (name : String) : String :=
  if needsQuotes d name then "\"" ++ doubled '"' name ++ "\"" else name

/-- A column with its table. -/
def columnText (d : Dialect) (c : Column) : String :=
  identifier d c.table ++ "." ++ identifier d c.name

end ListQuery.Sql
