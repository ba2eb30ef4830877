import ListQuery.Failure
import ListQuery.Number.Reading
import ListQuery.Paging.Page
import ListQuery.Value.Same

/-!
# Settings

What an operator of the service can choose, with the bounds of each choice in the type. A setting
comes from a given value, else from an environment variable, else from its default; the names of all
settings that cannot be read are reported together.
-/

namespace ListQuery

open Text Number

/-- What happens to a filter with an operand that cannot be read. -/
inductive MalformedPolicy where
  /-- The zero of the column's type stands in for it. -/
  | substitute
  | drop
  | reject
  deriving DecidableEq, Repr

namespace MalformedPolicy

def all : List MalformedPolicy := [substitute, drop, reject]

def name : MalformedPolicy → String
  | substitute => "coerce"
  | drop       => "drop"
  | reject     => "strict"

end MalformedPolicy

structure Settings where
  defaultPerPage      : Int := 15
  maxPerPage          : Int := 100
  defaultPaging       : PagingKind := .cursor
  /-- Whether rejected parameters fail the request instead of being left out. -/
  strict              : Bool := false
  malformed           : MalformedPolicy := .substitute
  apiVersion          : String := "1.0"
  complexityThreshold : Int := 70
  logSql              : Bool := false
  one_le_default      : 1 ≤ defaultPerPage := by decide
  one_le_max          : 1 ≤ maxPerPage := by decide
  threshold_range     : 0 ≤ complexityThreshold ∧ complexityThreshold ≤ 100 := by decide

namespace Settings

/-- The settings of a service that chooses nothing. -/
def standard : Settings := {}

/-- Strict rules leave no other choice for operands that cannot be read. -/
def malformedPolicy (s : Settings) : MalformedPolicy := if s.strict then .reject else s.malformed

-- ---------------------------------------------------------------------------
-- Reading one setting
-- ---------------------------------------------------------------------------

def isNonZeroDigit (c : Char) : Bool := isAsciiDigit c && c != '0'

/-- The digits that are left without the zeros before them, between which underscores may stand;
`last` is the sign that was passed over last. One sign stays when nothing but a fraction follows. -/
def afterZeros (last : Char) : List Char → Option (List Char)
  | []      => some [last]
  | c :: cs =>
    if isNonZeroDigit c then some (c :: cs)
    else if c = '.' then some (last :: c :: cs)
    else if c = '0' ∨ c = '_' then afterZeros c cs
    else none

/-- A number begins with a minus sign or a digit. -/
def withoutZeros? : List Char → Option (List Char)
  | '0' :: cs => afterZeros '0' cs
  | c :: cs   => if c = '-' ∨ isNonZeroDigit c then some (c :: cs) else none
  | []        => none

/-- A fraction of one zero or more is cut off. -/
def withoutZeroFraction (cs : List Char) : List Char :=
  match cutChars? '.' cs with
  | some (whole, fraction) =>
    if fraction ≠ [] ∧ fraction.all (· == '0') then whole else cs
  | none => cs

/-- A whole number in ASCII digits, be it with a plus sign before it or with a fraction of zeros. -/
def wholeOfText (s : String) : Option Int := do
  let cs := trimNumber s.toList
  let cs ← withoutZeros? (if cs.head? = some '+' then cs.tail else cs)
  let cs := withoutZeroFraction cs
  if cs.all fun c => isAsciiDigit c || c == '_' || c == '-' then readIntegerChars cs else none

/-- Whether a double is too large for an integer of 64 bits. -/
def isBeyondWords : Value → Bool
  | .float (.finite _ m e _) => decide (63 ≤ (Nat.log2 m : Int) + e)
  | _                        => false

/-- A whole number: as such, as its text, or as a number without a fraction. -/
def readWhole : Value → Option Int
  | .text s => wholeOfText s
  | v =>
    match v.toInteger with
    | .ok n    => if v.same (.int n) && !isBeyondWords v then some n else none
    | .error _ => none

/-- A truth value: as such, as one of its words, or as one or zero. -/
def readFlag : Value → Option Bool
  | .bool b => some b
  | .text s =>
    let s := lower s
    if ["1", "on", "t", "true", "y", "yes"].contains s then some true
    else if ["0", "off", "f", "false", "n", "no"].contains s then some false
    else none
  | v       =>
    match readWhole v with
    | some 0 => some false
    | some 1 => some true
    | _      => none

def readText : Value → Option String
  | .text s => some s
  | _       => none

def readBetween (low : Int) (high : Int) (v : Value) : Option { n : Int // low ≤ n ∧ n ≤ high } :=
  (readWhole v).bind fun n => if h : low ≤ n ∧ n ≤ high then some ⟨n, h⟩ else none

def readFrom (low : Int) (v : Value) : Option { n : Int // low ≤ n } :=
  (readWhole v).bind fun n => if h : low ≤ n then some ⟨n, h⟩ else none

def readPaging (v : Value) : Option PagingKind :=
  (readText v).bind fun s => [PagingKind.offset, .cursor].find? (·.name == s)

def readPolicy (v : Value) : Option MalformedPolicy :=
  (readText v).bind fun s => MalformedPolicy.all.find? (·.name == s)

-- ---------------------------------------------------------------------------
-- All settings
-- ---------------------------------------------------------------------------

/-- Environment variables of the service start so, in any letter case. -/
def variableName (setting : String) : String := "querybuilder_" ++ setting

/-- The raw value of a setting: given, or else from the environment. -/
def raw? (given : Entries Value) (environment : Entries String) (setting : String) : Option Value :=
  match given.get? setting with
  | some v => some v
  | none   => ((environment.map fun e => (lower e.1, e.2)).lookup (variableName setting)).map .text

/-- The setting, its default when nothing is said about it, and nothing when it cannot be read. -/
def choose {α : Type} (raw : Option Value) (default : α) (read : Value → Option α) : Option α :=
  match raw with
  | some v => read v
  | none   => some default

/-- All settings, or the names of those that cannot be read in alphabetical order. -/
def read (given : Entries Value) (environment : Entries String) : Except Failure Settings :=
  let raw := raw? given environment
  let version   := choose (raw "api_version") "1.0" readText
  let threshold := choose (raw "complexity_warning_threshold") ⟨70, by decide⟩ (readBetween 0 100)
  let paging    := choose (raw "default_pagination_type") .cursor readPaging
  let perPage   := choose (raw "default_per_page") ⟨15, by decide⟩ (readFrom 1)
  let logging   := choose (raw "log_sql") false readFlag
  let policy    := choose (raw "malformed_value_policy") .substitute readPolicy
  let cap       := choose (raw "max_per_page") ⟨100, by decide⟩ (readFrom 1)
  let strict    := choose (raw "strict") false readFlag
  match version, threshold, paging, perPage, logging, policy, cap, strict with
  | some v, some t, some k, some n, some l, some p, some c, some s =>
    .ok ⟨n, c, k, s, p, v, t, l, n.2, c.2, t.2⟩
  | _, _, _, _, _, _, _, _ =>
    let unread :=
      [("api_version", version.isNone), ("complexity_warning_threshold", threshold.isNone),
        ("default_pagination_type", paging.isNone), ("default_per_page", perPage.isNone),
        ("log_sql", logging.isNone), ("malformed_value_policy", policy.isNone),
        ("max_per_page", cap.isNone), ("strict", strict.isNone)]
    .error (.invalid ((unread.filter (·.2)).map (·.1)))

/-- The settings by name, in the order of their declaration. -/
def entries (s : Settings) : Entries Value :=
  [("default_per_page", .int s.defaultPerPage), ("max_per_page", .int s.maxPerPage),
    ("default_pagination_type", .text s.defaultPaging.name), ("strict", .bool s.strict),
    ("malformed_value_policy", .text s.malformed.name), ("api_version", .text s.apiVersion),
    ("complexity_warning_threshold", .int s.complexityThreshold), ("log_sql", .bool s.logSql)]

end Settings

end ListQuery
