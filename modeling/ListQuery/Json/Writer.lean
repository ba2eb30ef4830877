import ListQuery.Number.Reading
import ListQuery.Value.Order

/-!
# Writing JSON

A compact document in ASCII: no blanks, object keys in order at every level, characters outside
ASCII and controls as escapes. Numbers that are not finite are written by name, and values that JSON
does not know as their text. An integer of more digits than can be read again has no document.

The keys of a map are all texts, in code point order, or all numbers, in their order; null may be a
key on its own. Keys that are no texts are written as the text of the document that they are.
-/

namespace ListQuery.Json

open Text Number

/-- `\uXXXX` for a UTF-16 unit. -/
def unitEscape (n : Nat) : List Char := '\\' :: 'u' :: hexFixed 4 n

def escapeChar (c : Char) : List Char :=
  if c = '"' then ['\\', '"']
  else if c = '\\' then ['\\', '\\']
  else if c = '\n' then ['\\', 'n']
  else if c = '\r' then ['\\', 'r']
  else if c = '\t' then ['\\', 't']
  else if c = '\x08' then ['\\', 'b']
  else if c = '\x0c' then ['\\', 'f']
  else if 0x20 ≤ c.toNat ∧ c.toNat < 0x7F then [c]
  else if c.toNat < 0x10000 then unitEscape c.toNat
  else
    let n := c.toNat - 0x10000
    unitEscape (0xD800 + n / 0x400) ++ unitEscape (0xDC00 + n % 0x400)

def stringChars (s : String) : List Char := '"' :: s.toList.flatMap escapeChar ++ ['"']

/-- The digits of an integer that can be read again. -/
def integerChars (n : Int) : Except Failure (List Char) :=
  if digitCount n.natAbs ≤ maxIntegerDigits then .ok (intChars n) else .error .unreadable

def truthChars (b : Bool) : List Char := (if b then "true" else "false").toList

def doubleChars : Double → List Char
  | .nan            => "NaN".toList
  | .infinite false => "Infinity".toList
  | .infinite true  => "-Infinity".toList
  | d               => d.text.toList

-- ---------------------------------------------------------------------------
-- Keys
-- ---------------------------------------------------------------------------

def isText : Value → Bool
  | .text _ => true
  | _       => false

/-- Whether the keys of a map have an order. -/
def areSortable (keys : List Value) : Bool :=
  decide (keys.length ≤ 1) || keys.all isText || keys.all Value.isNumber

/-- Whether a key may stand before another one: texts by their code points, numbers by size. -/
def keyLe : Value → Value → Bool
  | .text a, .text b => decide (a ≤ b)
  | v,       w       =>
    match v.keyForm?, w.keyForm? with
    | some a, some b => !b.lessThan a
    | _,      _      => true

/-- Entries in the order of their keys. -/
def sortByKey {α : Type} (es : List (Value × α)) : List (Value × α) :=
  es.mergeSort fun a b => keyLe a.1 b.1

/-- The text of a key. -/
def keyText : Value → Except Failure String
  | .text s  => .ok s
  | .null    => .ok "null"
  | .bool b  => .ok (String.ofList (truthChars b))
  | .int n   => (integerChars n).map String.ofList
  | .float d => .ok (String.ofList (doubleChars d))
  | _        => .error .wrongKind

-- ---------------------------------------------------------------------------
-- Documents
-- ---------------------------------------------------------------------------

/-- Texts between brackets, separated by commas. -/
def bracketed (left right : Char) (parts : List (List Char)) : List Char :=
  left :: List.intercalate [','] parts ++ [right]

/-- The texts of all entries, or the first failure among them. -/
def firstFailure (es : List (Value × Except Failure (List Char))) :
    Except Failure (List (List Char)) :=
  es.mapM fun e => e.2

mutual

/-- The document of a value. -/
def chars : Value → Except Failure (List Char)
  | .null     => .ok "null".toList
  | .bool b   => .ok (truthChars b)
  | .int n    => integerChars n
  | .float d  => .ok (doubleChars d)
  | .text s   => .ok (stringChars s)
  | .list vs  => (itemChars vs).map (bracketed '[' ']')
  | .map es   =>
    if areSortable (es.map (·.1)) then
      (firstFailure (sortByKey (entryChars es))).map (bracketed '\x7b' '\x7d')
    else .error .wrongKind
  | v         => .ok (stringChars v.display)

def itemChars : List Value → Except Failure (List (List Char))
  | []      => .ok []
  | v :: vs => do
    let c ← chars v
    let cs ← itemChars vs
    .ok (c :: cs)

/-- Each key with the text of its entry. -/
def entryChars : List (Value × Value) → List (Value × Except Failure (List Char))
  | []           => []
  | (k, v) :: es =>
    let entry : Except Failure (List Char) := do
      let key ← keyText k
      let cs ← chars v
      .ok (stringChars key ++ ':' :: cs)
    (k, entry) :: entryChars es

end

end ListQuery.Json
