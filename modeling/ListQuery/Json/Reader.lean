import ListQuery.Failure
import ListQuery.Number.Reading

/-!
# Reading JSON

A reader for whole documents. It also takes `NaN`, `Infinity` and `-Infinity` as numbers; of a
repeated key the last value counts, at the place of the first. An integer of more than 4300 digits
is a failure of its own, whatever follows it, and so is a bracket that opens inside too many others.
A lone half of a surrogate pair reads as U+FFFD.
-/

namespace ListQuery.Json

open Number

def isJsonBlank (c : Char) : Bool := c == ' ' || c == '\t' || c == '\n' || c == '\r'

def skipBlank (cs : List Char) : List Char := cs.dropWhile isJsonBlank

def hexDigitValue? (c : Char) : Option Nat :=
  let n := c.toNat
  if 0x30 ≤ n ∧ n ≤ 0x39 then some (n - 0x30)
  else if 0x41 ≤ n ∧ n ≤ 0x46 then some (n - 0x37)
  else if 0x61 ≤ n ∧ n ≤ 0x66 then some (n - 0x57)
  else none

/-- The UTF-16 unit of four hexadecimal digits. -/
def unit? (a b c d : Char) : Option Nat := do
  some ((((← hexDigitValue? a) * 16 + (← hexDigitValue? b)) * 16 + (← hexDigitValue? c)) * 16 +
    (← hexDigitValue? d))

def isHigh (n : Nat) : Bool := decide (0xD800 ≤ n ∧ n < 0xDC00)

def isLow (n : Nat) : Bool := decide (0xDC00 ≤ n ∧ n < 0xE000)

/-- The character of a unit on its own. -/
def unitChar (n : Nat) : Char := if isHigh n || isLow n then '\ufffd' else Char.ofNat n

def pairChar (high low : Nat) : Char :=
  Char.ofNat (0x10000 + (high - 0xD800) * 0x400 + (low - 0xDC00))

/-- The character of a one-letter escape. -/
def letterEscape? (c : Char) : Option Char :=
  if c = '"' ∨ c = '\\' ∨ c = '/' then some c
  else if c = 'b' then some '\x08'
  else if c = 'f' then some '\x0c'
  else if c = 'n' then some '\n'
  else if c = 'r' then some '\r'
  else if c = 't' then some '\t'
  else none

/-- A string whose opening quote is passed; `high` is the first half of a surrogate pair when that
was read last. -/
def stringBody (high : Option Nat) : List Char → Except Failure (List Char × List Char)
  | '\\' :: 'u' :: a :: b :: c :: d :: cs =>
    match unit? a b c d with
    | none   => .error .notDocument
    | some n =>
      match high with
      | some h =>
        if isLow n then
          (stringBody none cs).map fun (s, r) => (pairChar h n :: s, r)
        else if isHigh n then
          (stringBody (some n) cs).map fun (s, r) => ('\ufffd' :: s, r)
        else (stringBody none cs).map fun (s, r) => ('\ufffd' :: unitChar n :: s, r)
      | none =>
        if isHigh n then stringBody (some n) cs
        else (stringBody none cs).map fun (s, r) => (unitChar n :: s, r)
  | '\\' :: c :: cs =>
    match letterEscape? c with
    | none   => .error .notDocument
    | some e =>
      (stringBody none cs).map fun (s, r) => ((high.toList.map fun _ => '\ufffd') ++ e :: s, r)
  | '"' :: cs => .ok (high.toList.map fun _ => '\ufffd', cs)
  | c :: cs =>
    if c.toNat < 0x20 ∨ c = '\\' then .error .notDocument
    else (stringBody none cs).map fun (s, r) => ((high.toList.map fun _ => '\ufffd') ++ c :: s, r)
  | [] => .error .notDocument

/-- The digits before a point: a zero alone or digits that begin with another one. -/
def wholeDigits (cs : List Char) : List Char × List Char :=
  match cs with
  | '0' :: r => (['0'], r)
  | _        => (cs.takeWhile isAsciiDigit, cs.dropWhile isAsciiDigit)

/-- A point with at least one digit. -/
def pointDigits (cs : List Char) : List Char × List Char :=
  match cs with
  | '.' :: r =>
    if r.takeWhile isAsciiDigit = [] then ([], cs)
    else ('.' :: r.takeWhile isAsciiDigit, r.dropWhile isAsciiDigit)
  | _ => ([], cs)

/-- The letter `e` with an optional sign and at least one digit. -/
def exponentDigits (cs : List Char) : List Char × List Char :=
  match cs with
  | e :: r =>
    if e = 'e' ∨ e = 'E' then
      let (sign, digits) : List Char × List Char := match r with
        | '+' :: d => (['+'], d)
        | '-' :: d => (['-'], d)
        | d        => ([], d)
      if digits.takeWhile isAsciiDigit = [] then ([], cs)
      else (e :: sign ++ digits.takeWhile isAsciiDigit, digits.dropWhile isAsciiDigit)
    else ([], cs)
  | [] => ([], [])

/-- An integer, or a double when there is a point or an exponent. -/
def number (negative : Bool) (cs : List Char) : Except Failure (Value × List Char) :=
  let (whole, r) := wholeDigits cs
  let (places, r) := pointDigits r
  let (exponent, r) := exponentDigits r
  if whole = [] then .error .notDocument
  else if places = [] ∧ exponent = [] then
    if maxIntegerDigits < whole.length then .error .unreadable
    else
      let n : Int := digitsValue whole
      .ok (.int (if negative then -n else n), r)
  else
    match readUnsigned (whole ++ places ++ exponent) with
    | some (c, k) => .ok (.float (Double.ofScientific negative c k), r)
    | none        => .error .notDocument

/-- The rest after a given word. -/
def afterWord? (word : String) (cs : List Char) : Option (List Char) :=
  if word.toList.isPrefixOf cs then some (cs.drop word.toList.length) else none

/-- A number or one of the words. -/
def scalar (cs : List Char) : Except Failure (Value × List Char) :=
  match afterWord? "null" cs, afterWord? "true" cs, afterWord? "false" cs, afterWord? "NaN" cs,
      afterWord? "Infinity" cs, afterWord? "-Infinity" cs with
  | some r, _, _, _, _, _ => .ok (.null, r)
  | _, some r, _, _, _, _ => .ok (.bool true, r)
  | _, _, some r, _, _, _ => .ok (.bool false, r)
  | _, _, _, some r, _, _ => .ok (.float .nan, r)
  | _, _, _, _, some r, _ => .ok (.float (.infinite false), r)
  | _, _, _, _, _, some r => .ok (.float (.infinite true), r)
  | _, _, _, _, _, _      =>
    match cs with
    | '-' :: r => number true r
    | _        => number false cs

/-- The greatest number of brackets that are open at once. -/
def maxDepth : Nat := 985

mutual

/-- A value at the start of the characters, where `room` more brackets may open inside each other.
Every nested part uses up at least one of the characters, so their number is enough `fuel`. -/
def value (room : Nat) : Nat → List Char → Except Failure (Value × List Char)
  | 0, _        => .error .notDocument
  | fuel + 1, cs =>
    match cs with
    | '"' :: r => (stringBody none r).map fun (s, r) => (.text (String.ofList s), r)
    | '[' :: r =>
      if room = 0 then .error .tooDeep
      else
        match skipBlank r with
        | ']' :: r => .ok (.list [], r)
        | r        => (items (room - 1) fuel r).map fun (vs, r) => (.list vs, r)
    | '\x7b' :: r =>
      if room = 0 then .error .tooDeep
      else
        match skipBlank r with
        | '\x7d' :: r => .ok (.map [], r)
        | r           =>
          (entries (room - 1) fuel r).map fun (es, r) => (.record (Entries.ofList es), r)
    | cs => scalar cs

/-- The values of a list up to its bracket. -/
def items (room : Nat) : Nat → List Char → Except Failure (List Value × List Char)
  | 0, _        => .error .notDocument
  | fuel + 1, cs => do
    let (v, r) ← value room fuel cs
    match skipBlank r with
    | ',' :: r =>
      let (vs, r) ← items room fuel (skipBlank r)
      .ok (v :: vs, r)
    | ']' :: r => .ok ([v], r)
    | _        => .error .notDocument

/-- The entries of an object up to its brace. -/
def entries (room : Nat) : Nat → List Char → Except Failure (List (String × Value) × List Char)
  | 0, _        => .error .notDocument
  | fuel + 1, cs => do
    match cs with
    | '"' :: r =>
      let (k, r) ← stringBody none r
      match skipBlank r with
      | ':' :: r =>
        let (v, r) ← value room fuel (skipBlank r)
        match skipBlank r with
        | ',' :: r =>
          let (es, r) ← entries room fuel (skipBlank r)
          .ok ((String.ofList k, v) :: es, r)
        | '\x7d' :: r => .ok ([(String.ofList k, v)], r)
        | _           => .error .notDocument
      | _ => .error .notDocument
    | _ => .error .notDocument

end

/-- The value of a document, with nothing but blanks around it. -/
def read (cs : List Char) : Except Failure Value := do
  let (v, r) ← value maxDepth (cs.length + 1) (skipBlank cs)
  if skipBlank r = [] then .ok v else .error .notDocument

end ListQuery.Json
