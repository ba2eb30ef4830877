import ListQuery.Codec.Utf8
import ListQuery.Text.Split

/-!
# Query strings

Pairs of texts as the part of a URL after the question mark, and back. A blank is written as `+`;
letters, digits, `_ . - ~` and the signs `[ ] ,` stand for themselves, everything else is percent
encoded octet by octet. The reader takes a piece without `=` as a key with an empty value and skips
empty pieces.
-/

namespace ListQuery.Codec

open ListQuery.Text

def isPlainSign (b : UInt8) : Bool :=
  let n := b.toNat
  decide (0x41 ≤ n ∧ n ≤ 0x5A) || decide (0x61 ≤ n ∧ n ≤ 0x7A) || decide (0x30 ≤ n ∧ n ≤ 0x39) ||
    n == '_'.toNat || n == '.'.toNat || n == '-'.toNat || n == '~'.toNat ||
    n == '['.toNat || n == ']'.toNat || n == ','.toNat

/-- The upper-case hexadecimal digit of a number below 16. -/
def upperHexDigit (n : Nat) : Char :=
  if n < 10 then Char.ofNat (0x30 + n) else Char.ofNat (0x37 + n)

def encodeOctet (b : UInt8) : List Char :=
  if isPlainSign b then [Char.ofNat b.toNat]
  else if b = 0x20 then ['+']
  else ['%', upperHexDigit (b.toNat / 16), upperHexDigit (b.toNat % 16)]

def encodeChars (cs : List Char) : List Char := (utf8 cs).flatMap encodeOctet

/-- `key=value` for each pair, joined by `&`. -/
def encodeQuery (items : List (String × String)) : String :=
  String.ofList (List.intercalate ['&'] (items.map fun p =>
    encodeChars p.1.toList ++ '=' :: encodeChars p.2.toList))

/-- The value of a hexadecimal digit of either case. -/
def hexValue? (c : Char) : Option Nat :=
  let n := c.toNat
  if 0x30 ≤ n ∧ n ≤ 0x39 then some (n - 0x30)
  else if 0x41 ≤ n ∧ n ≤ 0x46 then some (n - 0x37)
  else if 0x61 ≤ n ∧ n ≤ 0x66 then some (n - 0x57)
  else none

/-- The octets that a piece stands for; a percent sign without two digits stands for itself. -/
def decodeOctets : List Char → List UInt8
  | '%' :: a :: b :: cs =>
    match hexValue? a, hexValue? b with
    | some x, some y => UInt8.ofNat (x * 16 + y) :: decodeOctets cs
    | _, _           => 0x25 :: decodeOctets (a :: b :: cs)
  | '+' :: cs => 0x20 :: decodeOctets cs
  | c :: cs   => String.utf8EncodeChar c ++ decodeOctets cs
  | []        => []

def decodeChars (cs : List Char) : List Char := lenientUtf8 (decodeOctets cs)

/-- One piece between two `&`. -/
def decodePair (piece : List Char) : String × String :=
  match cutChars? '=' piece with
  | some (k, v) => (String.ofList (decodeChars k), String.ofList (decodeChars v))
  | none        => (String.ofList (decodeChars piece), "")

/-- The pairs of a query string. -/
def decodeQuery (s : String) : List (String × String) :=
  ((splitChars '&' s.toList).filter (· ≠ [])).map decodePair

end ListQuery.Codec
