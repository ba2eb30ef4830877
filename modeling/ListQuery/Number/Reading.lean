import ListQuery.Text.Blank
import ListQuery.Text.Digit
import ListQuery.Number.Double
import ListQuery.Number.Decimal

/-!
# Reading numbers

The spellings of integers, doubles and decimals. All three allow digits of any script, a sign and
blanks around the number. Integers and doubles allow a single underscore between two digits,
decimals ignore every underscore; an integer has at most 4300 digits.
-/

namespace ListQuery.Number

open ListQuery.Text

/-- Digits of any script as `0` to `9`; other characters as they are. -/
def asciiDigits (cs : List Char) : List Char :=
  cs.map fun c => match digitValue? c with
    | some d => Char.ofNat ('0'.toNat + d)
    | none   => c

/-- The blanks around an integer or a double: all but the four information separators. -/
def isNumberBlank (c : Char) : Bool := isBlank c && !decide (0x1C ≤ c.toNat ∧ c.toNat ≤ 0x1F)

def trimNumber (cs : List Char) : List Char :=
  ((cs.dropWhile isNumberBlank).reverse.dropWhile isNumberBlank).reverse

/-- The characters without the underscores, each of which has to stand between two digits;
`afterDigit` says whether a digit was passed last. -/
def dropUnderscores (afterDigit : Bool) : List Char → Option (List Char)
  | []      => some []
  | c :: cs =>
    if c = '_' then
      if afterDigit && cs.head?.any isAsciiDigit then dropUnderscores false cs else none
    else (dropUnderscores (isAsciiDigit c) cs).map (c :: ·)

/-- The sign, if any, and what follows it. -/
def takeSign : List Char → Bool × List Char
  | '-' :: cs => (true, cs)
  | '+' :: cs => (false, cs)
  | cs        => (false, cs)

/-- The greatest number of digits of an integer that is read. -/
def maxIntegerDigits : Nat := 4300

def readIntegerChars (cs : List Char) : Option Int := do
  let (negative, ds) := takeSign (← dropUnderscores false (trimNumber (asciiDigits cs)))
  if ds ≠ [] ∧ ds.all isAsciiDigit ∧ ds.length ≤ maxIntegerDigits then
    some (if negative then -(digitsValue ds : Int) else digitsValue ds)
  else none

def readInteger (s : String) : Option Int := readIntegerChars s.toList

-- ---------------------------------------------------------------------------
-- Numbers with a point and an exponent
-- ---------------------------------------------------------------------------

/-- The exponent part: nothing, or `e` with an optional sign and digits. -/
def readExponent : List Char → Option Int
  | []      => some 0
  | c :: cs =>
    let (negative, ds) := takeSign cs
    if (c = 'e' ∨ c = 'E') ∧ ds ≠ [] ∧ ds.all isAsciiDigit then
      some (if negative then -(digitsValue ds : Int) else digitsValue ds)
    else none

/-- Coefficient and exponent of an unsigned number: digits with at most one point among them, then
an exponent part. -/
def readUnsigned (cs : List Char) : Option (Nat × Int) :=
  let whole := cs.takeWhile isAsciiDigit
  let rest := cs.dropWhile isAsciiDigit
  let (places, rest) := match rest with
    | '.' :: r => (r.takeWhile isAsciiDigit, r.dropWhile isAsciiDigit)
    | r        => ([], r)
  if whole ++ places = [] then none
  else (readExponent rest).map fun k => (digitsValue (whole ++ places), k - places.length)

def asciiLower (c : Char) : Char :=
  if 'A'.toNat ≤ c.toNat ∧ c.toNat ≤ 'Z'.toNat then Char.ofNat (c.toNat + 32) else c

/-- Whether the characters are `word`, in letters of either case. -/
def spells (word : String) (cs : List Char) : Bool := cs.map asciiLower == word.toList

def readDoubleChars (cs : List Char) : Option Double := do
  let (negative, body) := takeSign (← dropUnderscores false (trimNumber (asciiDigits cs)))
  if spells "inf" body || spells "infinity" body then some (.infinite negative)
  else if spells "nan" body then some .nan
  else (readUnsigned body).map fun (c, k) => Double.ofScientific negative c k

def readDouble (s : String) : Option Double := readDoubleChars s.toList

/-- The diagnostic number after the word for not-a-number. -/
def readPayload (cs : List Char) : Option Nat :=
  if cs.all isAsciiDigit then some (digitsValue cs) else none

def readDecimalChars (cs : List Char) : Option Decimal :=
  let (negative, body) := takeSign ((asciiDigits (trimChars cs)).filter (· ≠ '_'))
  if spells "inf" body || spells "infinity" body then some (.infinite negative)
  else if spells "nan" (body.take 3) then (readPayload (body.drop 3)).map (.nan negative false ·)
  else if spells "snan" (body.take 4) then (readPayload (body.drop 4)).map (.nan negative true ·)
  else do
    let (c, k) ← readUnsigned body
    if Decimal.inRange c k then some (.finite negative c k) else none

def readDecimal (s : String) : Option Decimal := readDecimalChars s.toList

end ListQuery.Number
