/-!
# Decimal notation

The decimal digits of a natural number, the value of a run of digits, and the two shapes in which a
number with a decimal point is written: positional and scientific.
-/

namespace ListQuery.Number

/-- The decimal digits of `n`, most significant first; zero is one digit. -/
def natChars (n : Nat) : List Char := Nat.toDigits 10 n

def intChars (n : Int) : List Char :=
  if n < 0 then '-' :: natChars n.natAbs else natChars n.natAbs

def natText (n : Nat) : String := String.ofList (natChars n)

def intText (n : Int) : String := String.ofList (intChars n)

/-- The number of decimal digits of `n`. -/
def digitCount (n : Nat) : Nat := (natChars n).length

def isAsciiDigit (c : Char) : Bool := decide ('0'.toNat ≤ c.toNat ∧ c.toNat ≤ '9'.toNat)

/-- The value of a run of digits `0` to `9`. -/
def digitsValue (cs : List Char) : Nat := cs.foldl (fun v c => 10 * v + (c.toNat - '0'.toNat)) 0

/-- `n` with at least `width` digits, filled up with zeros on the left. -/
def padded (width n : Nat) : List Char :=
  let ds := natChars n
  List.replicate (width - ds.length) '0' ++ ds

/-- The digits with a decimal point after the first `point` of them, filled up with zeros; no point
when nothing would follow it. -/
def positional (digits : List Char) (point : Int) : List Char :=
  if point ≤ 0 then '0' :: '.' :: (List.replicate point.natAbs '0' ++ digits)
  else if (digits.length : Int) ≤ point then
    digits ++ List.replicate (point.natAbs - digits.length) '0'
  else digits.take point.natAbs ++ '.' :: digits.drop point.natAbs

/-- One digit before the point, then the exponent with its sign and at least `width` digits. -/
def scientific (mark : Char) (width : Nat) (digits : List Char) (exponent : Int) : List Char :=
  let head := match digits with
    | []      => ['0']
    | [d]     => [d]
    | d :: ds => d :: '.' :: ds
  head ++ mark :: (if exponent < 0 then '-' else '+') :: padded width exponent.natAbs

end ListQuery.Number
