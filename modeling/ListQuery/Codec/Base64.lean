/-!
# URL-safe base64

Three octets as four characters of the URL-safe alphabet, without padding. The reader is lenient: it
knows both alphabets, skips every other character, and stops where padding completes a group.
-/

namespace ListQuery.Codec

/-- The character for a number below 64. -/
def base64Char (n : Nat) : Char :=
  if n < 26 then Char.ofNat (0x41 + n)
  else if n < 52 then Char.ofNat (0x61 + (n - 26))
  else if n < 62 then Char.ofNat (0x30 + (n - 52))
  else if n = 62 then '-' else '_'

/-- The number a character stands for, in either alphabet. -/
def base64Value? (c : Char) : Option Nat :=
  let n := c.toNat
  if 0x41 ≤ n ∧ n ≤ 0x5A then some (n - 0x41)
  else if 0x61 ≤ n ∧ n ≤ 0x7A then some (n - 0x61 + 26)
  else if 0x30 ≤ n ∧ n ≤ 0x39 then some (n - 0x30 + 52)
  else if c = '-' ∨ c = '+' then some 62
  else if c = '_' ∨ c = '/' then some 63
  else none

def base64 : List UInt8 → List Char
  | a :: b :: c :: r =>
    base64Char (a.toNat / 4) :: base64Char (a.toNat % 4 * 16 + b.toNat / 16) ::
      base64Char (b.toNat % 16 * 4 + c.toNat / 64) :: base64Char (c.toNat % 64) :: base64 r
  | [a, b] =>
    [base64Char (a.toNat / 4), base64Char (a.toNat % 4 * 16 + b.toNat / 16),
      base64Char (b.toNat % 16 * 4)]
  | [a] => [base64Char (a.toNat / 4), base64Char (a.toNat % 4 * 16)]
  | [] => []

/-- Where a reader stands in a group of four: how many characters it has, the bits it has not yet
given out, and how many padding signs came last. -/
structure Group where
  count : Nat
  bits  : Nat
  pads  : Nat

def Group.start : Group := ⟨0, 0, 0⟩

/-- The octets of the characters from within a group. At the end a group has to be complete. -/
def readBase64 (g : Group) : List Char → Option (List UInt8)
  | []      => if g.count = 0 then some [] else none
  | c :: cs =>
    if c = '=' then
      if 2 ≤ g.count then
        if 4 ≤ g.count + g.pads + 1 then some [] else readBase64 { g with pads := g.pads + 1 } cs
      else readBase64 g cs
    else
      match base64Value? c with
      | none   => readBase64 g cs
      | some v =>
        if g.count = 0 then readBase64 ⟨1, v, 0⟩ cs
        else if g.count = 1 then
          (readBase64 ⟨2, v % 16, 0⟩ cs).map (UInt8.ofNat (g.bits * 4 + v / 16) :: ·)
        else if g.count = 2 then
          (readBase64 ⟨3, v % 4, 0⟩ cs).map (UInt8.ofNat (g.bits * 16 + v / 4) :: ·)
        else (readBase64 .start cs).map (UInt8.ofNat (g.bits * 64 + v) :: ·)

/-- The octets of a token whose padding was left out; only ASCII characters can be in one. -/
def readToken (cs : List Char) : Option (List UInt8) :=
  if cs.all (·.toNat < 0x80) then
    readBase64 .start (cs ++ List.replicate ((4 - cs.length % 4) % 4) '=')
  else none

end ListQuery.Codec
