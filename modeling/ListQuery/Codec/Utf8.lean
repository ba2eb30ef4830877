/-!
# UTF-8

Characters as octets and back. Reading never fails as a whole: it gives one entry per character or
ill-formed piece, so that the strict reader (every piece a character) and the lenient one (the
replacement character for each ill-formed piece) are views of the same reading.
-/

namespace ListQuery.Codec

/-- The octets of a text. -/
def utf8 (cs : List Char) : List UInt8 := cs.flatMap String.utf8EncodeChar

def isTail (b : UInt8) : Bool := decide (0x80 ≤ b ∧ b ≤ 0xBF)

/-- The octets that may follow the first octet of a sequence of three or four: the tighter bounds
keep out overlong forms, surrogates and numbers beyond the last code point. -/
def secondBounds (first : UInt8) : UInt8 × UInt8 :=
  if first = 0xE0 then (0xA0, 0xBF)
  else if first = 0xED then (0x80, 0x9F)
  else if first = 0xF0 then (0x90, 0xBF)
  else if first = 0xF4 then (0x80, 0x8F)
  else (0x80, 0xBF)

def isSecond (first b : UInt8) : Bool :=
  decide ((secondBounds first).1 ≤ b ∧ b ≤ (secondBounds first).2)

/-- The low six bits of a tail octet. -/
def payload (b : UInt8) : Nat := b.toNat % 64

/-- Characters, with `none` for each longest piece that cannot be part of one. -/
def readUtf8 : List UInt8 → List (Option Char)
  | []      => []
  | a :: bs =>
    if a < 0x80 then some (Char.ofNat a.toNat) :: readUtf8 bs
    else if 0xC2 ≤ a ∧ a ≤ 0xDF then
      match bs with
      | b :: r =>
        if isTail b then some (Char.ofNat (a.toNat % 32 * 64 + payload b)) :: readUtf8 r
        else none :: readUtf8 (b :: r)
      | []     => [none]
    else if 0xE0 ≤ a ∧ a ≤ 0xEF then
      match bs with
      | b :: c :: r =>
        if isSecond a b then
          if isTail c then
            some (Char.ofNat (a.toNat % 16 * 4096 + payload b * 64 + payload c)) :: readUtf8 r
          else none :: readUtf8 (c :: r)
        else none :: readUtf8 (b :: c :: r)
      | [b]         => if isSecond a b then [none] else none :: readUtf8 [b]
      | []          => [none]
    else if 0xF0 ≤ a ∧ a ≤ 0xF4 then
      match bs with
      | b :: c :: d :: r =>
        if isSecond a b then
          if isTail c then
            if isTail d then
              some (Char.ofNat
                (a.toNat % 8 * 262144 + payload b * 4096 + payload c * 64 + payload d)) ::
                readUtf8 r
            else none :: readUtf8 (d :: r)
          else none :: readUtf8 (c :: d :: r)
        else none :: readUtf8 (b :: c :: d :: r)
      | [b, c]           =>
        if isSecond a b then (if isTail c then [none] else none :: readUtf8 [c])
        else none :: readUtf8 [b, c]
      | [b]              => if isSecond a b then [none] else none :: readUtf8 [b]
      | []               => [none]
    else none :: readUtf8 bs

/-- The characters, if every piece is one. -/
def strictUtf8? (bs : List UInt8) : Option (List Char) := (readUtf8 bs).mapM id

/-- The characters, with U+FFFD for each ill-formed piece. -/
def lenientUtf8 (bs : List UInt8) : List Char := (readUtf8 bs).map (·.getD '\ufffd')

end ListQuery.Codec
