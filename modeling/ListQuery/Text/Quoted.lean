import ListQuery.Text.Printable

/-!
# Quoted text

How a message shows a text: between single quotes, or double quotes when the text holds a single
but no double quote, with the backslash, the quote in use and every unprintable character escaped.
-/

namespace ListQuery.Text

/-- The lower-case hexadecimal digit of `n % 16`. -/
def hexDigit (n : Nat) : Char :=
  if n % 16 < 10 then Char.ofNat (0x30 + n % 16) else Char.ofNat (0x57 + n % 16)

/-- `n` in hexadecimal with exactly `width` digits (the low ones). -/
def hexFixed : Nat → Nat → List Char
  | 0,         _ => []
  | width + 1, n => hexFixed width (n / 16) ++ [hexDigit n]

def quoteMark (cs : List Char) : Char :=
  if cs.contains '\'' && !cs.contains '"' then '"' else '\''

/-- A character inside quotes `q`. -/
def escapeIn (q : Char) (c : Char) : List Char :=
  if c = q || c = '\\' then ['\\', c]
  else if c = '\n' then ['\\', 'n']
  else if c = '\r' then ['\\', 'r']
  else if c = '\t' then ['\\', 't']
  else if isPrintable c then [c]
  else if c.toNat < 0x100 then '\\' :: 'x' :: hexFixed 2 c.toNat
  else if c.toNat < 0x10000 then '\\' :: 'u' :: hexFixed 4 c.toNat
  else '\\' :: 'U' :: hexFixed 8 c.toNat

def quotedChars (cs : List Char) : List Char :=
  let q := quoteMark cs
  q :: cs.flatMap (escapeIn q) ++ [q]

/-- The text as a message shows it. -/
def quoted (s : String) : String := String.ofList (quotedChars s.toList)

end ListQuery.Text
