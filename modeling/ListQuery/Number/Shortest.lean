import ListQuery.Number.Double

/-!
# Shortest spelling of a double

A finite number is written with the fewest significant digits that read back as it, and of those
with the nearest. The digits are found by trying the two neighbours of the number on the decimal
grids of 1, 2, … 17 digits; the exact expansion stands behind them, so the spelling always reads
back.
-/

namespace ListQuery.Number.Double

/-- `k` such that `10 ^ (k - 1) ≤ num / den < 10 ^ k`, for a quotient that is not zero. -/
def decimalPoint (num den : Nat) : Int :=
  let p : Int := (digitCount num : Int) - digitCount den
  -- the quotient lies between 10 ^ (p - 1) and 10 ^ (p + 1)
  let power := Nat.pow 10 p.natAbs
  let atLeast := if 0 ≤ p then den * power ≤ num else den ≤ num * power
  if atLeast then p + 1 else p

/-- The multiples of `10 ^ k` next to `num / den`: the lower one, and whether the upper one is
strictly nearer, strictly farther or as near. -/
def onGrid (num den : Nat) (k : Int) : Nat × Ordering :=
  let power := Nat.pow 10 k.natAbs
  let r := if 0 ≤ k then (num, den * power) else (num * power, den)
  (r.1 / r.2, compare r.2 (2 * (r.1 % r.2)))

/-- The neighbour of the magnitude on the grid `10 ^ k` that reads back, if one does. -/
def readsBack (m : Nat) (e : Int) (k : Int) : Option (Nat × Int) :=
  let r := magnitude m e
  let (low, upper) := onGrid r.1 r.2 k
  let candidates := match upper with
    | .lt => [low + 1, low]
    | .gt => [low, low + 1]
    | .eq => if low % 2 = 0 then [low, low + 1] else [low + 1, low]
  let fits (c : Nat) : Bool :=
    match ofScientific false c k with
    | .finite _ m' e' _ => m' == m && e' == e
    | _                 => false
  (candidates.find? fits).map (·, k)

/-- Coefficient and exponent of the shortest decimal that reads back as `m · 2 ^ e`. -/
def shortest (m : Nat) (e : Int) : Nat × Int :=
  let r := magnitude m e
  let p := decimalPoint r.1 r.2
  ((List.range 17).findSome? fun n => readsBack m e (p - (n + 1 : Nat))).getD (exactDecimal m e)

/-- The digits of `c` without zeros at the end, and how many there are of those. -/
def significant (c : Nat) : List Char × Nat :=
  let ds := (natChars c).reverse
  ((ds.dropWhile (· = '0')).reverse, (ds.takeWhile (· = '0')).length)

/-- How a number is written: positional with at least one place for exponents from -4 to 15,
otherwise scientific with a two-digit exponent. -/
def magnitudeChars (m : Nat) (e : Int) : List Char :=
  if m = 0 then ['0', '.', '0']
  else
    let (c, k) := shortest m e
    let (ds, zeros) := significant c
    let point : Int := k + zeros + ds.length
    if -4 < point ∧ point ≤ 16 then
      let cs := positional ds point
      if (ds.length : Int) ≤ point then cs ++ ['.', '0'] else cs
    else scientific 'e' 2 ds (point - 1)

def text : Double → String
  | .nan            => "nan"
  | .infinite false => "inf"
  | .infinite true  => "-inf"
  | .finite negative m e _ =>
    String.ofList (if negative then '-' :: magnitudeChars m e else magnitudeChars m e)

end ListQuery.Number.Double
