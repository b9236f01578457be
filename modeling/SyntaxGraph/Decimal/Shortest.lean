import SyntaxGraph.Decimal.Binary64

/-!
# Shortest decimal digits

A binary number is written with the fewest significant digits that still lie nearer
to it than to any other binary number. For one, two, … seventeen digits the two
decimals around the value are tried; the first count with a hit wins, and of two
hits the nearer one, the even one if both are equally near.
-/

namespace SyntaxGraph.Decimal

/-- A positive decimal: the digits, most significant first, and the power of ten of the first
digit. -/
structure Digits where
  /-- The digits as one natural number, without trailing zeros. -/
  coefficient : Nat
  /-- The power of ten of the first digit. -/
  exponent : Int
  deriving DecidableEq, Repr

def digitCount (n : Nat) : Nat := (Nat.toDigits 10 n).length

/-- The power of ten of the first digit of the positive fraction `num / den`. -/
def leadingPower (num den : Nat) : Int :=
  if num ≥ den then (digitCount (num / den) : Int) - 1
  else
    let count := digitCount (den / num)
    if num * Nat.pow 10 (count - 1) ≥ den then -((count : Int) - 1) else -(count : Int)

/-- The decimals around a positive number that read back as it: with the unit `1 / den`, from
`low` to `high`, the ends included if `closed`. -/
structure Basin where
  value : Nat
  low : Nat
  high : Nat
  den : Nat
  closed : Bool
  deriving DecidableEq, Repr

def Basin.contains (b : Basin) (num scale : Nat) : Bool :=
  if b.closed then b.low * scale ≤ num * b.den && num * b.den ≤ b.high * scale
  else b.low * scale < num * b.den && num * b.den < b.high * scale

/-- The basin of a finite number other than zero. Below a power of two the neighbour stands
half as far away. -/
def Basin.of (x : Binary64) : Basin :=
  let m := x.significand
  let power := x.power - 2
  let narrow := x.fractionField = 0 && x.exponentField > 1
  let scale := if power ≥ 0 then Nat.pow 2 power.toNat else 1
  { value := 4 * m * scale
    low := (4 * m - if narrow then 1 else 2) * scale
    high := (4 * m + 2) * scale
    den := if power ≥ 0 then 1 else Nat.pow 2 (-power).toNat
    closed := m % 2 == 0 }

/-- The coefficient and grid of the decimal with the given count of digits that reads back, if
there is one: the decimal is `coefficient * 10 ^ grid`. -/
def Basin.withDigits? (b : Basin) (leading : Int) (count : Nat) : Option (Nat × Int) :=
  let grid := leading - (count : Int) + 1
  let up := if grid ≥ 0 then Nat.pow 10 grid.toNat else 1
  let scale := if grid ≥ 0 then 1 else Nat.pow 10 (-grid).toNat
  let below := b.value * scale / (b.den * up)
  let above := below + 1
  let hitBelow := below > 0 && b.contains (below * up) scale
  let hitAbove := b.contains (above * up) scale
  let twice := 2 * b.value * scale
  let middle := (below + above) * up * b.den
  if hitBelow && hitAbove then
    if twice < middle || (twice == middle && below % 2 == 0) then some (below, grid)
    else some (above, grid)
  else if hitBelow then some (below, grid)
  else if hitAbove then some (above, grid)
  else none

/-- Drop trailing zeros of a coefficient, at most as many as `fuel` says. -/
def dropZeros : Nat → Nat → Nat
  | 0, n => n
  | fuel + 1, n => if n > 0 && n % 10 = 0 then dropZeros fuel (n / 10) else n

/-- The shortest digits of a finite number other than zero. -/
def shortest (x : Binary64) : Digits :=
  let b := Basin.of x
  let leading := leadingPower b.value b.den
  let (coefficient, grid) :=
    ((List.range 17).findSome? fun i => b.withDigits? leading (i + 1)).getD (b.value, 0)
  let count := digitCount coefficient
  { coefficient := dropZeros count coefficient
    exponent := grid + (count : Int) - 1 }

end SyntaxGraph.Decimal
