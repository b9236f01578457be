import SyntaxGraph.Decimal.Shortest

/-!
# Decimal text of floats

Floats are written with the shortest digits that read back. Numbers of moderate size
stand in positional form, always with a fraction; all others with an exponent that
carries its sign.
-/

namespace SyntaxGraph.Decimal

/-- Where positional form ends and exponents begin. -/
structure Layout where
  /-- The least power of ten of the first digit that is written positionally. -/
  least : Int
  /-- The greatest power of ten of the first digit that is written positionally. -/
  greatest : Int
  deriving DecidableEq, Repr

/-- Floats are positional from `0.00001` to below `10000000000000000.0`. -/
def Layout.float : Layout := ⟨-5, 15⟩

def Layout.write (layout : Layout) (digits : Digits) : String :=
  let figures := Nat.toDigits 10 digits.coefficient
  let e := digits.exponent
  if layout.least ≤ e && e ≤ layout.greatest then
    if e ≥ 0 then
      let whole := e.toNat + 1
      let integer := figures.take whole ++ List.replicate (whole - figures.length) '0'
      let rest := figures.drop whole
      String.ofList (integer ++ '.' :: if rest.isEmpty then ['0'] else rest)
    else
      String.ofList ('0' :: '.' :: List.replicate ((-e).toNat - 1) '0' ++ figures)
  else
    let mantissa := match figures with
      | [] => []
      | [single] => [single]
      | first :: rest => first :: '.' :: rest
    let sign := if e < 0 then '-' else '+'
    String.ofList (mantissa ++ 'e' :: sign :: Nat.toDigits 10 e.natAbs)

end SyntaxGraph.Decimal

namespace SyntaxGraph.Binary64

/-- The text of a finite number: a sign if the sign bit is set, then zero or the shortest
digits. -/
def text (x : Binary64) : String :=
  let magnitude :=
    if x.isZero then "0.0" else Decimal.Layout.float.write (Decimal.shortest x)
  if x.isNegative then "-" ++ magnitude else magnitude

end SyntaxGraph.Binary64
