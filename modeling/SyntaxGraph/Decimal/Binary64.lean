/-!
# Binary floating-point numbers

A float of a source tree or of a node property is a 64-bit binary number, held by
its bit pattern so that two of them are equal exactly when they are written alike.
Arithmetic is done on exact fractions of natural numbers and rounded once, to the
nearest representable number and to the even one of two that are equally near.
-/

namespace SyntaxGraph

/-- A 64-bit binary floating-point number, given by its bits. -/
structure Binary64 where
  /-- Sign, eleven exponent bits and fifty-two fraction bits. -/
  bits : UInt64
  deriving DecidableEq, Hashable, Repr

/-- Round a fraction to the nearest natural number, a half to the even neighbour. -/
def roundDiv (num den : Nat) : Nat :=
  let quotient := num / den
  let twice := 2 * (num % den)
  if twice > den || (twice == den && quotient % 2 == 1) then quotient + 1 else quotient

namespace Binary64

instance : Inhabited Binary64 := ⟨⟨0⟩⟩

def isNegative (x : Binary64) : Bool := x.bits.toNat ≥ Nat.pow 2 63

/-- The bits below the sign. -/
def magnitudeBits (x : Binary64) : Nat := x.bits.toNat % Nat.pow 2 63

def exponentField (x : Binary64) : Nat := x.magnitudeBits / Nat.pow 2 52

def fractionField (x : Binary64) : Nat := x.magnitudeBits % Nat.pow 2 52

/-- Whether the number is neither infinite nor undefined. -/
def isFinite (x : Binary64) : Bool := x.exponentField < 2047

/-- Whether the number is zero, of either sign. -/
def isZero (x : Binary64) : Bool := x.magnitudeBits == 0

/-- The whole significand: a finite number has the magnitude `significand * 2 ^ power`. -/
def significand (x : Binary64) : Nat :=
  if x.exponentField = 0 then x.fractionField else x.fractionField + Nat.pow 2 52

def power (x : Binary64) : Int :=
  if x.exponentField = 0 then -1074 else (x.exponentField : Int) - 1075

/-- The magnitude of a finite number as a fraction. -/
def fraction (x : Binary64) : Nat × Nat :=
  if x.power ≥ 0 then (x.significand * Nat.pow 2 x.power.toNat, 1)
  else (x.significand, Nat.pow 2 (-x.power).toNat)

/-- The bits of the positive infinity, which bound the magnitudes of finite numbers. -/
def infiniteBits : Nat := 2047 * Nat.pow 2 52

/-- The magnitude bits nearest to the fraction `num / den`, infinite if it is too large. -/
def nearestBits (num den : Nat) : Nat :=
  if num = 0 then 0
  else
    let estimate : Int := (num.log2 : Int) - (den.log2 : Int) - 53
    let scaled (power : Int) : Nat × Nat :=
      if power ≥ 0 then (num, den * Nat.pow 2 power.toNat) else (num * Nat.pow 2 (-power).toNat, den)
    let (n, d) := scaled estimate
    let exact := if n / d ≥ Nat.pow 2 53 then estimate + 1 else estimate
    let power := max exact (-1074)
    let (n, d) := scaled power
    min infiniteBits ((power + 1074).toNat * Nat.pow 2 52 + roundDiv n d)

/-- Whether `digits * 10 ^ exponent` is nearest to a finite number. The greatest one has 309
places before the point, so a decimal with fewer is finite and one with more is not, and only
one with as many has to be rounded. -/
def isFiniteDecimal (digits : Nat) (exponent : Int) : Bool :=
  let places : Int := (Nat.toDigits 10 digits).length + exponent
  if digits = 0 || places < 309 then true
  else if places > 309 then false
  else if exponent ≥ 0 then nearestBits (digits * Nat.pow 10 exponent.toNat) 1 < infiniteBits
  else nearestBits digits (Nat.pow 10 (-exponent).toNat) < infiniteBits

/-- The number of the given sign nearest to the fraction `num / den`. -/
def ofFraction (negative : Bool) (num den : Nat) : Binary64 :=
  ⟨UInt64.ofNat (nearestBits num den + if negative then Nat.pow 2 63 else 0)⟩

def ofInt (i : Int) : Binary64 := ofFraction (i < 0) i.natAbs 1

def neg (x : Binary64) : Binary64 := ⟨x.bits ^^^ 0x8000000000000000⟩

/-- The rounded product of two finite magnitudes. -/
def mulMagnitude (x y : Binary64) : Binary64 :=
  ofFraction false (x.fraction.1 * y.fraction.1) (x.fraction.2 * y.fraction.2)

/-- The rounded quotient of two finite magnitudes, the second not zero. -/
def divMagnitude (x y : Binary64) : Binary64 :=
  ofFraction false (x.fraction.1 * y.fraction.2) (x.fraction.2 * y.fraction.1)

end Binary64

end SyntaxGraph
