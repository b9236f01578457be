import SyntaxGraph.Json.Basic

/-!
# JSON numbers

A numeral without fraction and exponent that fits is an integer. Any other is a
float: its leading digits make a significand below 2^64, which is rounded and then
scaled by one power of ten. A numeral beyond the greatest float is refused.
-/

namespace SyntaxGraph.Json

/-- The parts of a numeral as they are written. -/
structure Numeral where
  negative : Bool
  /-- The digits before the point. -/
  whole : List Char
  /-- The digits behind the point, none if there is no point. -/
  decimals : List Char
  /-- Whether an exponent is negative, and its digits. -/
  exponent : Option (Bool × List Char)
  deriving Repr

def digitValue (c : Char) : Nat := c.toNat - '0'.toNat

/-- Read an exponent behind its mark. -/
def readExponent (input : List Char) : Option ((Bool × List Char) × List Char) :=
  let (negative, rest) := match input with
    | '+' :: rest => (false, rest)
    | '-' :: rest => (true, rest)
    | _ => (false, input)
  match rest.span Char.isDigit with
  | ([], _) => none
  | (digits, rest) => some ((negative, digits), rest)

def readNumeralTail (negative : Bool) (whole decimals : List Char) (input : List Char) :
    Option (Numeral × List Char) :=
  match input with
  | 'e' :: rest | 'E' :: rest =>
    (readExponent rest).map fun (exponent, rest) => (⟨negative, whole, decimals, some exponent⟩, rest)
  | _ => some (⟨negative, whole, decimals, none⟩, input)

/-- Read a numeral: no leading zero before another digit, and at least one digit on either
side of a point. -/
def readNumeral (input : List Char) : Option (Numeral × List Char) :=
  let (negative, input) := match input with
    | '-' :: rest => (true, rest)
    | _ => (false, input)
  match input.span Char.isDigit with
  | ([], _) => none
  | ('0' :: _ :: _, _) => none
  | (whole, '.' :: rest) =>
    match rest.span Char.isDigit with
    | ([], _) => none
    | (decimals, rest) => readNumeralTail negative whole decimals rest
  | (whole, rest) => readNumeralTail negative whole [] rest

/-- The significand of the digits before the point and how many of them did not fit. -/
def wholeSignificand : Nat → List Char → Nat × Nat
  | significand, [] => (significand, 0)
  | significand, digits@(c :: rest) =>
    let next := significand * 10 + digitValue c
    if next < UInt64.size then wholeSignificand next rest else (significand, digits.length)

/-- Extend a significand by the decimals that fit; the second part counts them. -/
def decimalSignificand : Nat → Nat → List Char → Nat × Nat
  | significand, taken, [] => (significand, taken)
  | significand, taken, c :: rest =>
    let next := significand * 10 + digitValue c
    if next < UInt64.size then decimalSignificand next (taken + 1) rest else (significand, taken)

def powerOfTen (exponent : Nat) : Binary64 := .ofFraction false (Nat.pow 10 exponent) 1

/-- Divide by powers of ten of at most 308 until the whole exponent is used up or nothing is
left. -/
def scaleDown : Nat → Binary64 → Nat → Binary64
  | 0, x, _ => x
  | fuel + 1, x, exponent =>
    if exponent ≤ 308 then x.divMagnitude (powerOfTen exponent)
    else if x.isZero then x
    else scaleDown fuel (x.divMagnitude (powerOfTen 308)) (exponent - 308)

/-- The float of a significand scaled by a power of ten, if it is finite. -/
def scaled (significand : Nat) (exponent : Int) : Option Binary64 :=
  let x := Binary64.ofFraction false significand 1
  if exponent < 0 then some (scaleDown (exponent.natAbs + 1) x exponent.natAbs)
  else if exponent ≤ 308 then
    let product := x.mulMagnitude (powerOfTen exponent.toNat)
    if product.isFinite then some product else none
  else if significand = 0 then some x
  else none

/-- The number of a row of digits, unless it exceeds `greatest`. -/
def boundedDigits? (greatest : Nat) : Nat → List Char → Option Nat
  | n, [] => some n
  | n, c :: rest =>
    let next := n * 10 + digitValue c
    if next ≤ greatest then boundedDigits? greatest next rest else none

/-- The exponents a numeral can spell out. -/
def greatestExponent : Nat := Nat.pow 2 31 - 1

def Numeral.magnitude? (n : Numeral) : Option Binary64 :=
  let (significand, dropped) := wholeSignificand 0 n.whole
  let (significand, taken) := decimalSignificand significand 0 n.decimals
  let start : Int := (dropped : Int) - (taken : Int)
  match n.exponent with
  | none => scaled significand start
  | some (down, digits) =>
    match boundedDigits? greatestExponent 0 digits with
    | none => if down || significand = 0 then some ⟨0⟩ else none
    | some exponent => scaled significand (if down then start - exponent else start + exponent)

/-- The value of a numeral, if it is in range. -/
def Numeral.value? (n : Numeral) : Option Json :=
  let asFloat := n.magnitude?.map fun x => Json.float (if n.negative then x.neg else x)
  if n.decimals.isEmpty && n.exponent.isNone then
    match wholeSignificand 0 n.whole with
    | (significand, 0) =>
      if !n.negative then some (.integer significand)
      else if significand = 0 || Nat.pow 2 63 < significand then asFloat
      else some (.integer (-(significand : Int)))
    | _ => asFloat
  else asFloat

end SyntaxGraph.Json
