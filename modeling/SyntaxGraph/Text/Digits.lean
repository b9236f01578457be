/-!
# Hexadecimal digits

Characters are spelled by their numbers in the escapes of JSON texts and of settings, and a settings
file may hold numbers to the base sixteen.
-/

namespace SyntaxGraph.Text

/-- A digit in lower case; only the last digit of `n` counts. -/
def hexDigit (n : Nat) : Char := Nat.digitChar (n % 16)

/-- The value of a digit of either case. -/
def hexValue? (c : Char) : Option Nat :=
  if c.isDigit then some (c.toNat - '0'.toNat)
  else if 'a' ≤ c && c ≤ 'f' then some (c.toNat - 'a'.toNat + 10)
  else if 'A' ≤ c && c ≤ 'F' then some (c.toNat - 'A'.toNat + 10)
  else none

theorem hexValue?_hexDigit (n : Nat) : hexValue? (hexDigit n) = some (n % 16) := by
  have each : ∀ d < 16, hexValue? (Nat.digitChar d) = some d := by decide
  exact each _ (Nat.mod_lt n (by decide))

end SyntaxGraph.Text
