import SyntaxGraph.Text.Extending
import SyntaxGraph.Text.Unprintable

/-!
# Quoted text in messages

A message that shows a piece of input puts it between double quotes and spells out
every character a reader could not see or could take for part of the message.
-/

namespace SyntaxGraph.Text

/-- Lower-case hexadecimal digits of a code point, without leading zeros. -/
def hexDigits (n : Nat) : List Char := Nat.toDigits 16 n

def quoteChar (c : Char) : List Char :=
  if c = '\x00' then ['\\', '0']
  else if c = '\t' then ['\\', 't']
  else if c = '\r' then ['\\', 'r']
  else if c = '\n' then ['\\', 'n']
  else if c = '"' then ['\\', '"']
  else if c = '\\' then ['\\', '\\']
  else if ' ' ≤ c && c ≤ '~' then [c]
  else if isExtending c || isUnprintable c then
    ['\\', 'u', '\x7b'] ++ hexDigits c.toNat ++ ['\x7d']
  else [c]

def quoted (s : String) : String :=
  "\"" ++ String.ofList (s.toList.flatMap quoteChar) ++ "\""

end SyntaxGraph.Text
