import SyntaxGraph.Decimal.Layout
import SyntaxGraph.Json.Basic
import SyntaxGraph.Text.Digits

/-!
# Writing JSON text

The compact form: no blanks, members in the order they stand. Texts escape the quote,
the backslash and control characters, and leave all else as it is.
-/

namespace SyntaxGraph.Json

def escapeChar (c : Char) : List Char :=
  if c = '"' then ['\\', '"']
  else if c = '\\' then ['\\', '\\']
  else if c = '\x08' then ['\\', 'b']
  else if c = '\t' then ['\\', 't']
  else if c = '\n' then ['\\', 'n']
  else if c = '\x0c' then ['\\', 'f']
  else if c = '\r' then ['\\', 'r']
  else if c < ' ' then ['\\', 'u', '0', '0', Text.hexDigit (c.toNat / 16), Text.hexDigit c.toNat]
  else [c]

def writeText (s : String) : String :=
  "\"" ++ String.ofList (s.toList.flatMap escapeChar) ++ "\""

/-- A float, or null in place of one that is not finite: JSON has no text for it. -/
def writeFloat (x : Binary64) : String := if x.isFinite then x.text else "null"

mutual

/-- Put the compact text of a value behind `out`. -/
def append (out : String) : Json → String
  | .null => out ++ "null"
  | .bool true => out ++ "true"
  | .bool false => out ++ "false"
  | .integer value => out ++ toString value
  | .float value => out ++ writeFloat value
  | .text value => out ++ writeText value
  | .array items => appendItems (out ++ "[") items ++ "]"
  | .object members => appendMembers (out ++ "\x7b") members ++ "\x7d"

def appendItems (out : String) : List Json → String
  | [] => out
  | [item] => append out item
  | item :: rest => appendItems (append out item ++ ",") rest

def appendMembers (out : String) : List (String × Json) → String
  | [] => out
  | [(name, value)] => append (out ++ writeText name ++ ":") value
  | (name, value) :: rest =>
    appendMembers (append (out ++ writeText name ++ ":") value ++ ",") rest

end

def write (j : Json) : String := append "" j

end SyntaxGraph.Json
