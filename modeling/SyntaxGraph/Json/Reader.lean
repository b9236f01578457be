import SyntaxGraph.Json.Number
import SyntaxGraph.Text.Digits

/-!
# Reading JSON text

The grammar is strict: one value between optional blanks, no control characters in
texts, no half of a surrogate pair, no comma before a closing bracket. `nesting`
bounds how many arrays and objects may stand inside each other.
-/

namespace SyntaxGraph.Json

def isBlank (c : Char) : Bool := c == ' ' || c == '\t' || c == '\n' || c == '\r'

def skipBlanks (input : List Char) : List Char := input.dropWhile isBlank

/-- The code unit that four hexadecimal digits spell. -/
def unit? (a b c d : Char) : Option Nat := do
  let a ← Text.hexValue? a
  let b ← Text.hexValue? b
  let c ← Text.hexValue? c
  let d ← Text.hexValue? d
  some (((a * 16 + b) * 16 + c) * 16 + d)

/-- Whether a code unit is the first half of a pair. -/
def isLeading (unit : Nat) : Bool := 0xD800 ≤ unit && unit < 0xDC00

/-- Whether a code unit is the second half of a pair. -/
def isTrailing (unit : Nat) : Bool := 0xDC00 ≤ unit && unit < 0xE000

/-- The character of a code unit that is no half of a pair. -/
def single? (unit : Nat) : Option Char :=
  if isLeading unit || isTrailing unit then none else some (Char.ofNat unit)

def pair? (leading trailing : Nat) : Option Char :=
  if isLeading leading && isTrailing trailing then
    some (Char.ofNat (0x10000 + (leading - 0xD800) * 0x400 + (trailing - 0xDC00)))
  else none

def shortEscape? : Char → Option Char
  | '"' => some '"'
  | '\\' => some '\\'
  | '/' => some '/'
  | 'b' => some '\x08'
  | 'f' => some '\x0c'
  | 'n' => some '\n'
  | 'r' => some '\r'
  | 't' => some '\t'
  | _ => none

/-- Read the rest of a text behind its opening quote; `done` holds what was read, last
character first. -/
def readText (done : List Char) : List Char → Option (String × List Char)
  | [] => none
  | '"' :: rest => some (String.ofList done.reverse, rest)
  | '\\' :: 'u' :: a :: b :: c :: d :: rest =>
    match unit? a b c d with
    | none => none
    | some unit =>
      match single? unit, rest with
      | some c, rest => readText (c :: done) rest
      | none, '\\' :: 'u' :: e :: f :: g :: h :: rest =>
        match (unit? e f g h).bind (pair? unit) with
        | some c => readText (c :: done) rest
        | none => none
      | none, _ => none
  | '\\' :: mark :: rest =>
    match shortEscape? mark with
    | some c => readText (c :: done) rest
    | none => none
  | c :: rest => if c < ' ' || c == '\\' then none else readText (c :: done) rest

mutual

def readValue : Nat → Nat → List Char → Option (Json × List Char)
  | 0, _, _ => none
  | fuel + 1, room, input =>
    match skipBlanks input with
    | 'n' :: 'u' :: 'l' :: 'l' :: rest => some (.null, rest)
    | 't' :: 'r' :: 'u' :: 'e' :: rest => some (.bool true, rest)
    | 'f' :: 'a' :: 'l' :: 's' :: 'e' :: rest => some (.bool false, rest)
    | '"' :: rest => (readText [] rest).map fun (s, rest) => (.text s, rest)
    | '[' :: rest =>
      match room with
      | 0 => none
      | room + 1 =>
        match skipBlanks rest with
        | ']' :: rest => some (.array [], rest)
        | rest => readItems fuel room [] rest
    | '\x7b' :: rest =>
      match room with
      | 0 => none
      | room + 1 =>
        match skipBlanks rest with
        | '\x7d' :: rest => some (.object [], rest)
        | rest => readMembers fuel room [] rest
    | rest =>
      match readNumeral rest with
      | none => none
      | some (numeral, rest) => numeral.value?.map fun value => (value, rest)

/-- Read the items of an array up to its end; `done` holds those before, last one first. -/
def readItems : Nat → Nat → List Json → List Char → Option (Json × List Char)
  | 0, _, _, _ => none
  | fuel + 1, room, done, input =>
    match readValue fuel room input with
    | none => none
    | some (item, rest) =>
      match skipBlanks rest with
      | ',' :: rest => readItems fuel room (item :: done) rest
      | ']' :: rest => some (.array (item :: done).reverse, rest)
      | _ => none

/-- Read the members of an object up to its end; `done` holds those before, last one first. -/
def readMembers :
    Nat → Nat → List (String × Json) → List Char → Option (Json × List Char)
  | 0, _, _, _ => none
  | fuel + 1, room, done, input =>
    match skipBlanks input with
    | '"' :: rest =>
      match readText [] rest with
      | none => none
      | some (name, rest) =>
        match skipBlanks rest with
        | ':' :: rest =>
          match readValue fuel room rest with
          | none => none
          | some (value, rest) =>
            match skipBlanks rest with
            | ',' :: rest => readMembers fuel room ((name, value) :: done) rest
            | '\x7d' :: rest => some (.object ((name, value) :: done).reverse, rest)
            | _ => none
        | _ => none
    | _ => none

end

/-- Read a text that holds exactly one value. -/
def read? (nesting : Nat) (text : String) : Option Json :=
  let input := text.toList
  match readValue (2 * input.length + 2) nesting input with
  | some (value, rest) => if (skipBlanks rest).isEmpty then some value else none
  | none => none

end SyntaxGraph.Json
