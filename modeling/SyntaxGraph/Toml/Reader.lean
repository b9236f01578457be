import SyntaxGraph.Decimal.Binary64
import SyntaxGraph.Text.Digits
import SyntaxGraph.Toml.Basic

/-!
# Reading TOML text

A text is read line by line into assignments and headers, which are then put together
into one table. Values may span lines where the format lets them: inside arrays and
inside texts between triple quotes. How deep values stand inside each other, and how
many parts a key has, is bounded.
-/

namespace SyntaxGraph.Toml

def isBlank (c : Char) : Bool := c == ' ' || c == '\t'

def skipBlanks (input : List Char) : List Char := input.dropWhile isBlank

/-- Characters that may stand in comments and texts: no control character except the tab. -/
def isPlain (c : Char) : Bool := c == '\t' || (' ' ≤ c && c ≠ '\x7f')

/-- The most arrays and inline tables around a value, and the most parts of a key. -/
def greatestNesting : Nat := 79

def isBare (c : Char) : Bool := c.isAlphanum || c == '_' || c == '-'

def newline? : List Char → Option (List Char)
  | '\n' :: rest => some rest
  | '\r' :: '\n' :: rest => some rest
  | _ => none

def skipComment : List Char → List Char
  | '#' :: rest => rest.dropWhile isPlain
  | input => input

/-- Read the rest of a line: blanks, a comment and a line break or the end of the text. -/
def lineEnd? (input : List Char) : Option (List Char) :=
  match skipComment (skipBlanks input) with
  | [] => some []
  | rest => newline? rest

/-! ## Texts -/

/-- Read a code point of exactly `count` hexadecimal digits. -/
def readCodePoint : Nat → Nat → List Char → Option (Char × List Char)
  | 0, value, rest =>
    if value < 0xD800 || (0xE000 ≤ value && value < 0x110000) then
      some (Char.ofNat value, rest)
    else none
  | count + 1, value, c :: rest =>
    match Text.hexValue? c with
    | some digit => readCodePoint count (value * 16 + digit) rest
    | none => none
  | _ + 1, _, [] => none

def readEscape : List Char → Option (Char × List Char)
  | 'b' :: rest => some ('\x08', rest)
  | 't' :: rest => some ('\t', rest)
  | 'n' :: rest => some ('\n', rest)
  | 'f' :: rest => some ('\x0c', rest)
  | 'r' :: rest => some ('\r', rest)
  | '"' :: rest => some ('"', rest)
  | '\\' :: rest => some ('\\', rest)
  | 'u' :: rest => readCodePoint 4 0 rest
  | 'U' :: rest => readCodePoint 8 0 rest
  | _ => none

def readBasic : Nat → List Char → List Char → Option (String × List Char)
  | 0, _, _ => none
  | fuel + 1, done, input =>
    match input with
    | '"' :: rest => some (String.ofList done.reverse, rest)
    | '\\' :: rest =>
      match readEscape rest with
      | some (c, rest) => readBasic fuel (c :: done) rest
      | none => none
    | c :: rest => if isPlain c then readBasic fuel (c :: done) rest else none
    | [] => none

/-- Read a text between apostrophes behind the opening one; nothing is escaped. -/
def readLiteral (input : List Char) : Option (String × List Char) :=
  match input.span fun c => isPlain c && c != '\'' with
  | (inside, '\'' :: rest) => some (String.ofList inside, rest)
  | _ => none

/-- A line break right behind opening triple quotes is dropped. -/
def dropFirstBreak (input : List Char) : List Char := (newline? input).getD input

/-- Drop blanks and line breaks, as behind a backslash at the end of a line. -/
def skipLines : List Char → List Char
  | ' ' :: rest => skipLines rest
  | '\t' :: rest => skipLines rest
  | '\n' :: rest => skipLines rest
  | '\r' :: '\n' :: rest => skipLines rest
  | input => input

/-- Whether only blanks stand between here and the end of the line. -/
def endsLine (input : List Char) : Bool := (newline? (skipBlanks input)).isSome

/-- Read a text of several lines up to its closing quotes; up to two more quotes before them
belong to the text. -/
def readLong (quote : Char) (escapes : Bool) : Nat → List Char → List Char →
    Option (String × List Char)
  | 0, _, _ => none
  | fuel + 1, done, input =>
    match input with
    | [] => none
    | c :: rest =>
      if c == quote then
        match input.span (· == quote) with
        | (quotes, after) =>
          if quotes.length < 3 then readLong quote escapes fuel (c :: done) rest
          else if quotes.length ≤ 5 then
            some (String.ofList (quotes.drop 3 ++ done).reverse, after)
          else none
      else if escapes && c == '\\' then
        if endsLine rest then readLong quote escapes fuel done (skipLines rest)
        else
          match readEscape rest with
          | some (e, rest) => readLong quote escapes fuel (e :: done) rest
          | none => none
      else
        match newline? input with
        | some rest => readLong quote escapes fuel ('\n' :: done) rest
        | none => if isPlain c then readLong quote escapes fuel (c :: done) rest else none

/-! ## Keys -/

def readKeyPart (input : List Char) : Option (String × List Char) :=
  match input with
  | '"' :: rest => readBasic (rest.length + 1) [] rest
  | '\'' :: rest => readLiteral rest
  | _ =>
    match input.span isBare with
    | ([], _) => none
    | (part, rest) => some (String.ofList part, rest)

/-- Read a dotted key of at most the given number of parts; the last part stands apart from the
path to it. -/
def readParts : Nat → List Char → Option ((List String × String) × List Char)
  | 0, _ => none
  | room + 1, input =>
    match readKeyPart (skipBlanks input) with
    | none => none
    | some (part, rest) =>
      match skipBlanks rest with
      | '.' :: rest =>
        (readParts room rest).map fun ((path, key), rest) => ((part :: path, key), rest)
      | rest => some (([], part), rest)

def readKey (input : List Char) : Option ((List String × String) × List Char) :=
  readParts greatestNesting input

/-! ## Values -/

/-- Characters of numbers and of the two truth values. -/
def isTokenChar (c : Char) : Bool := isBare c || c == '+' || c == '.'

/-- Read digits with single underscores between them. -/
def digits? (isDigitChar : Char → Bool) : List Char → Option (List Char)
  | [] => none
  | [c] => if isDigitChar c then some [c] else none
  | c :: '_' :: rest =>
    if isDigitChar c then (digits? isDigitChar rest).map (c :: ·) else none
  | c :: rest => if isDigitChar c then (digits? isDigitChar rest).map (c :: ·) else none

def natural (base : Nat) (digits : List Char) : Nat :=
  digits.foldl (fun n c => n * base + (Text.hexValue? c).getD 0) 0

def bounded? (value : Int) : Option Toml :=
  if -Int.pow 2 63 ≤ value && value < Int.pow 2 63 then some (.integer value) else none

def isDigitOf (base : Nat) (c : Char) : Bool :=
  match Text.hexValue? c with
  | some value => value < base
  | none => false

/-- A decimal integer without a sign: no leading zero before another digit. -/
def decimal? (token : List Char) : Option Nat :=
  match digits? Char.isDigit token with
  | some ('0' :: _ :: _) => none
  | some digits => some (natural 10 digits)
  | none => none

def splitSign : List Char → Bool × List Char
  | '-' :: rest => (true, rest)
  | '+' :: rest => (false, rest)
  | token => (false, token)

def integer? (token : List Char) : Option Toml :=
  let based (base : Nat) (rest : List Char) :=
    (digits? (isDigitOf base) rest).bind fun digits => bounded? (natural base digits)
  match token with
  | '0' :: 'x' :: rest => based 16 rest
  | '0' :: 'o' :: rest => based 8 rest
  | '0' :: 'b' :: rest => based 2 rest
  | _ =>
    let (negative, rest) := splitSign token
    (decimal? rest).bind fun n => bounded? (if negative then -(n : Int) else n)

def exponent? (token : List Char) : Option Int :=
  let (negative, rest) := splitSign token
  (digits? Char.isDigit rest).map fun digits =>
    if negative then -(natural 10 digits : Int) else natural 10 digits

def optionalExponent? : List Char → Option Int
  | [] => some 0
  | mark :: rest => if mark == 'e' || mark == 'E' then exponent? rest else none

/-- Read a float without a sign as a number and the power of ten that scales it: a whole part
with a fraction, an exponent or both. -/
def scaledDecimal? (token : List Char) : Option (Nat × Int) :=
  let isPart (c : Char) : Bool := c.isDigit || c == '_'
  match token.span isPart with
  | (_, []) => none
  | (whole, '.' :: rest) => do
    let (decimals, rest) := rest.span isPart
    let whole ← decimal? whole
    let decimals ← digits? Char.isDigit decimals
    let exponent ← optionalExponent? rest
    some (whole * Nat.pow 10 decimals.length + natural 10 decimals, exponent - decimals.length)
  | (whole, rest) => do
    let whole ← decimal? whole
    let exponent ← optionalExponent? rest
    some (whole, exponent)

/-- Whether a token is a float: a special word, or a decimal that is not too large. Only a
positive decimal can be too large; a negative one stands for minus infinity then. -/
def isFloat (token : List Char) : Bool :=
  let (negative, rest) := splitSign token
  if rest = ['i', 'n', 'f'] || rest = ['n', 'a', 'n'] then true
  else
    match scaledDecimal? rest with
    | some (digits, exponent) => negative || Binary64.isFiniteDecimal digits exponent
    | none => false

def token? (token : List Char) : Option Toml :=
  if token = ['t', 'r', 'u', 'e'] then some (.boolean true)
  else if token = ['f', 'a', 'l', 's', 'e'] then some (.boolean false)
  else
    match integer? token with
    | some value => some value
    | none => if isFloat token then some (.float (String.ofList token)) else none

def skipBetween : Nat → List Char → List Char
  | 0, input => input
  | fuel + 1, input =>
    let rest := skipComment (skipBlanks input)
    match newline? rest with
    | some rest => skipBetween fuel rest
    | none => rest

/-- Read a value that is neither a text nor made of other values. -/
def readScalar (input : List Char) : Option (Toml × List Char) :=
  match readMoment input with
  | some (value, rest) => some (.moment value, rest)
  | none =>
    match input.span isTokenChar with
    | (token, rest) => (token? token).map fun value => (value, rest)

mutual

/-- Read a value; `room` arrays and inline tables may still stand inside each other. -/
def readValue : Nat → Nat → List Char → Option (Toml × List Char)
  | 0, _, _ => none
  | fuel + 1, room, input =>
    match input, room with
    | '"' :: '"' :: '"' :: rest, _ =>
      (readLong '"' true (rest.length + 1) [] (dropFirstBreak rest)).map fun (s, rest) =>
        (.text s, rest)
    | '"' :: rest, _ => (readBasic (rest.length + 1) [] rest).map fun (s, rest) => (.text s, rest)
    | '\'' :: '\'' :: '\'' :: rest, _ =>
      (readLong '\'' false (rest.length + 1) [] (dropFirstBreak rest)).map fun (s, rest) =>
        (.text s, rest)
    | '\'' :: rest, _ => (readLiteral rest).map fun (s, rest) => (.text s, rest)
    | '[' :: _, 0 => none
    | '[' :: rest, room + 1 => readItems fuel room [] rest
    | '\x7b' :: _, 0 => none
    | '\x7b' :: rest, room + 1 =>
      match skipBlanks rest with
      | '\x7d' :: rest => some (.table .inline [], rest)
      | rest => readInline fuel room [] rest
    | _, _ => readScalar input

/-- Read the items of an array up to its end; a comma may stand behind the last one. -/
def readItems : Nat → Nat → List Toml → List Char → Option (Toml × List Char)
  | 0, _, _, _ => none
  | fuel + 1, room, done, input =>
    match skipBetween (input.length + 1) input with
    | ']' :: rest => some (.array done.reverse, rest)
    | input =>
      match readValue fuel room input with
      | none => none
      | some (item, rest) =>
        match skipBetween (rest.length + 1) rest with
        | ',' :: rest => readItems fuel room (item :: done) rest
        | ']' :: rest => some (.array (item :: done).reverse, rest)
        | _ => none

def readInline : Nat → Nat → Entries → List Char → Option (Toml × List Char)
  | 0, _, _, _ => none
  | fuel + 1, room, entries, input =>
    match readKey input with
    | some ((path, key), '=' :: rest) =>
      match readValue fuel room (skipBlanks rest) with
      | none => none
      | some (value, rest) =>
        match addKey key value path entries with
        | none => none
        | some entries =>
          match skipBlanks rest with
          | ',' :: rest => readInline fuel room entries rest
          | '\x7d' :: rest => some (.table .inline entries, rest)
          | _ => none
    | _ => none

end

/-! ## Documents -/

inductive Line where
  | header (isItem : Bool) (path : List String) (key : String)
  | assignment (path : List String) (key : String) (value : Toml)

def readHeader (isItem : Bool) (input : List Char) : Option (Line × List Char) :=
  match readKey input with
  | some ((path, key), ']' :: rest) =>
    match isItem, rest with
    | false, rest => some (.header false path key, rest)
    | true, ']' :: rest => some (.header true path key, rest)
    | true, _ => none
  | _ => none

def readLine (input : List Char) : Option (Line × List Char) :=
  match input with
  | '[' :: '[' :: rest => readHeader true rest
  | '[' :: rest => readHeader false rest
  | _ =>
    match readKey input with
    | some ((path, key), '=' :: rest) =>
      (readValue (2 * rest.length + 2) greatestNesting (skipBlanks rest)).map fun (value, rest) =>
        (.assignment path key value, rest)
    | _ => none

/-- Read all lines; `done` holds those before, last one first. -/
def readLines : Nat → List Line → List Char → Option (List Line)
  | 0, _, _ => none
  | fuel + 1, done, input =>
    match skipComment (skipBlanks input) with
    | [] => some done.reverse
    | rest =>
      match newline? rest with
      | some rest => readLines fuel done rest
      | none =>
        match readLine rest with
        | none => none
        | some (line, rest) =>
          match lineEnd? rest with
          | some rest => readLines fuel (line :: done) rest
          | none => none

/-- The assignments before the first header, and every header with those below it. -/
def sections : List Line → List ((List String × String) × Toml) × List Section
  | [] => ([], [])
  | .assignment path key value :: rest =>
    let (assignments, later) := sections rest
    (((path, key), value) :: assignments, later)
  | .header isItem path key :: rest =>
    let (assignments, later) := sections rest
    ([], ⟨path, key, isItem, assignments⟩ :: later)

/-- A byte order mark before the text is dropped. -/
def dropMark : List Char → List Char
  | '\uFEFF' :: rest => rest
  | input => input

/-- Read a document into the entries of its outermost table. -/
def read? (text : String) : Option Entries :=
  let input := dropMark text.toList
  match readLines (input.length + 1) [] input with
  | none => none
  | some lines =>
    let (assignments, later) := sections lines
    (addAssignments assignments []).bind (openSections later)

end SyntaxGraph.Toml
