import SyntaxGraph.OrderedMap
import SyntaxGraph.Text.Quoted

/-!
# Node addresses

Every node of a graph is named by the path that leads to it:
`<kind>/<index>` for the root of a construct, then a relation label, or a label and
a position, for each step down. `expr/3/left` is the left operand of the third
expression and `pattern/1/element/2` the third element of a compound pattern.

An address holds no counter and no hash: the same path from the same root is the
same text, so building a construct again names its nodes again alike. Addresses are
ordered by the code points of their texts.
-/

namespace SyntaxGraph

/-- The path-derived name of a graph node. -/
structure Address where
  /-- The path as it is written. -/
  text : String
  deriving DecidableEq, Hashable, Repr

namespace Address

instance : Inhabited Address := ⟨⟨"expr/0"⟩⟩

instance : Ord Address := ⟨fun a b => compare a.text b.text⟩

theorem compare_eq (a b : Address) : compare a b = compare a.text b.text := rfl

instance : Std.TransOrd Address := transOrd_of_key text compare_eq

instance : Std.LawfulEqOrd Address :=
  lawfulEqOrd_of_key text compare_eq fun a b h => by cases a; cases b; exact congrArg mk h

/-! ## Deriving addresses -/

/-- The address of the root of a construct, such as `expr/3`. -/
def root (kind : String) (index : UInt64) : Address :=
  ⟨kind ++ "/" ++ toString index.toNat⟩

def child (parent : Address) (label : String) : Address :=
  ⟨parent.text ++ "/" ++ label⟩

/-- The address one labelled and numbered step below `parent`. -/
def indexed (parent : Address) (label : String) (index : Nat) : Address :=
  ⟨parent.text ++ "/" ++ label ++ "/" ++ toString index⟩

/-- The address below `parent` through a label and, if given, a position. -/
def below (parent : Address) (label : String) : Option Nat → Address
  | none => parent.child label
  | some index => parent.indexed label index

/-! ## Segments -/

/-- Cut a text at every slash. There is always at least one segment. -/
def splitSegments : List Char → List (List Char)
  | [] => [[]]
  | c :: rest =>
    if c = '/' then [] :: splitSegments rest
    else
      match splitSegments rest with
      | [] => [[c]]
      | segment :: more => (c :: segment) :: more

/-- The segments of an address, kind and index of the root included. -/
def segments (a : Address) : List (List Char) := splitSegments a.text.toList

/-- How many segments stand below the root. -/
def depth (a : Address) : Nat := a.segments.length - 2

/-- Whether `a` is `ancestor` or lies on a path below it: the text of `ancestor` starts
the text of `a`, and what follows starts a new segment. -/
def isWithin (a ancestor : Address) : Bool :=
  a.text.toList == ancestor.text.toList ||
    (ancestor.text.toList.isPrefixOf a.text.toList &&
      (a.text.toList.drop ancestor.text.toList.length).head? == some '/')

/-! ## Reading addresses -/

/-- A label is a lower-case letter followed by lower-case letters, digits and underscores. -/
def isLabel : List Char → Bool
  | [] => false
  | first :: rest => first.isLower && rest.all fun c => c.isLower || c.isDigit || c == '_'

/-- Read a position: decimal digits after an optional plus sign, leading zeros allowed, below
2^64. -/
def readIndex (segment : List Char) : Option UInt64 :=
  let digits := match segment with
    | '+' :: rest => rest
    | _ => segment
  if digits.isEmpty || !digits.all Char.isDigit then none
  else
    let n := Nat.ofDigitChars 10 digits 0
    if n < UInt64.size then some (UInt64.ofNat n) else none

/-- Why a text is no address. -/
inductive ReadError where
  /-- The text does not start with a label. -/
  | missingKind (text : String)
  /-- Nothing follows the kind. -/
  | missingIndex (text : String)
  /-- What follows the kind is no position. -/
  | badIndex (index text : String)
  /-- A later segment is neither a label nor a position that follows one. -/
  | badSegment (segment text : String)
  deriving DecidableEq, Repr

def ReadError.reason : ReadError → String
  | .missingKind text => "missing root kind in " ++ Text.quoted text
  | .missingIndex text => "missing root index in " ++ Text.quoted text
  | .badIndex index text =>
    "invalid root index " ++ Text.quoted index ++ " in " ++ Text.quoted text
  | .badSegment segment text =>
    "invalid segment " ++ Text.quoted segment ++ " in " ++ Text.quoted text

/-- The first segment below the root that stands where it must not: `afterLabel` says whether
the segment before was a label, which is what a position needs. -/
def badSegment? : Bool → List (List Char) → Option (List Char)
  | _, [] => none
  | afterLabel, segment :: rest =>
    if isLabel segment then badSegment? true rest
    else if afterLabel && (readIndex segment).isSome then badSegment? false rest
    else some segment

/-- Read an address, checking every segment. The text is kept as it is written. -/
def read (text : String) : Except ReadError Address :=
  match splitSegments text.toList with
  | [] => .error (.missingKind text)
  | kind :: rest =>
    if isLabel kind then
      match rest with
      | [] => .error (.missingIndex text)
      | index :: steps =>
        if (readIndex index).isSome then
          match badSegment? false steps with
          | none => .ok ⟨text⟩
          | some segment => .error (.badSegment (String.ofList segment) text)
        else .error (.badIndex (String.ofList index) text)
    else .error (.missingKind text)

end Address

end SyntaxGraph
