import SyntaxGraph.Shape.Expression

/-!
# Pattern shapes

What a tree is as a pattern: what it would bind and what it would compare with.
-/

namespace SyntaxGraph

inductive Pattern where
  /-- A literal value; it binds nothing. -/
  | literal (shape : Literal)
  /-- A signed number. -/
  | signed (number : Source)
  /-- A compile-time value: a module name, a module attribute or a reserved name. -/
  | value
  | symbol (name : String)
  | wildcard
  | pin (pinned : Source)
  | tuple (items : List Source)
  | list (elements : List Source) (tail : Option Source)
  | map (entries : List Source)
  | struct (typeRef : Source) (fields : List Source)
  | binary (segments : List Source)
  | both (left right : Source)
  /-- A text with a fixed head. -/
  | textHead (head rest : Source)
  | fallback (pattern value : Source)
  | unknown (tag : String)

def Pattern.name : Pattern → String
  | .literal _ => "Literal"
  | .signed _ => "Negated"
  | .value => "Value"
  | .symbol _ => "Variable"
  | .wildcard => "Wildcard"
  | .pin _ => "Pin"
  | .tuple _ => "Tuple"
  | .list _ _ => "List"
  | .map _ => "Map"
  | .struct _ _ => "Struct"
  | .binary _ => "Binary"
  | .both _ _ => "As"
  | .textHead _ _ => "StringPrefix"
  | .fallback _ _ => "Default"
  | .unknown _ => "Unknown"

namespace Source

def isNumber : Source → Bool
  | .integer _ | .float _ => true
  | _ => false

/-- The literal a form is as a pattern, if it is one. -/
def literalPattern (tag : String) (s : Source) : Pattern :=
  match s.literal? with
  | some shape => .literal shape
  | none => .unknown tag

def binaryPattern (s : Source) (tag : String) (left right : Source) : Pattern :=
  match tag with
  | "%" =>
    match right.argsOf? mapTag with
    | some fields => .struct left fields
    | none => .unknown "%"
  | "=" => .both left right
  | "<>" => .textHead left right
  | "\\\\" => .fallback left right
  | _ => literalPattern tag s

def formPattern (s : Source) (tag : String) (args : List Source) : Pattern :=
  if tag = tupleTag then .tuple args
  else if tag = mapTag then .map args
  else if tag = "<<>>" then .binary args
  else if tag = "__aliases__" || tag = "@" then .value
  else
    match args with
    | [single] =>
      if tag = "^" then .pin single
      else if (tag = "-" || tag = "+") && single.isNumber then .signed single
      else literalPattern tag s
    | [left, right] => binaryPattern s tag left right
    | _ => literalPattern tag s

def pattern (s : Source) : Pattern :=
  match s with
  | .symbol name _ =>
    if name = "_" then .wildcard
    else if name ∈ reservedNames then .value
    else .symbol name
  | .list items =>
    let (elements, tail) := splitTail items
    .list elements tail
  | .form tag _ args => formPattern s tag args
  | .tuple items => .tuple items
  | .call _ _ _ => .unknown "call"
  | _ => literalPattern "literal" s

end Source

end SyntaxGraph
