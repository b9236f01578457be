import SyntaxGraph.Build.Segment
import SyntaxGraph.Shape.Callee
import SyntaxGraph.Shape.Literal

/-!
# Building literals

A scalar is one node with its value. A collection has one part per element or entry,
in order, and keeps its role even if it is empty. The parts lie one level below.
-/

namespace SyntaxGraph

namespace Build

def scalarTags : List NodeTag := [.expression, .literal]

def compositeTags : List NodeTag := [.expression, .literal, .composite]

def scalarNode (site : Address) (kind : NodeKind) (value : Property) : Node :=
  (Node.make site kind).withTags scalarTags |>.set "value" value

def compositeNode (site : Address) (kind : NodeKind) : Node :=
  (Node.make site kind).withTags compositeTags

def elements (level : Level) (node : Node) (items : List Source) : Build Node := do
  checkFanout node.address "element" items.length
  let addresses ← eachPart node.address .element level.expression items
  return (node.declare .element).relateAll .element addresses |>.set "size" items.length

/-- Build one entry of a map, struct or keyword list. -/
def entry (level : Level) (site : Address) (source : Source) : Build Unit := do
  match source.mapEntry? with
  | none => unknown site (source.tag?.getD "entry") source.position
  | some (key, value) =>
    let keySite := site.child Role.key.label
    let valueSite := site.child Role.value.label
    level.expression keySite key
    level.expression valueSite value
    emit ((Node.make site .mapEntry)
      |>.withTags [.composite]
      |>.relate .key keySite
      |>.relate .value valueSite
      |>.withPosition source.position)

def entries (level : Level) (node : Node) (items : List Source) : Build Node := do
  checkFanout node.address "entry" items.length
  let addresses ← eachPart node.address .entry (entry level) items
  return (node.declare .entry).relateAll .entry addresses |>.set "size" items.length

/-- Build the inside of a map or struct: entries, or entries that update a base. -/
def mapBody (level : Level) (node : Node) (items : List Source) : Build Node := do
  match items with
  | [.form "|" _ [base, updates]] =>
    let node ← level.child node .base base
    entries level node (updates.list?.getD [updates])
  | _ => entries level node items

/-- Build the bounds of a range that are there. -/
def bounds (level : Level) : Node → List (Role × Option Source) → Build Node
  | node, [] => return node
  | node, (_, none) :: rest => bounds level node rest
  | node, (role, some bound) :: rest => do
    let node ← level.child node role bound
    bounds level node rest

def characterOfCode? (code : Int64) : Option Char :=
  let value := code.toInt
  if 0 ≤ value && (value < 0xD800 || (0xE000 ≤ value && value < 0x110000)) then
    some (Char.ofNat value.toNat)
  else none

/-- The modifiers of a sigil, given as a text or as a list of character codes. -/
def modifierText : Source → String
  | .text value => value
  | .list items =>
    String.ofList (items.filterMap fun item =>
      match item with
      | .integer code => characterOfCode? code
      | _ => none)
  | _ => ""

def plainText? : Source → Option String
  | .text value => some value
  | _ => none

/-- The content of a sigil without interpolation, as one text. -/
def plainContent? : Source → Option String
  | .text value => some value
  | .form "<<>>" _ parts => (parts.mapM plainText?).map String.join
  | _ => none

def literalNode (level : Level) (site : Address) (position : Option Position) :
    Literal → Build Node
  | .integer value => return scalarNode site .integerLiteral value
  | .float value => return scalarNode site .floatLiteral (.float value)
  | .text value => return scalarNode site .stringLiteral value
  | .boolean value => return scalarNode site .booleanLiteral value
  | .nil => return (Node.make site .nilLiteral).withTags scalarTags
  | .atom value => return scalarNode site .atomLiteral value
  | .list items => do
    let (items, tail) := Source.splitTail items
    let node ← elements level (compositeNode site .listLiteral) items
    match tail with
    | none => return node
    | some tail => level.child node .tail tail
  | .keywordList items => entries level (compositeNode site .keywordList) items
  | .tuple items => elements level (compositeNode site .tupleLiteral) items
  | .map items => mapBody level (compositeNode site .mapLiteral) items
  | .struct typeRef fields => do
    let node ← level.child (compositeNode site .structLiteral) .referencedType typeRef
    let node := match (typeRef.argsOf? "__aliases__").bind moduleText? with
      | some name => node.set "type_name" name
      | none => node
    mapBody level node fields
  | .range first last step =>
    bounds level (compositeNode site .rangeLiteral)
      [(.first, some first), (.last, some last), (.step, step)]
  | .sigil letter content modifiers => do
    let node := (Node.make site .sigilLiteral).withTags scalarTags
      |>.set "letter" letter
      |>.set "modifiers" (modifierText modifiers)
    match plainContent? content with
    | some text => return node.set "content" text
    | none => level.child node .content content
  | .binary segments => do
    let (node, _, sizes) ← Segment.buildAll level.room
      (fun address value _ => level.expression address value)
      (compositeNode site .binaryLiteral) segments ()
    readAll sizes position
    return node

def literal (level : Level) (site : Address) (source : Source) (shape : Literal) : Build Unit := do
  let node ← literalNode level site source.position shape
  emit (node.withPosition source.position)

end Build

end SyntaxGraph
