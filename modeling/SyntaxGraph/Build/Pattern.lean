import SyntaxGraph.Build.Literal
import SyntaxGraph.Shape.Pattern

/-!
# Building patterns

A pattern becomes a subgraph of its own and yields the symbols it binds. They are
only collected here: whoever builds the pattern decides which frame receives them
once the whole position is done. Wildcards and pins bind nothing.
-/

namespace SyntaxGraph.Build

def patternNode (site : Address) (kind : NodeKind) (source : Source) : Node :=
  (Node.make site kind).withTags [.pattern] |>.withPosition source.position

/-- The negative of a signed 64-bit integer; the least one becomes the greatest. -/
def negated (value : Int64) : Int64 := if value = Int64.minValue then Int64.maxValue else -value

/-- The kind and value of a signed number. -/
def signedNumber? : Source → Option (NodeKind × Property)
  | .integer value => some (.integerLiteral, .integer (negated value))
  | .float value => some (.floatLiteral, .float value.neg)
  | _ => none

/-- Whether a name starts with an underscore. -/
def isIgnored (name : String) : Bool := name.toList.head? == some '_'

def patternElements (level : Level) (node : Node) (items : List Source) (bindings : Bindings) :
    Build (Node × Bindings) := do
  checkFanout node.address "pattern element" items.length
  let (addresses, bindings) ← foldParts node.address .element level.pattern 0 items bindings
  return ((node.declare .element).relateAll .element addresses, bindings)

/-- Build a part of a pattern in a single role and point the pattern at it. -/
def patternChild (level : Level) (node : Node) (role : Role) (source : Source)
    (bindings : Bindings) : Build (Node × Bindings) := do
  let address := node.address.child role.label
  let bindings ← level.pattern address source bindings
  return (node.relate role address, bindings)

/-- Build an entry of a map or struct pattern. Keys are compared and must not bind. -/
def patternEntry (level : Level) (site : Address) (source : Source) (bindings : Bindings) :
    Build Bindings := do
  match source.mapEntry? with
  | none => malformed site .entryNoPair
  | some (key, value) =>
    let keySite := site.child Role.key.label
    let valueSite := site.child Role.value.label
    let keyBindings ← level.pattern keySite key []
    if !keyBindings.isEmpty then malformed keySite .bindingKey
    let bindings ← level.pattern valueSite value bindings
    emit ((Node.make site .mapEntry)
      |>.withTags [.composite, .pattern]
      |>.relate .key keySite
      |>.relate .value valueSite
      |>.withPosition source.position)
    return bindings

def patternEntries (level : Level) (node : Node) (items : List Source) (bindings : Bindings) :
    Build (Node × Bindings) := do
  checkFanout node.address "pattern entry" items.length
  let (addresses, bindings) ← foldParts node.address .entry (patternEntry level) 0 items bindings
  return ((node.declare .entry).relateAll .entry addresses, bindings)

/-- The two sides of an as-pattern: what is matched, then the name for the whole. -/
def asSides (left right : Source) : Source × Source :=
  match right with
  | .symbol _ _ => (left, right)
  | _ => (right, left)

/-- The node of a pattern with its parts built, and the bindings with those of the pattern added.
`sameDepth` builds an expression in place of the pattern. -/
def patternStep (level : Level) (sameDepth : Address → Source → Build Unit) (site : Address)
    (source : Source) (bindings : Bindings) : Build Bindings := do
  match source.pattern with
  | .literal shape =>
    literal level site source shape
    return bindings
  | .value =>
    sameDepth site source
    return bindings
  | .signed number =>
    match signedNumber? number with
    | none => malformed site .negatedOther
    | some (kind, value) =>
      emit ((Node.make site kind)
        |>.withTags [.literal, .pattern]
        |>.set "value" value
        |>.withPosition source.position)
      return bindings
  | .symbol name =>
    let bindings ← bindings.add ⟨name, some site, source.position⟩ site
    emit ((patternNode site .variablePattern source)
      |>.withTags [.binding]
      |>.set "name" name
      |>.set "ignored" (isIgnored name))
    return bindings
  | .wildcard =>
    emit (patternNode site .wildcardPattern source)
    return bindings
  | .pin pinned =>
    match pinned.symbol? with
    | none => malformed site .pinnedOther
    | some name =>
      let node ← level.child ((patternNode site .pinPattern source).set "name" name) .pinned pinned
      emit node
      return bindings
  | .tuple items =>
    let (node, bindings) ←
      patternElements level (patternNode site .tuplePattern source) items bindings
    emit node
    return bindings
  | .list items tail =>
    let (node, bindings) ←
      patternElements level (patternNode site .listPattern source) items bindings
    let (node, bindings) ← match tail with
      | none => pure (node, bindings)
      | some tail => patternChild level node .tail tail bindings
    emit node
    return bindings
  | .map items =>
    let (node, bindings) ←
      patternEntries level (patternNode site .mapPattern source) items bindings
    emit node
    return bindings
  | .struct typeRef fields =>
    let (node, bindings) ←
      patternChild level (patternNode site .structPattern source) .referencedType typeRef bindings
    let node := match (typeRef.argsOf? "__aliases__").bind moduleText? with
      | some name => node.set "type_name" name
      | none => node
    let (node, bindings) ← patternEntries level node fields bindings
    emit node
    return bindings
  | .binary segments =>
    let (node, bindings, sizes) ← Segment.buildAll level.room level.pattern
      (patternNode site .binaryPattern source) segments bindings
    -- A size that the same position binds is no read of an outer value.
    readAll (sizes.filter fun size => !bindings.binds size.1) source.position
    emit node
    return bindings
  | .both left right =>
    let (inner, whole) := asSides left right
    let (node, bindings) ←
      patternChild level (patternNode site .asPattern source) .inner inner bindings
    let (node, bindings) ← patternChild level node .boundAs whole bindings
    emit node
    return bindings
  | .textHead head rest =>
    match head with
    | .text value =>
      let (node, bindings) ← patternChild level
        ((patternNode site .stringPrefixPattern source).set "prefix" value) .tail rest bindings
      emit node
      return bindings
    | _ => malformed site .headNotText
  | .fallback inner value =>
    let (node, bindings) ←
      patternChild level (patternNode site .defaultArgument source) .pattern inner bindings
    let node ← level.child node .defaultValue value
    emit node
    return bindings
  | .unknown tag => malformed site (.noPattern tag)

end SyntaxGraph.Build
