import SyntaxGraph.Build.Chain
import SyntaxGraph.Build.Closure
import SyntaxGraph.Build.Definition

/-!
# Building expressions

Every tree is looked at once for its shape and handed to the builder of that shape.
`Level.ofRoom` ties the builders together: at a level with room left, an expression or
a pattern is built from parts of the level below; generators reach two levels down.
-/

namespace SyntaxGraph

namespace Build

def nameNode (site : Address) (kind : NodeKind) (name : String) (source : Source) : Node :=
  (Node.make site kind).withTags [.expression] |>.set "name" name |>.withPosition source.position

def binaryNode (site : Address) (kind : NodeKind) (sign : String) (left right : Address) : Node :=
  (Node.make site kind)
    |>.withTags [.expression, .operator, .binaryOperator]
    |>.set "symbol" sign
    |>.relate .leftOperand left
    |>.relate .rightOperand right

/-- Build a match: the value first, then the pattern, whose bindings enter the current frame. -/
def matching (level : Level) (site : Address) (source : Source) (sign : String)
    (left right : Source) : Build Unit := do
  let leftSite := site.child Role.leftOperand.label
  let rightSite := site.child Role.rightOperand.label
  let (_, reads) ← trackReads (level.expression rightSite right)
  let bindings ← level.pattern leftSite left []
  bindAll bindings (some reads)
  emit ((binaryNode site .matchOperator sign leftSite rightSite)
    |>.withTags [.binding]
    |>.withPosition source.position)

/-- Build a binary operator other than a match. -/
def binaryOperator (level : Level) (site : Address) (source : Source) (kind : NodeKind)
    (sign : String) (left right : Source) : Build Unit := do
  let leftSite := site.child Role.leftOperand.label
  let rightSite := site.child Role.rightOperand.label
  level.expression leftSite left
  level.expression rightSite right
  emit ((binaryNode site kind sign leftSite rightSite).withPosition source.position)

def unaryOperator (level : Level) (site : Address) (source : Source) (kind : NodeKind)
    (sign : String) (operand : Source) : Build Unit := do
  let node := (Node.make site kind)
    |>.withTags [.expression, .operator, .unaryOperator]
    |>.set "symbol" sign
    |>.withPosition source.position
  let node ← level.child node .operand operand
  emit node

def block (level : Level) (site : Address) (source : Source) (statements : List Source) :
    Build Unit := do
  let addresses ← eachPart site .statement level.expression statements
  emit ((Node.make site .block)
    |>.withTags [.expression]
    |>.withPosition source.position
    |>.declare .statement
    |>.relateAll .statement addresses)

/-- Build a call by name; `def` and `defp` define a function and `defmodule` opens a module. -/
def localCall (level : Level) (site : Address) (source : Source) (name : String)
    (args : List Source) : Build Unit :=
  if (name = "def" || name = "defp") && !args.isEmpty then definition level site [source]
  else
    let build := call level site source .localCall (.named name) args
    if name = "defmodule" then inScope .module build else build

/-- Build an expression whose parts lie one level down, and those of its generators two. -/
def expressionStep (level inner : Level) (site : Address) (source : Source) : Build Unit :=
  match source.expression with
  | .literal shape => literal level site source shape
  | .symbol name => do
    readSymbol name site source.position
    emit ((nameNode site .variable name source).set "ignored" (isIgnored name))
  | .reserved name => emit (nameNode site .specialForm name source)
  | .moduleAttribute name => emit (nameNode site .moduleAttribute name source)
  | .moduleName segments =>
    match moduleText? segments with
    | some name =>
      emit ((Node.make site .alias)
        |>.withTags [.expression]
        |>.set "qualified_name" name
        |>.withPosition source.position)
    | none => unknown site "__aliases__" source.position
  | .unary category sign operand => unaryOperator level site source category.nodeKind sign operand
  | .binary .matching sign left right => matching level site source sign left right
  | .binary category sign left right =>
    binaryOperator level site source category.nodeKind sign left right
  | .block statements => block level site source statements
  | .conditional negated condition branches =>
    conditional level site source negated condition branches
  | .case subject branches => caseExpression level site source subject branches
  | .cond branches => condExpression level site source branches
  | .withChain clauses options => withExpression level inner site source clauses options
  | .comprehension qualifiers options => comprehension level inner site source qualifiers options
  | .closure clauses => anonymousFunction level site source clauses
  | .capture body => capture level site source body
  | .placeholder index => placeholder site source index
  | .localCall name args => localCall level site source name args
  | .remoteCall receiver name args =>
    call level site source .remoteCall (.remote receiver name) args
  | .anonymousCall function args =>
    call level site source .anonymousCall (.anonymous function) args
  | .unknown tag => unknown site tag source.position

end Build

namespace Level

/-- The level above two others: what is built there takes its parts from `level`, and generators
take theirs from `inner`. The levels below are only looked at when something is built. -/
def above (room : Nat) (level inner : Unit → Level) : Level :=
  { room := room
    expression := fun site source => Build.expressionStep (level ()) (inner ()) site source
    pattern := fun site source bindings =>
      Build.patternStep (level ())
        (fun site source => Build.expressionStep (level ()) (inner ()) site source)
        site source bindings }

/-- The level with `room` levels left. -/
def ofRoom : Nat → Level
  | 0 => .bottom
  | 1 => above 1 (fun _ => .bottom) (fun _ => .bottom)
  | room + 2 => above (room + 2) (fun _ => ofRoom (room + 1)) (fun _ => ofRoom room)

end Level

end SyntaxGraph
