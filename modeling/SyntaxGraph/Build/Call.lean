import SyntaxGraph.Build.Level
import SyntaxGraph.Shape.Callee

/-!
# Building calls

A call has one argument per position and points at what it calls: a function by its
name, qualified by its module if that is written, or an expression that gives a
function or a receiver.
-/

namespace SyntaxGraph

namespace Build

/-- The node that names a function as it is written. -/
def functionReference (site : Address) (module? : Option String) (name : String) (arity : Nat) :
    Node :=
  let qualified := match module? with
    | some module => module ++ "." ++ name
    | none => name
  let node := (Node.make site .functionReference)
    |>.set "name" name
    |>.set "arity" arity
    |>.set "qualified_name" qualified
  match module? with
  | some module => node.set "module" module
  | none => node

/-- Build a receiver that names no module. -/
def receiver (level : Level) (node : Node) (source : Source) : Build Node :=
  match receiverModule? source with
  | some _ => return node
  | none => level.child node .receiver source

def callee (level : Level) (node : Node) (target : Callee) (arity : Nat) : Build Node := do
  let site := node.address.child Role.callee.label
  match target with
  | .named name =>
    emit (functionReference site none name arity)
    return (node.set "name" name).relate .callee site
  | .remote source name =>
    let node ← receiver level (node.set "name" name) source
    emit (functionReference site (receiverModule? source) name arity)
    return node.relate .callee site
  | .anonymous function => level.child node .receiver function

def call (level : Level) (site : Address) (source : Source) (kind : NodeKind) (target : Callee)
    (args : List Source) : Build Unit := do
  let node := (Node.make site kind)
    |>.withTags [.expression, .call]
    |>.set "arity" args.length
    |>.withPosition source.position
  let node ← callee level node target args.length
  let addresses ← eachPart site .argument level.expression args
  emit ((node.declare .argument).relateAll .argument addresses)

end Build

end SyntaxGraph
