import SyntaxGraph.Build.Expression
import SyntaxGraph.Graph.Stats

/-!
# Compiling constructs

A compiler has ceilings and, if wanted, frames around every construct. Each construct
is compiled in a session of its own, from the first level down; a fault drops all of
it, and in a batch the next construct is compiled all the same.
-/

namespace SyntaxGraph

/-- What one construct was compiled to. -/
structure Compiled where
  root : Address
  /-- The nodes in the order of their addresses. -/
  nodes : List Node
  diagnostics : List Diagnostic
  /-- One report per closure, inner closures before outer ones. -/
  closures : List ClosureReport
  deriving DecidableEq

namespace Compiled

def node? (c : Compiled) (address : Address) : Option Node :=
  c.nodes.find? fun node => node.address == address

def closure? (c : Compiled) (address : Address) : Option ClosureReport :=
  c.closures.find? fun report => report.closure == address

def ofKind (c : Compiled) (kind : NodeKind) : List Node :=
  c.nodes.filter fun node => node.kind == kind

def graph (c : Compiled) : Graph := .ofNodes c.nodes

def fingerprint (c : Compiled) : String := c.graph.fingerprint

def lines (c : Compiled) : String := Node.lines c.nodes

end Compiled

/-- A compiled pattern and the symbols it binds, in the order they were found. -/
structure CompiledPattern where
  compiled : Compiled
  bindings : Bindings
  deriving DecidableEq

/-- A construct that was not compiled, and why. -/
structure ConstructFault where
  construct : Address
  fault : Fault
  deriving DecidableEq, Repr

def ConstructFault.message (f : ConstructFault) : String :=
  "Failed to build " ++ f.construct.text ++ ": " ++ f.fault.message

/-- A unit of work. -/
inductive Construct where
  | expression (root : Address) (source : Source)
  /-- The forms that define one function, in source order. -/
  | function (root : Address) (clauses : List Source)
  | pattern (root : Address) (source : Source)

def Construct.root : Construct → Address
  | .expression root _ => root
  | .function root _ => root
  | .pattern root _ => root

structure Batch where
  built : List Compiled
  failed : List ConstructFault
  deriving DecidableEq

namespace Batch

def totalNodes (b : Batch) : Nat :=
  b.built.foldl (fun total compiled => total + compiled.nodes.length) 0

/-- A summary with one line per fault. -/
def text (b : Batch) : String :=
  "Batch build:\n" ++
    "  Built: " ++ toString b.built.length ++ " (" ++ toString b.totalNodes ++ " nodes)\n" ++
    "  Failed: " ++ toString b.failed.length ++
    String.join (b.failed.map fun fault => "\n    " ++ fault.message)

end Batch

structure Compiler where
  limits : Limits
  /-- The frames around every construct with the names they bind, outermost first. -/
  frames : List (ScopeKind × List String)
  deriving DecidableEq, Repr

namespace Compiler

/-- Open the frames around a construct one inside the other. -/
def openFrames : List (ScopeKind × List String) → Scopes → ScopeId → Scopes × ScopeId
  | [], scopes, current => (scopes, current)
  | (kind, names) :: rest, scopes, current =>
    let inside := scopes.next
    let scopes := names.foldl (fun scopes name => scopes.bind inside ⟨name, none, none⟩)
      (scopes.add current kind)
    openFrames rest scopes inside

def session (c : Compiler) : Session :=
  let (scopes, current) := openFrames c.frames .initial .root
  .start scopes current

def sortNodes (nodes : List Node) : List Node :=
  nodes.mergeSort fun a b => (compare a.address b.address).isLE

def finish (root : Address) (s : Session) : Compiled :=
  ⟨root, sortNodes s.nodes.toList, s.diagnostics.toList, s.reports.toList⟩

/-- Run a build in a session of its own. -/
def run {α : Type} (c : Compiler) (root : Address) (build : Build α) :
    Except ConstructFault (Compiled × α) :=
  match (build.run c.limits).run c.session with
  | .ok (value, session) => .ok (finish root session, value)
  | .error fault => .error ⟨root, fault⟩

def level (c : Compiler) : Level := .ofRoom c.limits.maxDepth

def expression (c : Compiler) (root : Address) (source : Source) :
    Except ConstructFault Compiled :=
  (c.run root (c.level.expression root source)).map (·.1)

/-- Build a named function at the root, which needs a level of its own. -/
def buildFunction (root : Address) (clauses : List Source) : Nat → Build Unit
  | 0 => Build.tooDeep root
  | room + 1 => Build.definition (.ofRoom room) root clauses

/-- Compile the forms that define one function. -/
def function (c : Compiler) (root : Address) (clauses : List Source) :
    Except ConstructFault Compiled :=
  (c.run root (buildFunction root clauses c.limits.maxDepth)).map (·.1)

def pattern (c : Compiler) (root : Address) (source : Source) :
    Except ConstructFault CompiledPattern :=
  (c.run root (c.level.pattern root source [])).map fun (compiled, bindings) =>
    ⟨compiled, bindings⟩

/-- The report on the closure at the root of a tree; what is no closure captures nothing. -/
def closure (c : Compiler) (root : Address) (source : Source) :
    Except ConstructFault ClosureReport :=
  (c.expression root source).map fun compiled =>
    (compiled.closure? root).getD (.empty root)

def construct (c : Compiler) : Construct → Except ConstructFault Compiled
  | .expression root source => c.expression root source
  | .function root clauses => c.function root clauses
  | .pattern root source => (c.pattern root source).map (·.compiled)

/-- Compile every construct by itself. -/
def batch (c : Compiler) : List Construct → Batch
  | [] => ⟨[], []⟩
  | first :: rest =>
    let others := c.batch rest
    match c.construct first with
    | .ok compiled => { others with built := compiled :: others.built }
    | .error fault => { others with failed := fault :: others.failed }

end Compiler

end SyntaxGraph
