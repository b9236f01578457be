import SyntaxGraph.Node.Basic
import SyntaxGraph.Scope.Resolution

/-!
# What a closure captures

The report on a closure lists the symbols its parameters bind, the symbols it takes
from outside and the frames around it. Each captured symbol becomes a node below the
closure, which points at the reads of the symbol and at the pattern that binds it.
-/

namespace SyntaxGraph

/-- How a closure body treats a captured name. -/
inductive Mutation where
  /-- Bound again to a value that does not read the captured one. -/
  | shadow
  /-- Bound again to a value that reads the captured one. -/
  | rebind
  /-- Never bound again. -/
  | immutable
  deriving DecidableEq, Repr

namespace Mutation

def name : Mutation → String
  | .shadow => "shadow"
  | .rebind => "rebind"
  | .immutable => "immutable"

def all : List Mutation := [.shadow, .rebind, .immutable]

def ofName? (name : String) : Option Mutation := all.find? fun mutation => mutation.name == name

/-- The class of a name from the places that bind it again; each says whether its value reads
the captured one. -/
def classify (rebinds : List Bool) : Mutation :=
  if rebinds.any id then .rebind
  else if rebinds.isEmpty then .immutable
  else .shadow

end Mutation

structure Capture where
  name : String
  /-- Positions of the reads that have one. -/
  positions : List Position
  /-- The nodes that read the symbol. -/
  references : List Address
  /-- The frame that supplies the symbol, if any visible frame does. -/
  supply : Option Supply
  mutation : Mutation
  deriving DecidableEq, Repr

def Capture.referenceCount (c : Capture) : Nat := c.references.length

/-- The analysis of one closure. -/
structure ClosureReport where
  closure : Address
  /-- The names its parameters bind, sorted. -/
  bound : List String
  /-- The captured symbols, sorted by name. -/
  captures : List Capture
  /-- The frames around it, innermost first. -/
  scopeChain : List FrameSummary
  deriving DecidableEq, Repr

namespace ClosureReport

/-- The report on something that is no closure. -/
def empty (closure : Address) : ClosureReport := ⟨closure, [], [], []⟩

def capture? (r : ClosureReport) (name : String) : Option Capture :=
  r.captures.find? fun capture => capture.name == name

/-- The captured names, sorted. -/
def freeNames (r : ClosureReport) : List String := r.captures.map (·.name)

/-- The node of the capture at a position of the report. -/
def captureNode (r : ClosureReport) (index : Nat) (capture : Capture) : Node :=
  let node := (Node.make (r.closure.indexed Role.captures.label index) .capturedVariable)
    |>.withTags [.closure]
    |>.set "name" capture.name
    |>.set "mutation" capture.mutation.name
    |>.set "reference_count" capture.referenceCount
    |>.set "mapped" capture.supply.isSome
  let node := match capture.supply with
    | none => node
    | some supply =>
      let node := node.set "frame_kind" supply.kind.name |>.set "frame_distance" supply.distance
      match supply.binding with
      | none => node
      | some binding => node.relate .boundBy binding
  node.relateAll .reference capture.references

/-- One node per captured symbol, in the order of the report. -/
def captureNodes (r : ClosureReport) : List Node :=
  r.captures.mapIdx r.captureNode

end ClosureReport

end SyntaxGraph
