import SyntaxGraph.Build.Session

/-!
# Levels of depth

Expressions contain patterns and patterns contain expressions. A builder for one node
therefore gets a `Level`: how a part one level further down is built, as an expression
or as a pattern, and how many levels are left there. Nothing can be built at a level
that has none left.
-/

namespace SyntaxGraph

/-- The bindings of one pattern position, in the order they were found. -/
abbrev Bindings := List Binding

namespace Bindings

def binds (bindings : Bindings) (name : String) : Bool := bindings.any fun b => b.name == name

def names (bindings : Bindings) : List String := bindings.map (·.name)

/-- Add a binding; a name may be bound only once per position. -/
def add (bindings : Bindings) (binding : Binding) (site : Address) : Build Bindings :=
  if bindings.binds binding.name then Build.malformed site (.boundTwice binding.name)
  else return bindings ++ [binding]

end Bindings

/-- How parts at one depth are built. -/
structure Level where
  /-- The levels left, this one included. -/
  room : Nat
  /-- Build an expression at an address. -/
  expression : Address → Source → Build Unit
  /-- Build a pattern at an address, adding to the bindings of its position. -/
  pattern : Address → Source → Bindings → Build Bindings

/-- The level below the deepest one: whatever is built there lies too deep. -/
def Level.bottom : Level :=
  ⟨0, fun site _ => Build.tooDeep site, fun site _ _ => Build.tooDeep site⟩

/-- Build an expression in a single role of a node and point the node at it. -/
def Level.child (level : Level) (node : Node) (role : Role) (source : Source) : Build Node := do
  let address := node.address.child role.label
  level.expression address source
  return node.relate role address

end SyntaxGraph
