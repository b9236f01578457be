import SyntaxGraph.Build.Level
import SyntaxGraph.Shape.Clause

/-!
# Heads of clauses

Every clause has a frame of its own. Its parameters are one pattern position; their
bindings enter the frame, and only then is the guard built, so that it sees the
bindings of its own clause and never those of a sibling. All clauses of one construct
take the same number of parameters.
-/

namespace SyntaxGraph.Build

/-- The common number of parameters, or a fault that lists all of them. -/
def commonArity (site : Address) (arities : List Nat) : Build Nat :=
  match arities with
  | [] => return 0
  | first :: rest =>
    if rest.all (· == first) then return first else throw (.inconsistentArity site arities)

/-- Split each of the clauses from `index` on, failing at the first that is none. -/
def splitClauses (site : Address) (label : String) (what : Malformation) :
    Nat → List Source → Build (List Clause)
  | _, [] => return []
  | index, source :: rest =>
    match Clause.ofSource? source with
    | none => malformed (site.indexed label index) what
    | some clause => do
      let clauses ← splitClauses site label what (index + 1) rest
      return clause :: clauses

/-- Build the parameters of a clause: in an ordered role at numbered addresses, in any other role
all at one address. -/
def parameters (level : Level) (node : Node) (role : Role) (params : List Source) :
    Build (Node × Bindings) := do
  if role.isOrdered then
    let (addresses, bindings) ← foldParts node.address role level.pattern 0 params []
    return ((node.declare role).relateAll role addresses, bindings)
  else
    let address := node.address.child role.label
    let bindings ← params.foldlM (fun bindings param => level.pattern address param bindings) []
    return (node.relateAll role (params.map fun _ => address), bindings)

/-- Build an expression in a single role, if there is one. -/
def optionalChild (level : Level) (node : Node) (role : Role) : Option Source → Build Node
  | none => return node
  | some source => level.child node role source

/-- Build the head of a clause: the parameters, then their bindings enter the current frame, then
the guard. The names bound are handed back. -/
def clauseHead (level : Level) (node : Node) (role : Role) (clause : Clause) :
    Build (Node × List String) := do
  let (node, bindings) ← parameters level node role clause.params
  bindAll bindings none
  let node ← optionalChild level node .guard clause.guard
  return (node, bindings.names)

end SyntaxGraph.Build
