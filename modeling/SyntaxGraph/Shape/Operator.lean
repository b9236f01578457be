import SyntaxGraph.Node.Kind

/-!
# Operators

An operator is known by its tag and by how many operands it has. Its category
decides the kind of its node.
-/

namespace SyntaxGraph

inductive Operator where
  | arithmetic
  | comparison
  | logical
  | pipe
  | matching
  | listing
  | concat
  | membership
  deriving DecidableEq, Repr

namespace Operator

/-- The category of a tag with two operands. -/
def binary? (tag : String) : Option Operator :=
  if tag ∈ ["+", "-", "*", "/", "**", "&&&", "|||", "^^^", "<<<", ">>>"] then some .arithmetic
  else if tag ∈ ["==", "!=", "===", "!==", "<", ">", "<=", ">=", "=~"] then some .comparison
  else if tag ∈ ["and", "or", "&&", "||"] then some .logical
  else if tag = "|>" then some .pipe
  else if tag = "=" then some .matching
  else if tag ∈ ["++", "--"] then some .listing
  else if tag = "<>" then some .concat
  else if tag ∈ ["in", "not in"] then some .membership
  else none

def unary? (tag : String) : Option Operator :=
  if tag ∈ ["-", "+", "~~~"] then some .arithmetic
  else if tag ∈ ["!", "not"] then some .logical
  else none

def nodeKind : Operator → NodeKind
  | .arithmetic => .arithmeticOperator
  | .comparison => .comparisonOperator
  | .logical => .logicalOperator
  | .pipe => .pipeOperator
  | .matching => .matchOperator
  | .listing => .listOperator
  | .concat => .concatOperator
  | .membership => .membershipOperator

def name : Operator → String
  | .arithmetic => "Arithmetic"
  | .comparison => "Comparison"
  | .logical => "Logical"
  | .pipe => "Pipe"
  | .matching => "Match"
  | .listing => "List"
  | .concat => "Concat"
  | .membership => "Membership"

end Operator

end SyntaxGraph
