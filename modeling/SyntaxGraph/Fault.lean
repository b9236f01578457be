import SyntaxGraph.Address

/-!
# Faults

A construct that cannot be compiled fails with a fault: what went wrong and at which
address. The one soft kind, a shape that nothing recognises, never fails a build; it
is noted as a diagnostic instead.
-/

namespace SyntaxGraph

inductive FaultKind where
  | unrecognizedShape
  | malformedPattern
  | inconsistentArity
  | depthExceeded
  | sizeExceeded
  | invalidCaptureIndex
  deriving DecidableEq, Repr

namespace FaultKind

def name : FaultKind → String
  | .unrecognizedShape => "unrecognized-node-shape"
  | .malformedPattern => "malformed-pattern"
  | .inconsistentArity => "inconsistent-clause-arity"
  | .depthExceeded => "depth-exceeded"
  | .sizeExceeded => "size-exceeded"
  | .invalidCaptureIndex => "invalid-capture-index"

def all : List FaultKind :=
  [.unrecognizedShape, .malformedPattern, .inconsistentArity, .depthExceeded, .sizeExceeded,
    .invalidCaptureIndex]

def ofName? (name : String) : Option FaultKind := all.find? fun kind => kind.name == name

/-- Whether a fault of this class ends the build of its construct. -/
def isHard : FaultKind → Bool
  | .unrecognizedShape => false
  | _ => true

end FaultKind

/-- What is wrong with a pattern, a clause or a definition. -/
inductive Malformation where
  | boundTwice (name : String)
  | negatedOther
  | pinnedOther
  | headNotText
  | noPattern (tag : String)
  | entryNoPair
  | bindingKey
  | closureClause
  | closureEmpty
  | notDefinition
  | definitionArguments
  | headNoName
  | functionEmpty
  | grouped (other first : String)
  | branchClause
  | generatorClause
  deriving DecidableEq, Repr

def Malformation.reason : Malformation → String
  | .boundTwice name => "variable " ++ name ++ " is bound more than once"
  | .negatedOther => "only numbers can be negated in a pattern"
  | .pinnedOther => "only variables can be pinned"
  | .headNotText => "the left side of <> in a pattern must be a string literal"
  | .noPattern tag => tag ++ " is not a valid pattern"
  | .entryNoPair => "map pattern entries must be key/value pairs"
  | .bindingKey => "map keys cannot bind variables"
  | .closureClause => "fn clauses must have the form `params -> body`"
  | .closureEmpty => "fn has no clauses"
  | .notDefinition => "expected a def or defp form"
  | .definitionArguments => "def takes a head and an optional do block"
  | .headNoName => "function head must be a name with parameters"
  | .functionEmpty => "function has no clauses"
  | .grouped other first => "clause of " ++ other ++ " grouped with " ++ first
  | .branchClause => "expected a `pattern -> body` clause"
  | .generatorClause => "expected a `pattern <- value` clause"

/-- Why a construct was not compiled. -/
inductive Fault where
  /-- A pattern, clause or definition is not well formed. -/
  | malformed (site : Address) (what : Malformation)
  /-- Clauses of one construct take different numbers of parameters. -/
  | inconsistentArity (site : Address) (arities : List Nat)
  /-- The tree, or a walk over frames, goes deeper than allowed. -/
  | depthExceeded (site : Address) (limit : Nat)
  /-- A node has more parts than allowed. -/
  | sizeExceeded (site : Address) (what : String) (actual limit : Nat)
  /-- A placeholder is out of range or stands outside of a shorthand closure. -/
  | invalidCaptureIndex (site : Address) (index : Int64) (greatest : Nat)
  deriving DecidableEq, Repr

namespace Fault

def kind : Fault → FaultKind
  | .malformed .. => .malformedPattern
  | .inconsistentArity .. => .inconsistentArity
  | .depthExceeded .. => .depthExceeded
  | .sizeExceeded .. => .sizeExceeded
  | .invalidCaptureIndex .. => .invalidCaptureIndex

def site : Fault → Address
  | .malformed site _ => site
  | .inconsistentArity site _ => site
  | .depthExceeded site _ => site
  | .sizeExceeded site _ _ _ => site
  | .invalidCaptureIndex site _ _ => site

def message : Fault → String
  | .malformed site what => "Malformed pattern at " ++ site.text ++ ": " ++ what.reason
  | .inconsistentArity site arities =>
    "Inconsistent clause arity at " ++ site.text ++ ": clauses take [" ++
      ", ".intercalate (arities.map toString) ++ "] parameters"
  | .depthExceeded site limit =>
    "Depth exceeded at " ++ site.text ++ ": limit is " ++ toString limit
  | .sizeExceeded site what actual limit =>
    "Size exceeded at " ++ site.text ++ ": " ++ what ++ " count " ++ toString actual ++
      " is over the limit of " ++ toString limit
  | .invalidCaptureIndex site index greatest =>
    "Invalid capture index &" ++ toString index.toInt ++ " at " ++ site.text ++
      ": supported range is 1..=" ++ toString greatest

end Fault

end SyntaxGraph
