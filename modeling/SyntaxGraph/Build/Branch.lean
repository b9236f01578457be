import SyntaxGraph.Build.Head

/-!
# Building branches

`if`, `unless`, `case` and `cond`: every branch has a frame of its own, so that what one
of them binds is never seen by another.
-/

namespace SyntaxGraph.Build

def controlTags : List NodeTag := [.expression, .controlFlow]

def controlNode (site : Address) (kind : NodeKind) (source : Source) : Node :=
  (Node.make site kind).withTags controlTags |>.withPosition source.position

/-- Split clauses that must take one parameter each. -/
def singleClauses (site : Address) (role : Role) (items : List Source) : Build (List Clause) := do
  let clauses ← splitClauses site role.label .branchClause 0 items
  let arity ← commonArity site (clauses.map Clause.arity)
  if !clauses.isEmpty && arity != 1 then
    throw (.inconsistentArity site (clauses.map Clause.arity))
  return clauses

/-- Build a `pattern -> body` clause. -/
def branchClause (level : Level) (site : Address) (clause : Clause) : Build Unit :=
  inScope .clause do
    let node := (Node.make site .caseClause)
      |>.withTags [.controlFlow]
      |>.withPosition clause.position
    let (node, _) ← clauseHead level node .pattern clause
    let node ← optionalChild level node .body clause.body
    emit node

def branchClauses (level : Level) (node : Node) (role : Role) (items : List Source) :
    Build Node := do
  let clauses ← singleClauses node.address role items
  checkFanout node.address "clause" clauses.length
  let addresses ← eachPart node.address role (branchClause level) clauses
  return (node.declare role).relateAll role addresses

/-- Build a branch in a frame of its own, if there is one. -/
def branch (level : Level) (node : Node) (role : Role) : Option Source → Build Node
  | none => return node
  | some source => inScope .block (level.child node role source)

/-- Build `if` or `unless`. -/
def conditional (level : Level) (site : Address) (source : Source) (negated : Bool)
    (condition branches : Source) : Build Unit := do
  let kind : NodeKind := if negated then .unlessExpression else .ifExpression
  let node ← level.child (controlNode site kind source) .condition condition
  let node ← branch level node .thenBranch (branches.keyword? "do")
  let node ← branch level node .elseBranch (branches.keyword? "else")
  emit node

def caseExpression (level : Level) (site : Address) (source subject branches : Source) :
    Build Unit := do
  let node ← level.child (controlNode site .caseExpression source) .subject subject
  let node ← branchClauses level node .clause (clauseItems (branches.keyword? "do"))
  emit node

/-- Build a `condition -> body` clause. -/
def condClause (level : Level) (site : Address) (clause : Clause) : Build Unit :=
  inScope .block do
    let node := (Node.make site .condClause)
      |>.withTags [.controlFlow]
      |>.withPosition clause.position
    let node ← optionalChild level node .condition clause.params.head?
    let node ← optionalChild level node .body clause.body
    emit node

def condExpression (level : Level) (site : Address) (source branches : Source) : Build Unit := do
  let clauses ← singleClauses site .clause (clauseItems (branches.keyword? "do"))
  checkFanout site "clause" clauses.length
  let addresses ← eachPart site .clause (condClause level) clauses
  emit (((controlNode site .condExpression source).declare .clause).relateAll .clause addresses)

end SyntaxGraph.Build
