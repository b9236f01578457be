import SyntaxGraph.Build.Branch
import SyntaxGraph.Build.Pattern
import SyntaxGraph.Shape.Generator

/-!
# Building chains of generators

`with` and `for` run through clauses one after the other. Their generators share one
frame, so that a later clause sees what an earlier one binds, and are one level deeper
than the other clauses.
-/

namespace SyntaxGraph.Build

/-- Build a generator. Its value is built before its pattern binds; `role` is that of the value. -/
def generator (level : Level) (role : Role) (site : Address) (source : Source) : Build Unit := do
  let some parts := Generator.ofSource? source | malformed site .generatorClause
  let node := (Node.make site .generator)
    |>.withTags [.controlFlow, .binding]
    |>.set "binary" parts.isBinary
    |>.withPosition source.position
  let (node, reads) ← trackReads (level.child node role parts.value)
  let (node, bindings) ← patternChild level node .pattern parts.pattern []
  bindAll bindings (some reads)
  let node ← optionalChild level node .guard parts.guard
  emit node

/-- Build the clauses of a chain from `index` on: generators in one role, all others in the role
`otherwise`. -/
def chainClauses (isGenerator : Source → Bool) (buildGenerator : Address → Source → Build Unit)
    (otherwise : Role) (buildOther : Address → Source → Build Unit) :
    Nat → List Source → Node → Build Node
  | _, [], node => return node
  | index, clause :: rest, node => do
    let (role, build) :=
      if isGenerator clause then (Role.generator, buildGenerator) else (otherwise, buildOther)
    let site := node.address.indexed role.label index
    build site clause
    chainClauses isGenerator buildGenerator otherwise buildOther (index + 1) rest
      (node.relate role site)

/-- Build `with`. The clauses behind `else` do not see what the chain binds. -/
def withExpression (level inner : Level) (site : Address) (source : Source)
    (clauses : List Source) (options : Source) : Build Unit := do
  checkFanout site "clause" clauses.length
  let node := (controlNode site .withExpression source).declare .generator
  let node ← inScope .block do
    let node ← chainClauses Generator.isArrow (generator inner .value) .statement level.expression
      0 clauses node
    optionalChild level node .body (options.keyword? "do")
  let node ← match options.keyword? "else" with
    | none => pure node
    | some fallback => branchClauses level node .elseBranch (clauseItems (some fallback))
  emit node

/-- Build `for`. Its options are evaluated outside of the comprehension's frame; with `reduce` the
body is a list of clauses. -/
def comprehension (level inner : Level) (site : Address) (source : Source)
    (qualifiers : List Source) (options : Source) : Build Unit := do
  checkFanout site "qualifier" qualifiers.length
  let node := controlNode site .comprehension source
  let node ← optionalChild level node .into (options.keyword? "into")
  let node ← optionalChild level node .reduce (options.keyword? "reduce")
  let node := match (options.keyword? "uniq").bind Source.atom? with
    | some name => node.set "uniq" (name == "true")
    | none => node
  let node ← inScope .comprehension do
    let node ← chainClauses Generator.isQualifier (generator inner .enumerable) .filter
      level.expression 0 qualifiers (node.declare .generator)
    match options.keyword? "reduce" with
    | some _ => branchClauses level node .clause (clauseItems (options.keyword? "do"))
    | none => optionalChild level node .body (options.keyword? "do")
  emit node

end SyntaxGraph.Build
