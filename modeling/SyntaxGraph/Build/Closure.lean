import SyntaxGraph.Build.Call
import SyntaxGraph.Build.Head

/-!
# Building closures

An anonymous function opens a frame and is followed while its clauses are built; so is
a shorthand closure `&(...)`, whose parameters are the placeholders `&1`, `&2`, … in
it. `&name/arity` captures a named function and follows nothing.
-/

namespace SyntaxGraph.Build

def closureClause (level : Level) (site : Address) (clause : Clause) : Build Unit :=
  inScope .clause do
    let node := (Node.make site .anonymousFunctionClause)
      |>.withTags [.closure]
      |>.withPosition clause.position
    let (node, names) ← clauseHead level node .parameter clause
    boundByClosure names
    let node ← optionalChild level node .body clause.body
    emit node

def anonymousFunction (level : Level) (site : Address) (source : Source)
    (clauses : List Source) : Build Unit := do
  let clauses ← splitClauses site Role.clause.label .closureClause 0 clauses
  if clauses.isEmpty then malformed site .closureEmpty
  checkFanout site "clause" clauses.length
  let arity ← commonArity site (clauses.map Clause.arity)
  let node := (Node.make site .anonymousFunction)
    |>.withTags [.expression, .closure]
    |>.set "arity" arity
    |>.set "clause_count" clauses.length
    |>.withPosition source.position
  openClosure site
  let addresses ← eachPart site .clause (closureClause level) clauses
  let node ← closeClosure ((node.declare .clause).relateAll .clause addresses)
  emit node

def functionCapture (level : Level) (site : Address) (source : Source) (f : CapturedFunction) :
    Build Unit := do
  let node := (Node.make site .functionCapture)
    |>.withTags [.expression, .closure]
    |>.set "arity" f.arity
    |>.withPosition source.position
    |>.set "name" f.name
  let node ← match f.receiver with
    | none => pure node
    | some source => receiver level node source
  let calleeSite := site.child Role.callee.label
  let reference :=
    functionReference calleeSite (f.receiver.bind receiverModule?) f.name f.arity
  let node := match reference.text? "qualified_name" with
    | some name => node.set "qualified_name" name
    | none => node
  emit reference
  emit (node.relate .callee calleeSite)

def shorthandClosure (level : Level) (site : Address) (source body : Source) : Build Unit := do
  let node := (Node.make site .shorthandClosure)
    |>.withTags [.expression, .closure]
    |>.withPosition source.position
  let bodySite := site.child Role.body.label
  openClosure site
  let (_, arity) ← trackPlaceholders (level.expression bodySite body)
  let node ← closeClosure node
  emit ((node.set "arity" arity).relate .body bodySite)

def capture (level : Level) (site : Address) (source body : Source) : Build Unit :=
  match capturedFunction? body with
  | some f => functionCapture level site source f
  | none => shorthandClosure level site source body

/-- Build a placeholder, which must be in range and inside of a shorthand closure. -/
def placeholder (site : Address) (source : Source) (index : Int64) : Build Unit := do
  let greatest := (← read).maxCaptures
  let fault := Fault.invalidCaptureIndex site index greatest
  unless 1 ≤ index.toInt && index.toInt.toNat ≤ greatest do throw fault
  unless ← sawPlaceholder index do throw fault
  emit ((Node.make site .capturePlaceholder)
    |>.withTags [.expression]
    |>.set "index" index
    |>.withPosition source.position)

end SyntaxGraph.Build
