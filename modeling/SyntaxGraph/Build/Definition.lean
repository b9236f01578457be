import SyntaxGraph.Build.Head

/-!
# Building definitions

The forms that define one function make one node, with a frame for the function and
one frame inside it per form.
-/

namespace SyntaxGraph.Build

/-- Read each form of a definition from `index` on. -/
def definitionClauses (site : Address) : Nat → List Source → Build (List DefinitionClause)
  | _, [] => return []
  | index, form :: rest =>
    match DefinitionClause.ofSource form with
    | .error what => malformed (site.indexed Role.clause.label index) what
    | .ok clause => do
      let clauses ← definitionClauses site (index + 1) rest
      return clause :: clauses

def functionClause (level : Level) (site : Address) (clause : Clause) : Build Unit :=
  inScope .clause do
    let node := (Node.make site .functionClause).withPosition clause.position
    let (node, _) ← clauseHead level node .parameter clause
    let node ← optionalChild level node .body clause.body
    emit node

/-- Build a named function from the forms that define it, in source order. -/
def definition (level : Level) (site : Address) (forms : List Source) : Build Unit := do
  match ← definitionClauses site 0 forms with
  | [] => malformed site .functionEmpty
  | clauses@(first :: _) =>
    match clauses.find? fun c => c.name != first.name || c.isPrivate != first.isPrivate with
    | some other => malformed site (.grouped other.name first.name)
    | none =>
      checkFanout site "clause" clauses.length
      let arity ← commonArity site (clauses.map (·.clause.arity))
      let node := (Node.make site .functionDefinition)
        |>.withTags [.expression]
        |>.set "name" first.name
        |>.set "arity" arity
        |>.set "visibility" first.visibility
        |>.set "clause_count" clauses.length
        |>.withPosition first.clause.position
      let addresses ← inScope .function
        (eachPart site .clause (fun site c => functionClause level site c.clause) clauses)
      emit ((node.declare .clause).relateAll .clause addresses)

end SyntaxGraph.Build
