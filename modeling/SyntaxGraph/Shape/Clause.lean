import SyntaxGraph.Fault
import SyntaxGraph.Source.Basic

/-!
# Clauses and definitions

A clause has parameters, an optional guard and a body. Anonymous functions and
branches write it as `params -> body`; a definition writes it as a head with
parameters and a block.
-/

namespace SyntaxGraph

/-- A clause with its guard split off. -/
structure Clause where
  params : List Source
  guard : Option Source
  body : Option Source
  position : Option Position

namespace Clause

/-- A single `when` form holds the parameters and, last, the guard. -/
def splitGuard (params : List Source) : List Source × Option Source :=
  match params with
  | [.form "when" _ args] =>
    match args.getLast? with
    | some guard => (args.dropLast, some guard)
    | none => (params, none)
  | _ => (params, none)

/-- Split a `params -> body` clause. -/
def ofSource? (clause : Source) : Option Clause :=
  match clause with
  | .form "->" _ [.list params, body] =>
    let (params, guard) := splitGuard params
    some ⟨params, guard, some body, clause.position⟩
  | _ => none

def arity (c : Clause) : Nat := c.params.length

end Clause

structure DefinitionClause where
  isPrivate : Bool
  name : String
  clause : Clause

namespace DefinitionClause

def head? : Source → Option (String × List Source)
  | .symbol name _ => some (name, [])
  | .form name _ params => some (name, params)
  | _ => none

def splitHead : Source → Source × Option Source
  | .form "when" _ [call, guard] => (call, some guard)
  | head => (head, none)

/-- Whether a form defines a private function, and its arguments. -/
def arguments? : Source → Option (Bool × List Source)
  | .form "def" _ args => some (false, args)
  | .form "defp" _ args => some (true, args)
  | _ => none

def ofSource (form : Source) : Except Malformation DefinitionClause := do
  let some (isPrivate, args) := arguments? form | throw .notDefinition
  let (head, options) ← match args with
    | [head] => pure (head, none)
    | [head, options] => pure (head, some options)
    | _ => throw .definitionArguments
  let (call, guard) := splitHead head
  let some (name, params) := head? call | throw .headNoName
  return ⟨isPrivate, name, params, guard, options.bind fun o => o.keyword? "do", form.position⟩

def visibility (d : DefinitionClause) : String := if d.isPrivate then "private" else "public"

end DefinitionClause

/-- The clauses of a block: the items of a list, or a single tree. -/
def clauseItems : Option Source → List Source
  | none => []
  | some (.list items) => items
  | some single => [single]

end SyntaxGraph
