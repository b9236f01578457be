import SyntaxGraph.Source.Basic

/-!
# Generators

`pattern <- value` clauses of `with` and `for`, with the guard split off the pattern.
-/

namespace SyntaxGraph

/-- The parts of a `pattern <- value` clause. -/
structure Generator where
  pattern : Source
  guard : Option Source
  value : Source
  /-- Whether it takes a binary apart. -/
  isBinary : Bool

namespace Generator

def withGuard (value : Source) (isBinary : Bool) : Source → Generator
  | .form "when" _ [pattern, guard] => ⟨pattern, some guard, value, isBinary⟩
  | pattern => ⟨pattern, none, value, isBinary⟩

/-- Read a generator. In `<<segment <- value>>` the pattern is a binary of one segment. -/
def ofSource? : Source → Option Generator
  | .form "<-" _ [pattern, value] => some (withGuard value false pattern)
  | .form "<<>>" _ [.form "<-" _ [segment, value]] =>
    some (withGuard value true (.form "<<>>" .empty [segment]))
  | _ => none

def isArrow : Source → Bool
  | .form "<-" _ _ => true
  | _ => false

/-- Whether a qualifier of a comprehension is a generator, well formed or not. -/
def isQualifier : Source → Bool
  | .form "<-" _ _ => true
  | .form "<<>>" _ [.form "<-" _ _] => true
  | _ => false

end Generator

end SyntaxGraph
