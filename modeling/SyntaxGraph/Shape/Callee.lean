import SyntaxGraph.Source.Basic

/-!
# What calls and captures name

A call names a function of its own module, a function of a receiver, or a function
value. A capture `&name/arity` names a function without calling it. A receiver that is
written as a module name or as an atom qualifies the name of the function.
-/

namespace SyntaxGraph

/-- One part of a module name, an atom or a symbol such as `__MODULE__`. -/
def moduleSegment? : Source → Option String
  | .atom name => some name
  | .symbol name _ => some name
  | _ => none

def moduleText? (segments : List Source) : Option String :=
  if segments.isEmpty then none
  else (segments.mapM moduleSegment?).map fun parts => ".".intercalate parts

inductive Callee where
  /-- A function of the same module. -/
  | named (name : String)
  /-- A function of a receiver. -/
  | remote (receiver : Source) (name : String)
  /-- A function value. -/
  | anonymous (function : Source)

/-- The module that a receiver names, a module name or an atom. -/
def receiverModule? : Source → Option String
  | .atom name => some (":" ++ name)
  | .form "__aliases__" _ segments => moduleText? segments
  | _ => none

/-- A function named by a capture: its receiver, if one is written, its name and its arity. -/
structure CapturedFunction where
  receiver : Option Source
  name : String
  arity : Nat

/-- The receiver and name of a function that is named without being called. -/
def namedFunction? : Source → Option (Option Source × String)
  | .symbol name _ => some (none, name)
  | .form name _ [] => some (none, name)
  | .call (.form "." _ [receiver, .atom name]) _ [] => some (some receiver, name)
  | _ => none

/-- The function that the body of a capture names as `function/arity`. -/
def capturedFunction? : Source → Option CapturedFunction
  | .form "/" _ [target, .integer arity] =>
    if 0 ≤ arity.toInt then
      (namedFunction? target).map fun (receiver, name) => ⟨receiver, name, arity.toInt.toNat⟩
    else none
  | _ => none

end SyntaxGraph
