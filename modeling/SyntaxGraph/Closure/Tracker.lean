import SyntaxGraph.Closure.Report
import SyntaxGraph.Limits

/-!
# Following a closure while it is built

While the body of a closure is compiled, a tracker notes each read that is not
answered inside the closure, and each match in the body that binds such a name again.
When the body is done the notes are resolved against the frames around the closure.
-/

namespace SyntaxGraph

/-- What was noted about one name from outside. -/
structure FreeUse where
  positions : List Position
  references : List Address
  /-- For each place that binds the name again, whether its value reads the name. -/
  rebinds : List Bool
  deriving DecidableEq, Repr

instance : Inhabited FreeUse := ⟨⟨[], [], []⟩⟩

/-- The notes on one closure. -/
structure Tracker where
  closure : Address
  /-- The frame of the closure; whatever lies inside it is local. -/
  scope : ScopeId
  bound : OrderedSet String
  free : OrderedMap String FreeUse

namespace Tracker

def start (closure : Address) (scope : ScopeId) : Tracker := ⟨closure, scope, ∅, ∅⟩

/-- Note names that parameters bind. -/
def addBound (t : Tracker) (names : List String) : Tracker :=
  { t with bound := names.foldl OrderedSet.add t.bound }

def use (t : Tracker) (name : String) : FreeUse := (t.free.get? name).getD default

/-- Note a read that is not answered inside the closure. -/
def recordRead (t : Tracker) (name : String) (reference : Address) (position : Option Position) :
    Tracker :=
  let use := t.use name
  let noted : FreeUse :=
    ⟨use.positions ++ position.toList, use.references ++ [reference], use.rebinds⟩
  { t with free := t.free.insert name noted }

def captures (t : Tracker) (name : String) : Bool := t.free.contains name

/-- Note a match in the body that binds a name from outside again. The name counts as captured
even if its old value is never read. -/
def recordRebinding (t : Tracker) (name : String) (readsSelf : Bool) : Tracker :=
  let use := t.use name
  { t with free := t.free.insert name { use with rebinds := use.rebinds ++ [readsSelf] } }

/-- The capture a noted name amounts to, its supplying frame looked up around the closure. -/
def capture (t : Tracker) (scopes : Scopes) (enclosing : ScopeId) (limits : Limits)
    (entry : String × FreeUse) : Except Fault Capture :=
  (scopes.supply limits.maxDepth t.closure enclosing entry.1).map fun supply =>
    { name := entry.1
      positions := entry.2.positions
      references := entry.2.references
      supply := supply
      mutation := .classify entry.2.rebinds }

/-- Resolve all notes against the frames around the closure. -/
def report (t : Tracker) (scopes : Scopes) (enclosing : ScopeId) (limits : Limits) :
    Except Fault ClosureReport := do
  if t.free.size > limits.maxCaptures then
    throw (.sizeExceeded t.closure "captured variable" t.free.size limits.maxCaptures)
  let scopeChain ← scopes.summaries limits.maxDepth t.closure enclosing
  let captures ← t.free.entries.mapM (t.capture scopes enclosing limits)
  return ⟨t.closure, t.bound.keys, captures, scopeChain⟩

end Tracker

end SyntaxGraph
