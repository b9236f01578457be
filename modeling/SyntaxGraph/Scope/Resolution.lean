import SyntaxGraph.Fault
import SyntaxGraph.Scope.Basic

/-!
# Where captured symbols come from

A captured symbol is supplied by the nearest frame around its closure that binds it.
The walk outwards is bounded by the depth ceiling of the build: it fails once it
would have to look at more frames than that.
-/

namespace SyntaxGraph

/-- One frame of an enclosing chain. -/
structure FrameSummary where
  scope : ScopeId
  kind : ScopeKind
  /-- The names the frame binds, sorted. -/
  symbols : List String
  deriving DecidableEq, Repr

/-- The frame that supplies a symbol. -/
structure Supply where
  scope : ScopeId
  kind : ScopeKind
  /-- How many frames lie between it and the frame around the closure. -/
  distance : Nat
  /-- The pattern node that binds the symbol, if this build made it. -/
  binding : Option Address
  deriving DecidableEq, Repr

namespace Scopes

/-- Summaries of the frames from `scope` outwards; `room` frames may still be looked at. -/
def summariesWithin (g : Scopes) (fault : Fault) :
    Nat → ScopeId → Except Fault (List FrameSummary)
  | 0, _ => .error fault
  | room + 1, scope =>
    match g.frame? scope with
    | none => .ok []
    | some frame =>
      let summary := ⟨scope, frame.kind, frame.bindings.keys⟩
      match frame.parent with
      | none => .ok [summary]
      | some parent => (g.summariesWithin fault room parent).map (summary :: ·)

/-- The frames from `scope` outwards, innermost first. -/
def summaries (g : Scopes) (maxDepth : Nat) (site : Address) (scope : ScopeId) :
    Except Fault (List FrameSummary) :=
  g.summariesWithin (.depthExceeded site maxDepth) maxDepth scope

/-- The nearest frame from `scope` outwards that binds `name`, `distance` frames having been
passed; `room` frames may still be looked at. -/
def supplyWithin (g : Scopes) (fault : Fault) (name : String) :
    Nat → Nat → ScopeId → Except Fault (Option Supply)
  | 0, _, _ => .error fault
  | room + 1, distance, scope =>
    match g.frame? scope with
    | none => .ok none
    | some frame =>
      match frame.bindings.get? name with
      | some binding => .ok (some ⟨scope, frame.kind, distance, binding.node⟩)
      | none =>
        match frame.parent with
        | none => .ok none
        | some parent => g.supplyWithin fault name room (distance + 1) parent

/-- The nearest frame from `scope` outwards that binds `name`. -/
def supply (g : Scopes) (maxDepth : Nat) (site : Address) (scope : ScopeId) (name : String) :
    Except Fault (Option Supply) :=
  g.supplyWithin (.depthExceeded site maxDepth) name maxDepth 0 scope

end Scopes

end SyntaxGraph
