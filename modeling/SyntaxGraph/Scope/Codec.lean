import SyntaxGraph.Node.Codec
import SyntaxGraph.Scope.Resolution
import SyntaxGraph.Source.Codec

/-!
# Scopes as JSON

Frames are numbers, kinds are names, and what is missing is null.
-/

namespace SyntaxGraph

def ScopeId.toJson (scope : ScopeId) : Json := .integer scope.index

def ScopeId.ofJson? (j : Json) : Option ScopeId := j.uint32?.map fun n => ⟨n.toNat⟩

def ScopeKind.toJson (kind : ScopeKind) : Json := .text kind.name

def ScopeKind.ofJson? : Json → Option ScopeKind := Json.named? ScopeKind.ofName?

namespace Binding

def toJson (b : Binding) : Json :=
  .object [("name", .text b.name), ("node", .optional Address.toJson b.node),
    ("position", .optional Position.toJson b.position)]

/-- Read a binding; its node and its position may be null. -/
def ofJson? (j : Json) : Option Binding := do
  let record ← j.record? ["name", "node", "position"]
  let name ← (record.field "name").required Json.text?
  let node ← (record.field "node").optional Address.ofJson?
  let position ← (record.field "position").optional Position.ofJson?
  some ⟨name, node, position⟩

end Binding

def Frame.toJson (frame : Frame) (scope : ScopeId) : Json :=
  .object [("id", scope.toJson), ("kind", frame.kind.toJson),
    ("parent", .optional ScopeId.toJson frame.parent),
    ("bindings", .object (frame.bindings.entries.map fun (name, binding) =>
      (name, binding.toJson)))]

def FrameSummary.toJson (s : FrameSummary) : Json :=
  .object [("scope", s.scope.toJson), ("kind", s.kind.toJson),
    ("symbols", .array (s.symbols.map .text))]

def Supply.toJson (s : Supply) : Json :=
  .object [("scope", s.scope.toJson), ("kind", s.kind.toJson), ("distance", .integer s.distance),
    ("binding", .optional Address.toJson s.binding)]

end SyntaxGraph
