import SyntaxGraph.Closure.Codec
import SyntaxGraph.Compiler

/-!
# Compiled constructs as JSON

Nodes stand in the order of their addresses, diagnostics and closure reports in the
order they were recorded.
-/

namespace SyntaxGraph

def Diagnostic.toJson (d : Diagnostic) : Json :=
  .object [("at", d.site.toJson), ("kind", .text d.kind.name), ("tag", .text d.tag),
    ("position", .optional Position.toJson d.position)]

def Compiled.toJson (c : Compiled) : Json :=
  .object [("root", c.root.toJson), ("nodes", .array (c.nodes.map Node.toJson)),
    ("diagnostics", .array (c.diagnostics.map Diagnostic.toJson)),
    ("closures", .array (c.closures.map ClosureReport.toJson))]

def CompiledPattern.toJson (p : CompiledPattern) : Json :=
  .object [("graph", p.compiled.toJson), ("bindings", .array (p.bindings.map Binding.toJson))]

/-- Read a frame to be put around constructs: its kind and the names it binds. -/
def Compiler.frameOfJson? : Json → Option (ScopeKind × List String)
  | .object members => do
    let kind ← (Json.Member.find "kind" members).required ScopeKind.ofJson?
    let names ← (Json.Member.find "names" members).required (Json.list? Json.text?)
    some (kind, names)
  | _ => none

end SyntaxGraph
