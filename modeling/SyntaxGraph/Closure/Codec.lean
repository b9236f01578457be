import SyntaxGraph.Closure.Report
import SyntaxGraph.Scope.Codec

/-!
# Closure reports as JSON

The report on a closure with its captures, in the order they are listed.
-/

namespace SyntaxGraph

def Capture.toJson (c : Capture) : Json :=
  .object [("name", .text c.name), ("reference_count", .integer c.referenceCount),
    ("positions", .array (c.positions.map Position.toJson)),
    ("references", .array (c.references.map Address.toJson)),
    ("frame", .optional Supply.toJson c.supply),
    ("mutation", .text c.mutation.name)]

def ClosureReport.toJson (r : ClosureReport) : Json :=
  .object [("closure", r.closure.toJson), ("bound", .array (r.bound.map .text)),
    ("captures", .array (r.captures.map Capture.toJson)),
    ("scope_chain", .array (r.scopeChain.map FrameSummary.toJson))]

end SyntaxGraph
