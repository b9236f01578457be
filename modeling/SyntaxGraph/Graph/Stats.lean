import SyntaxGraph.Digest.Blake3
import SyntaxGraph.Graph.Basic
import SyntaxGraph.Node.Codec

/-!
# Counts and fingerprints of graphs

The fingerprint of a graph is the digest of its nodes, one encoded node per line in
the order of their addresses. Equal node sets have equal fingerprints, however they
were added.
-/

namespace SyntaxGraph

structure GraphStats where
  nodes : Nat
  relations : Nat
  unknown : Nat
  /-- How many nodes there are of each kind that occurs, in the order of kinds. -/
  byKind : List (NodeKind × Nat)

def GraphStats.text (s : GraphStats) : String :=
  "Semantic Graph Statistics:\n" ++
    "  Nodes: " ++ toString s.nodes ++ " (unknown shapes: " ++ toString s.unknown ++ ")\n" ++
    "  Relations: " ++ toString s.relations ++ "\n" ++
    String.join (s.byKind.map fun (kind, count) =>
      "    " ++ kind.name ++ ": " ++ toString count ++ "\n")

/-- One encoded node per line. -/
def Node.lines (nodes : List Node) : String :=
  nodes.foldl (fun out node => out ++ node.encoded ++ "\n") ""

namespace Graph

def stats (g : Graph) : GraphStats :=
  { nodes := g.size
    relations := g.all.foldl (fun total node => total + node.links.length) 0
    unknown := ((g.byKind[NodeKind.unknownExpression]?).getD []).length
    byKind := (g.byKind.toList.filter fun entry => !entry.2.isEmpty).map fun entry =>
      (entry.1, entry.2.length) }

/-- The digest of the encoded nodes in the order of their addresses. -/
def fingerprint (g : Graph) : String := Blake3.hexDigest (Node.lines g.all).toUTF8

end Graph

end SyntaxGraph
