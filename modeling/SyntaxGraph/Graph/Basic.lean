import SyntaxGraph.Node.Basic

/-!
# Graphs

A graph holds nodes by address, the last one added under an address standing. Beside
the nodes it keeps two indexes up to date: the addresses of each kind, and for each
address the links that point at it.
-/

namespace SyntaxGraph

/-- Nodes by address, with indexes by kind and by target. -/
structure Graph where
  nodes : Std.TreeMap Address Node
  /-- The addresses of the nodes of each kind, in the order they were added. -/
  byKind : Std.TreeMap NodeKind (List Address)
  /-- The links to each address: the role and the node that has it. -/
  incomingIndex : Std.TreeMap Address (List (Role × Address))

namespace Graph

def empty : Graph := ⟨∅, ∅, ∅⟩

instance : EmptyCollection Graph := ⟨empty⟩

instance : Inhabited Graph := ⟨empty⟩

/-- Put an element at the end of the list under a key. -/
def appendAt {κ α : Type} [Ord κ] (index : Std.TreeMap κ (List α)) (key : κ) (element : α) :
    Std.TreeMap κ (List α) :=
  index.alter key fun
    | none => some [element]
    | some elements => some (elements ++ [element])

/-- Keep only some elements of the list under a key. -/
def filterAt {κ α : Type} [Ord κ] (index : Std.TreeMap κ (List α)) (key : κ) (keep : α → Bool) :
    Std.TreeMap κ (List α) :=
  index.alter key fun
    | none => none
    | some elements => some (elements.filter keep)

def unindex (g : Graph) (node : Node) : Graph :=
  { g with
    byKind := filterAt g.byKind node.kind fun address => address != node.address
    incomingIndex := node.links.foldl
      (fun index link => filterAt index link.2 fun source => source.2 != node.address)
      g.incomingIndex }

def index (g : Graph) (node : Node) : Graph :=
  { g with
    byKind := appendAt g.byKind node.kind node.address
    incomingIndex := node.links.foldl
      (fun index link => appendAt index link.2 (link.1, node.address))
      g.incomingIndex }

/-- Add a node, replacing one with the same address. -/
def add (g : Graph) (node : Node) : Graph :=
  let cleared := match g.nodes[node.address]? with
    | some previous => g.unindex previous
    | none => g
  let indexed := cleared.index node
  { indexed with nodes := indexed.nodes.insert node.address node }

def ofNodes (nodes : List Node) : Graph := nodes.foldl add empty

def get? (g : Graph) (address : Address) : Option Node := g.nodes[address]?

def size (g : Graph) : Nat := g.nodes.size

def isEmpty (g : Graph) : Bool := g.nodes.isEmpty

/-- All nodes in the order of their addresses. -/
def all (g : Graph) : List Node := g.nodes.values

/-- The nodes of a kind in the order of their addresses. -/
def ofKind (g : Graph) (kind : NodeKind) : List Node :=
  (((g.byKind[kind]?).getD []).filterMap g.get?).mergeSort
    fun a b => (compare a.address b.address).isLE

/-- The nodes that a node has in a role, as far as they are in the graph. -/
def related (g : Graph) (address : Address) (role : Role) : List Node :=
  match g.get? address with
  | some node => (node.related role).filterMap g.get?
  | none => []

def related? (g : Graph) (address : Address) (role : Role) : Option Node :=
  (g.related address role).head?

def incoming (g : Graph) (address : Address) : List (Role × Address) :=
  (g.incomingIndex[address]?).getD []

/-- The links whose target is not in the graph: source, role and target. -/
def dangling (g : Graph) : List (Address × Role × Address) :=
  g.all.flatMap fun node =>
    (node.links.filter fun link => (g.get? link.2).isNone).map fun link =>
      (node.address, link.1, link.2)

end Graph

end SyntaxGraph
