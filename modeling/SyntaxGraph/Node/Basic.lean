import SyntaxGraph.Node.Kind
import SyntaxGraph.Node.Relation
import SyntaxGraph.Source.Basic

/-!
# Graph nodes

A node has an address, one kind, a set of tags, scalar properties by name and
relations by role. Properties and relations are kept in order, so a node is encoded
alike however it was put together.
-/

namespace SyntaxGraph

/-- A scalar a node carries. -/
inductive Property where
  | boolean (value : Bool)
  | integer (value : Int64)
  | float (value : Binary64)
  | text (value : String)
  deriving DecidableEq, Repr

namespace Property

/-- A count as an integer property; one too large for it becomes the largest integer. -/
def ofNat (n : Nat) : Property := .integer (Int64.ofNat (min n (Nat.pow 2 63 - 1)))

def text? : Property → Option String
  | .text value => some value
  | _ => none

def integer? : Property → Option Int64
  | .integer value => some value
  | _ => none

def boolean? : Property → Option Bool
  | .boolean value => some value
  | _ => none

instance : Coe String Property := ⟨.text⟩

instance : Coe Bool Property := ⟨.boolean⟩

instance : Coe Int64 Property := ⟨.integer⟩

instance : Coe Nat Property := ⟨.ofNat⟩

end Property

structure Node where
  address : Address
  kind : NodeKind
  tags : OrderedSet NodeTag
  properties : OrderedMap String Property
  relations : OrderedMap Role Relation
  deriving DecidableEq

namespace Node

/-- A node with nothing but its kind. -/
def make (address : Address) (kind : NodeKind) : Node := ⟨address, kind, ∅, ∅, ∅⟩

instance : Inhabited Node := ⟨make default default⟩

def withTags (n : Node) (tags : List NodeTag) : Node :=
  { n with tags := tags.foldl OrderedSet.add n.tags }

/-- Set a property, replacing one of the same name. -/
def set (n : Node) (name : String) (value : Property) : Node :=
  { n with properties := n.properties.insert name value }

/-- Note a known position as the properties `line` and `column`. -/
def withPosition (n : Node) (position : Option Position) : Node :=
  match position with
  | none => n
  | some p =>
    let n := n.set "line" (.ofNat p.line.toNat)
    match p.column with
    | none => n
    | some column => n.set "column" (.ofNat column.toNat)

/-- The relation in a role, without targets if the node has none. -/
def relation (n : Node) (role : Role) : Relation :=
  (n.relations.get? role).getD (.empty role.isOrdered)

def relate (n : Node) (role : Role) (target : Address) : Node :=
  { n with relations := n.relations.insert role ((n.relation role).push target) }

def relateAll (n : Node) (role : Role) (targets : List Address) : Node :=
  targets.foldl (fun n target => n.relate role target) n

/-- Note that a role is there even if it has no target. -/
def declare (n : Node) (role : Role) : Node :=
  { n with relations := n.relations.insert role (n.relation role) }

def property? (n : Node) (name : String) : Option Property := n.properties.get? name

def text? (n : Node) (name : String) : Option String := (n.property? name).bind Property.text?

def related (n : Node) (role : Role) : List Address :=
  match n.relations.get? role with
  | some relation => relation.targets
  | none => []

def related? (n : Node) (role : Role) : Option Address := (n.related role).head?

def hasTag (n : Node) (tag : NodeTag) : Bool := n.tags.contains tag

/-- All links of the node, role by role. -/
def links (n : Node) : List (Role × Address) :=
  n.relations.entries.flatMap fun entry => entry.2.targets.map fun target => (entry.1, target)

end Node

end SyntaxGraph
