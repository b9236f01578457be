import SyntaxGraph.Node.Kind
import SyntaxGraph.Node.Relation

/-!
# Names that identify nothing

Addresses, kinds and roles are all given by text from outside. A text that is none is
refused with one common wording.
-/

namespace SyntaxGraph

/-- Why a text does not identify a node, a kind or a role. -/
inductive IdentityError where
  | address (error : Address.ReadError)
  | kind (name : String)
  | role (name : String)
  deriving DecidableEq, Repr

def IdentityError.message : IdentityError → String
  | .address error => "Invalid node id: " ++ error.reason
  | .kind name => "Invalid node id: Unknown node type: " ++ name
  | .role name => "Invalid node id: Unknown relation kind: " ++ name

def Address.parse (text : String) : Except IdentityError Address :=
  (Address.read text).mapError .address

def NodeKind.parse (name : String) : Except IdentityError NodeKind :=
  match NodeKind.ofName? name with
  | some kind => .ok kind
  | none => .error (.kind name)

def Role.parse (name : String) : Except IdentityError Role :=
  match Role.ofName? name with
  | some role => .ok role
  | none => .error (.role name)

end SyntaxGraph
