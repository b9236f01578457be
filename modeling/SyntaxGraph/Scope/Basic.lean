import SyntaxGraph.Address
import SyntaxGraph.Source.Basic

/-!
# Scope frames

The names a construct binds live in frames. A frame knows its kind, the frame around
it and the bindings it introduces; frames are numbered in the order they are opened,
and number zero is the module frame every construct starts from.

A name is looked up frame by frame, from the inside out. Frames opened one inside the
other form a tree, so such a walk meets every frame at most once and the number of
frames bounds it.
-/

namespace SyntaxGraph

/-- The number of a frame, a 32-bit word. -/
structure ScopeId where
  index : Nat
  deriving DecidableEq, Repr

namespace ScopeId

instance : Inhabited ScopeId := ⟨⟨0⟩⟩

/-- The module frame every construct starts from. -/
def root : ScopeId := ⟨0⟩

/-- The number of the frame at a position; positions are counted in 32 bits. -/
def ofPosition (position : Nat) : ScopeId := ⟨position % UInt32.size⟩

end ScopeId

/-- What opened a frame. -/
inductive ScopeKind where
  | module
  | function
  | clause
  | closure
  | comprehension
  | block
  deriving DecidableEq, Repr

namespace ScopeKind

def name : ScopeKind → String
  | .module => "module"
  | .function => "function"
  | .clause => "clause"
  | .closure => "closure"
  | .comprehension => "comprehension"
  | .block => "block"

def all : List ScopeKind := [.module, .function, .clause, .closure, .comprehension, .block]

def ofName? (name : String) : Option ScopeKind := all.find? fun kind => kind.name == name

end ScopeKind

/-- A symbol that a pattern introduces. -/
structure Binding where
  name : String
  /-- The pattern node that introduces the symbol; none for a name given from outside. -/
  node : Option Address
  position : Option Position
  deriving DecidableEq, Repr

structure Frame where
  kind : ScopeKind
  parent : Option ScopeId
  bindings : OrderedMap String Binding
  deriving DecidableEq

/-- The frames of one construct, in the order they were opened. -/
structure Scopes where
  frames : Array Frame

namespace Scopes

def initial : Scopes := ⟨#[⟨.module, none, ∅⟩]⟩

instance : Inhabited Scopes := ⟨initial⟩

def size (g : Scopes) : Nat := g.frames.size

def next (g : Scopes) : ScopeId := .ofPosition g.size

/-- Open a frame inside `parent`; its number is `next`. -/
def add (g : Scopes) (parent : ScopeId) (kind : ScopeKind) : Scopes :=
  ⟨g.frames.push ⟨kind, some parent, ∅⟩⟩

def frame? (g : Scopes) (scope : ScopeId) : Option Frame := g.frames[scope.index]?

/-- Record a binding in a frame; a later one of the same name replaces it. -/
def bind (g : Scopes) (scope : ScopeId) (binding : Binding) : Scopes :=
  ⟨g.frames.modify scope.index fun frame =>
    { frame with bindings := frame.bindings.insert binding.name binding }⟩

/-- Whether a frame exists and does not yet bind a name. -/
def isFresh (g : Scopes) (scope : ScopeId) (name : String) : Bool :=
  match g.frame? scope with
  | some frame => !frame.bindings.contains name
  | none => false

def parent? (g : Scopes) (scope : ScopeId) : Option ScopeId := (g.frame? scope).bind (·.parent)

def kind? (g : Scopes) (scope : ScopeId) : Option ScopeKind := (g.frame? scope).map (·.kind)

def lookupLocal (g : Scopes) (scope : ScopeId) (name : String) : Option Binding :=
  (g.frame? scope).bind fun frame => frame.bindings.get? name

/-- Walk outwards over at most `fuel` frames. -/
def walk (g : Scopes) : Nat → ScopeId → List ScopeId
  | 0, _ => []
  | fuel + 1, scope =>
    scope :: match g.parent? scope with
      | some parent => g.walk fuel parent
      | none => []

/-- The frames from one to the outermost, innermost first. A walk that meets no frame twice
takes at most one step more than there are frames, the last to a frame that is not there. -/
def chain (g : Scopes) (scope : ScopeId) : List ScopeId := g.walk (g.size + 1) scope

/-- Look for the innermost binding of a name within at most `fuel` frames. -/
def lookupWithin (g : Scopes) (name : String) : Nat → ScopeId → Option (ScopeId × Binding)
  | 0, _ => none
  | fuel + 1, scope =>
    match g.lookupLocal scope name with
    | some binding => some (scope, binding)
    | none =>
      match g.parent? scope with
      | some parent => g.lookupWithin name fuel parent
      | none => none

/-- The innermost frame that binds a name, with its binding. -/
def lookup (g : Scopes) (scope : ScopeId) (name : String) : Option (ScopeId × Binding) :=
  g.lookupWithin name (g.size + 1) scope

/-- Look for a frame within at most `fuel` frames. -/
def reaches (g : Scopes) (ancestor : ScopeId) : Nat → ScopeId → Bool
  | 0, _ => false
  | fuel + 1, scope =>
    scope == ancestor ||
      match g.parent? scope with
      | some parent => g.reaches ancestor fuel parent
      | none => false

/-- Whether a frame is `ancestor` or lies inside it. -/
def isWithin (g : Scopes) (scope ancestor : ScopeId) : Bool :=
  g.reaches ancestor (g.size + 1) scope

end Scopes

end SyntaxGraph
