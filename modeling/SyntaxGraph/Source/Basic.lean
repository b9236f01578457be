import SyntaxGraph.Decimal.Binary64

/-!
# Source trees

A parsed program arrives as a tree of tagged forms:

- scalars are literals, and `true`, `false` and `nil` are atoms;
- a symbol is a form without arguments and reads a variable;
- a form with arguments is an operator, a special form or a local call;
- a call has an expression as its head, as in `Mod.fun(..)` and `fun.(..)`.

Keyword lists are lists of pairs with atom keys, blocks arrive as keyword arguments,
clauses are `->` forms and guards are `when` forms.
-/

namespace SyntaxGraph

structure Position where
  line : UInt32
  column : Option UInt32
  deriving DecidableEq, Repr

/-- The line, and behind a colon the column if there is one. -/
def Position.text (p : Position) : String :=
  match p.column with
  | some column => toString p.line.toNat ++ ":" ++ toString column.toNat
  | none => toString p.line.toNat

/-- What the parser noted about a form. -/
structure Meta where
  line : Option UInt32
  column : Option UInt32
  deriving DecidableEq, Repr

namespace Meta

def empty : Meta := ⟨none, none⟩

instance : Inhabited Meta := ⟨empty⟩

/-- The noted position; a column alone is none. -/
def position (m : Meta) : Option Position := m.line.map fun line => ⟨line, m.column⟩

end Meta

/-- A parsed program tree. -/
inductive Source where
  | integer (value : Int64)
  | float (value : Binary64)
  | text (value : String)
  | atom (value : String)
  | list (items : List Source)
  | tuple (items : List Source)
  /-- A form without arguments: a variable reference. -/
  | symbol (name : String) (note : Meta)
  /-- A form with arguments: an operator, a special form or a local call. -/
  | form (tag : String) (note : Meta) (args : List Source)
  /-- A call whose head is an expression. -/
  | call (target : Source) (note : Meta) (args : List Source)
  deriving Repr, BEq

namespace Source

instance : Inhabited Source := ⟨.atom "nil"⟩

/-! ## Making trees -/

def binary (tag : String) (left right : Source) : Source := .form tag .empty [left, right]

def unary (tag : String) (operand : Source) : Source := .form tag .empty [operand]

/-- A module name such as `Foo.Bar`. -/
def moduleName (segments : List String) : Source := .form "__aliases__" .empty (segments.map .atom)

/-- The call `receiver.name(args)`. -/
def remote (receiver : Source) (name : String) (args : List Source) : Source :=
  .call (.form "." .empty [receiver, .atom name]) .empty args

/-- The call `function.(args)`. -/
def invoke (function : Source) (args : List Source) : Source :=
  .call (.form "." .empty [function]) .empty args

/-- The list `[key: value, ...]`. -/
def keywords (pairs : List (String × Source)) : Source :=
  .list (pairs.map fun pair => .tuple [.atom pair.1, pair.2])

/-- The clause `params -> body`. -/
def clause (params : List Source) (body : Source) : Source :=
  .form "->" .empty [.list params, body]

def closure (clauses : List Source) : Source := .form "fn" .empty clauses

def block (statements : List Source) : Source := .form "__block__" .empty statements

/-- Note a position; scalars and collections have no room for one. -/
def place (line column : UInt32) : Source → Source
  | .symbol name _ => .symbol name ⟨some line, some column⟩
  | .form tag _ args => .form tag ⟨some line, some column⟩ args
  | .call target _ args => .call target ⟨some line, some column⟩ args
  | other => other

/-! ## Looking at trees -/

def note : Source → Meta
  | .symbol _ note => note
  | .form _ note _ => note
  | .call _ note _ => note
  | _ => .empty

def position (s : Source) : Option Position := s.note.position

def tag? : Source → Option String
  | .symbol name _ => some name
  | .form tag _ _ => some tag
  | _ => none

def formArgs? : Source → Option (List Source)
  | .form _ _ args => some args
  | _ => none

def argsOf? (expected : String) : Source → Option (List Source)
  | .form tag _ args => if tag = expected then some args else none
  | _ => none

def symbol? : Source → Option String
  | .symbol name _ => some name
  | _ => none

def atom? : Source → Option String
  | .atom value => some value
  | _ => none

def list? : Source → Option (List Source)
  | .list items => some items
  | _ => none

def tupleTag : String := "\x7b\x7d"

/-- The items of a tuple in either of its encodings. -/
def tuple? : Source → Option (List Source)
  | .tuple items => some items
  | other => other.argsOf? tupleTag

def keywordPair? (s : Source) : Option (String × Source) :=
  match s.tuple? with
  | some [.atom key, value] => some (key, value)
  | _ => none

/-- Whether the tree is a list, not empty, of pairs with atom keys. -/
def isKeywordList (s : Source) : Bool :=
  match s.list? with
  | some items => !items.isEmpty && items.all fun item => item.keywordPair?.isSome
  | none => false

/-- The first value under a key among the pairs of a list. -/
def keyword? (s : Source) (key : String) : Option Source :=
  match s.list? with
  | some items => ((items.filterMap keywordPair?).find? fun pair => pair.1 == key).map (·.2)
  | none => none

end Source

end SyntaxGraph
