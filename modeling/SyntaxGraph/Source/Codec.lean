import SyntaxGraph.Json.Basic
import SyntaxGraph.Source.Basic

/-!
# Source trees as JSON

A tree is a record whose `kind` says which fields it has. As an object it may hold
other members too, which are ignored, but must not repeat a field of its kind; as an
array it lists its kind and then the fields. A form whose `args` are missing or null
is a symbol. Inside another tree a kind can also be given by its number.

Every value of a tree is read once, from the inside out, into what it is as a value,
as a tree and as a list of trees; the kind around it then picks the one it needs.
-/

namespace SyntaxGraph

namespace Meta

/-- Read the noted line and column; missing and null both mean that none is noted. -/
def ofJson? (j : Json) : Option Meta := do
  let record ← j.record? ["line", "column"]
  let line ← (record.field "line").withDefault none (Json.nullable Json.uint32?)
  let column ← (record.field "column").withDefault none (Json.nullable Json.uint32?)
  some ⟨line, column⟩

/-- Only what is noted is written. -/
def toJson (m : Meta) : Json :=
  .object
    ((m.line.map fun line => ("line", Json.integer line.toNat)).toList ++
      (m.column.map fun column => ("column", Json.integer column.toNat)).toList)

end Meta

/-- A position without a column says so by null. -/
def Position.toJson (p : Position) : Json :=
  .object [("line", .integer p.line.toNat),
    ("column", .optional (fun column => .integer column.toNat) p.column)]

def Position.ofJson? (j : Json) : Option Position := do
  let record ← j.record? ["line", "column"]
  let line ← (record.field "line").required Json.uint32?
  let column ← (record.field "column").optional Json.uint32?
  some ⟨line, column⟩

inductive Source.Kind where
  | integer
  | float
  | text
  | atom
  | list
  | tuple
  | form
  | call
  deriving DecidableEq, Repr

namespace Source.Kind

def name : Kind → String
  | .integer => "integer"
  | .float => "float"
  | .text => "text"
  | .atom => "atom"
  | .list => "list"
  | .tuple => "tuple"
  | .form => "form"
  | .call => "call"

/-- All kinds; the place of a kind is its number. -/
def all : List Kind := [.integer, .float, .text, .atom, .list, .tuple, .form, .call]

def ofName? (name : String) : Option Kind := all.find? fun kind => kind.name == name

def fields : Kind → List String
  | .integer | .float | .text | .atom => ["value"]
  | .list | .tuple => ["items"]
  | .form => ["tag", "meta", "args"]
  | .call => ["target", "meta", "args"]

/-- Read the kind of the outermost tree: its name. -/
def ofJson? (j : Json) : Option Kind := j.text?.bind ofName?

/-- Read the kind of a tree inside another: its name or its number. -/
def ofInnerJson? : Json → Option Kind
  | .text name => ofName? name
  | .integer (.ofNat index) => all[index]?
  | _ => none

end Source.Kind

namespace Source

def record (kind : Kind) (fields : List (String × Json)) : Json :=
  .object (("kind", .text kind.name) :: fields)

mutual

def toJson : Source → Json
  | .integer value => record .integer [("value", .integer value.toInt)]
  | .float value => record .float [("value", .float value)]
  | .text value => record .text [("value", .text value)]
  | .atom value => record .atom [("value", .text value)]
  | .list items => record .list [("items", .array (allToJson items))]
  | .tuple items => record .tuple [("items", .array (allToJson items))]
  | .symbol name note =>
    record .form [("tag", .text name), ("meta", note.toJson), ("args", .null)]
  | .form tag note args =>
    record .form [("tag", .text tag), ("meta", note.toJson), ("args", .array (allToJson args))]
  | .call target note args =>
    record .call [("target", toJson target), ("meta", note.toJson),
      ("args", .array (allToJson args))]

def allToJson : List Source → List Json
  | [] => []
  | item :: rest => toJson item :: allToJson rest

end

/-- A value together with what it is as a tree and as a list of trees. -/
structure Reading where
  value : Json
  tree : Option Source
  trees : Option (List Source)

/-- Arguments of a form: null stands for none. -/
def Reading.formArgs? (r : Reading) : Option (Option (List Source)) :=
  match r.value with
  | .null => some none
  | _ => r.trees.map some

/-- Put a tree together from its kind and its fields. -/
def ofRecord? (kind : Kind) (record : Json.Record Reading) : Option Source :=
  let scalar {α : Type} (decode : Json → Option α) :=
    (record.field "value").required fun r => decode r.value
  let items := (record.field "items").required (·.trees)
  let note := (record.field "meta").withDefault Meta.empty fun r => Meta.ofJson? r.value
  match kind with
  | .integer => (scalar Json.int64?).map .integer
  | .float => (scalar Json.float?).map .float
  | .text => (scalar Json.text?).map .text
  | .atom => (scalar Json.text?).map .atom
  | .list => items.map .list
  | .tuple => items.map .tuple
  | .form => do
    let tag ← (record.field "tag").required fun r => r.value.text?
    let note ← note
    match ← (record.field "args").withDefault none Reading.formArgs? with
    | none => some (.symbol tag note)
    | some args => some (.form tag note args)
  | .call => do
    let target ← (record.field "target").required (·.tree)
    let note ← note
    let args ← (record.field "args").withDefault [] (·.trees)
    some (.call target note args)

def ofMembers? (kindOf : Json → Option Kind) (members : List (String × Reading)) :
    Option Source := do
  let kind ← (Json.Member.find "kind" members).required fun r => kindOf r.value
  ofRecord? kind (.named members)

/-- Put a tree together from the items of its array: its kind, then its fields. -/
def ofRow? (kindOf : Json → Option Kind) : List Reading → Option Source
  | [] => none
  | first :: rest => do
    let kind ← kindOf first.value
    ofRecord? kind (← Json.Record.ofRow? kind.fields rest)

mutual

def reading : Json → Reading
  | .object members =>
    ⟨.object members, ofMembers? Kind.ofInnerJson? (memberReadings members), none⟩
  | .array items =>
    let inside := itemReadings items
    ⟨.array items, ofRow? Kind.ofInnerJson? inside, inside.mapM (·.tree)⟩
  | value => ⟨value, none, none⟩

def memberReadings : List (String × Json) → List (String × Reading)
  | [] => []
  | (name, value) :: rest => (name, reading value) :: memberReadings rest

def itemReadings : List Json → List Reading
  | [] => []
  | item :: rest => reading item :: itemReadings rest

end

def ofJson? : Json → Option Source
  | .object members => ofMembers? Kind.ofJson? (memberReadings members)
  | .array items => ofRow? Kind.ofJson? (itemReadings items)
  | _ => none

end Source

end SyntaxGraph
