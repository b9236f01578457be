import SyntaxGraph.Decimal.Binary64

/-!
# JSON values

Source trees come in as JSON and nodes go out as JSON. A value keeps the difference
between an integer and a float, and an object keeps its members as they are written,
repeated names included, so that a decoder can refuse them.

A record of known fields has two written forms: an object that names them, in any
order and among others, and an array that lists them in their own order and may end
early. `Json.Record` holds either, and `Json.Member` is what it says of one field.
-/

namespace SyntaxGraph

inductive Json where
  | null
  | bool (value : Bool)
  | integer (value : Int)
  | float (value : Binary64)
  | text (value : String)
  | array (items : List Json)
  | object (members : List (String × Json))
  deriving Repr, BEq

namespace Json

instance : Inhabited Json := ⟨.null⟩

def text? : Json → Option String
  | .text value => some value
  | _ => none

def bool? : Json → Option Bool
  | .bool value => some value
  | _ => none

def array? : Json → Option (List Json)
  | .array items => some items
  | _ => none

/-- An integer of at least `least` and below `bound`. -/
def integerIn? (least bound : Int) : Json → Option Int
  | .integer value => if least ≤ value && value < bound then some value else none
  | _ => none

def uint64? (j : Json) : Option UInt64 :=
  (j.integerIn? 0 UInt64.size).map fun i => UInt64.ofNat i.toNat

def uint32? (j : Json) : Option UInt32 :=
  (j.integerIn? 0 UInt32.size).map fun i => UInt32.ofNat i.toNat

def int64? (j : Json) : Option Int64 :=
  (j.integerIn? (-Int.pow 2 63) (Int.pow 2 63)).map Int64.ofInt

/-- A number as a float; an integer is rounded. -/
def float? : Json → Option Binary64
  | .integer value => some (.ofInt value)
  | .float value => some value
  | _ => none

/-- All values of a list that `decode` accepts, if it accepts each. -/
def decodeAll {α : Type} (decode : Json → Option α) : List Json → Option (List α)
  | [] => some []
  | item :: rest =>
    match decode item with
    | none => none
    | some value => (decodeAll decode rest).map (value :: ·)

/-- A value that may be null. -/
def nullable {α : Type} (decode : Json → Option α) : Json → Option (Option α)
  | .null => some none
  | value => (decode value).map some

/-- A value that may be missing; missing is written as null. -/
def optional {α : Type} (encode : α → Json) : Option α → Json
  | some value => encode value
  | none => .null

/-- A name out of a fixed set: its text alone, or as the one member of an object, with
nothing under it. -/
def named? {α : Type} (ofName? : String → Option α) : Json → Option α
  | .text name => ofName? name
  | .object [(name, .null)] => ofName? name
  | _ => none

def list? {α : Type} (decode : Json → Option α) (j : Json) : Option (List α) :=
  match j with
  | .array items => decodeAll decode items
  | _ => none

end Json

/-- What a record says of one field. -/
inductive Json.Member (α : Type) where
  /-- An object without the name of the field. -/
  | missing
  /-- An array that ends before the field. -/
  | cutOff
  /-- The field occurs once. -/
  | once (value : α)
  /-- The field occurs more than once. -/
  | repeated
  deriving Repr

namespace Json.Member

variable {α β : Type}

/-- Look a name up among the members of an object. -/
def find (name : String) (members : List (String × α)) : Member α :=
  match members.filter (·.1 == name) with
  | [] => .missing
  | [entry] => .once entry.2
  | _ => .repeated

/-- A field that must be there and that `decode` must accept. -/
def required (decode : α → Option β) : Member α → Option β
  | .once value => decode value
  | _ => none

/-- A field that stands for `fallback` if it is not there, and otherwise must decode. -/
def withDefault (fallback : β) (decode : α → Option β) : Member α → Option β
  | .missing | .cutOff => some fallback
  | .once value => decode value
  | .repeated => none

/-- A field that an object may leave out and that an array must hold, be it as null. -/
def optional (decode : Json → Option β) : Member Json → Option (Option β)
  | .missing => some none
  | .once value => Json.nullable decode value
  | .cutOff | .repeated => none

end Json.Member

/-- A record as it is written: by the names of its fields, or in their order. -/
inductive Json.Record (α : Type) where
  | named (members : List (String × α))
  | listed (members : List (String × α))
  deriving Repr

namespace Json.Record

variable {α : Type}

def field (name : String) : Record α → Member α
  | .named members => .find name members
  | .listed members =>
    match Member.find name members with
    | .missing => .cutOff
    | member => member

/-- A row of values for the fields with the given names; there may be fewer values than
names, and not more. -/
def ofRow? (names : List String) (items : List α) : Option (Record α) :=
  if items.length ≤ names.length then some (.listed (names.zip items)) else none

end Json.Record

def Json.record? (names : List String) : Json → Option (Record Json)
  | .object members => some (.named members)
  | .array items => Record.ofRow? names items
  | _ => none

end SyntaxGraph
