import SyntaxGraph.Json.Writer
import SyntaxGraph.Node.Basic

/-!
# Nodes as JSON

A node is an object with `id` and `type`, and with `tags`, `properties` and `relations`
where they are not empty. Roles stand in their own order, properties in the order of
their names. Reading keeps the targets of a relation as they are listed.
-/

namespace SyntaxGraph

/-- An address is read with every segment checked. -/
def Address.ofJson? (j : Json) : Option Address :=
  match j with
  | .text text => (Address.read text).toOption
  | _ => none

def Address.toJson (a : Address) : Json := .text a.text

def NodeKind.ofJson? : Json → Option NodeKind := Json.named? NodeKind.ofName?

def NodeTag.ofJson? : Json → Option NodeTag := Json.named? NodeTag.ofName?

def Role.ofJson? : Json → Option Role := Json.named? Role.ofName?

namespace Property

/-- A property is a JSON scalar; floats are never written as integers. -/
def toJson : Property → Json
  | .boolean value => .bool value
  | .integer value => .integer value.toInt
  | .float value => .float value
  | .text value => .text value

/-- Read a property; an integer beyond the signed 64-bit range becomes a float. -/
def ofJson? : Json → Option Property
  | .bool value => some (.boolean value)
  | .text value => some (.text value)
  | .null | .array _ | .object _ => none
  | number =>
    match number.int64? with
    | some value => some (.integer value)
    | none => number.float?.map .float

end Property

namespace Relation

def toJson (r : Relation) : Json :=
  .object [("targets", .array (r.targets.map Address.toJson)), ("ordered", .bool r.ordered)]

/-- Read a relation; both fields must be there. -/
def ofJson? (j : Json) : Option Relation := do
  let record ← j.record? ["targets", "ordered"]
  let targets ← (record.field "targets").required (Json.list? Address.ofJson?)
  let ordered ← (record.field "ordered").required Json.bool?
  some ⟨targets, ordered⟩

end Relation

namespace Node

def toJson (n : Node) : Json :=
  .object
    ([("id", n.address.toJson), ("type", .text n.kind.name)] ++
      (if n.tags.isEmpty then []
        else [("tags", .array (n.tags.keys.map fun tag => .text tag.name))]) ++
      (if n.properties.isEmpty then []
        else [("properties", .object (n.properties.entries.map fun (name, value) =>
          (name, value.toJson)))]) ++
      (if n.relations.isEmpty then []
        else [("relations", .object (n.relations.entries.map fun (role, relation) =>
          (role.name, relation.toJson)))]))

def propertyEntry? (member : String × Json) : Option (String × Property) :=
  (Property.ofJson? member.2).map fun value => (member.1, value)

def relationEntry? (member : String × Json) : Option (Role × Relation) :=
  match Role.ofName? member.1, Relation.ofJson? member.2 with
  | some role, some relation => some (role, relation)
  | _, _ => none

/-- Read properties by name; of two with one name the later stands. -/
def propertiesOfJson? : Json → Option (OrderedMap String Property)
  | .object members =>
    (members.mapM propertyEntry?).map OrderedMap.ofList
  | _ => none

/-- Read relations by role; of two with one role the later stands. -/
def relationsOfJson? : Json → Option (OrderedMap Role Relation)
  | .object members =>
    (members.mapM relationEntry?).map OrderedMap.ofList
  | _ => none

/-- Read a node; tags, properties and relations that are missing are empty. -/
def ofJson? (j : Json) : Option Node := do
  let record ← j.record? ["id", "type", "tags", "properties", "relations"]
  let address ← (record.field "id").required Address.ofJson?
  let kind ← (record.field "type").required NodeKind.ofJson?
  let tags ← (record.field "tags").withDefault ∅
    fun value => (value.list? NodeTag.ofJson?).map OrderedSet.ofMembers
  let properties ← (record.field "properties").withDefault ∅ propertiesOfJson?
  let relations ← (record.field "relations").withDefault ∅ relationsOfJson?
  some ⟨address, kind, tags, properties, relations⟩

/-- The compact text of a node, as it stands on a line of its own. -/
def encoded (n : Node) : String := n.toJson.write

end Node

end SyntaxGraph
