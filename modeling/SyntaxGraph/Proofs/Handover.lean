import Mathlib.Data.List.Induction
import SyntaxGraph.Graph.Stats
import SyntaxGraph.Proofs.Texts

/-!
# Handing nodes over

What is written for a node is read as the node again. Tags, properties and relations that
are empty are left out and read as empty; a relation that is declared without targets is
written with its empty list. Maps and sets are listed in their order, so putting the
entries back one behind the other makes the same map, and a property is told by its JSON:
a boolean, an integer, a float or a text.

Nodes are handed over as lines, one for each. No value has a line feed in its text, so
cutting the lines apart gives the texts of the nodes, and reading them gives the nodes.
Different lists of nodes are therefore different texts, and different rows of bytes for
the digest that fingerprints a graph.

How a text is read as a JSON value is left open: all that is asked of a reader is that it
reads the texts of the nodes at hand. `Node.read?_encoded` says which nodes the reader of
this library reads: all whose floats it reads back.
-/

namespace SyntaxGraph

/-! ## Maps and sets in order -/

namespace OrderedMap

variable {κ : Type} [Ord κ] [Std.TransOrd κ] {α : Type}

theorem insertEntry_greatest {key : κ} {value : α} {entries : List (κ × α)}
    (greatest : ∀ entry ∈ entries, compare entry.1 key = .lt) :
    insertEntry key value entries = entries ++ [(key, value)] := by
  induction entries with
  | nil => rfl
  | cons entry rest ih =>
    obtain ⟨first, others⟩ := List.forall_mem_cons.mp greatest
    rw [insertEntry, Std.OrientedCmp.gt_of_lt first, ih others]
    rfl

/-- Entries in rising order are put back one behind the other. -/
theorem ofList_entries (m : OrderedMap κ α) : ofList m.entries = m := by
  obtain ⟨entries, rising⟩ := m
  induction entries using List.reverseRecOn with
  | nil => rfl
  | append_singleton front last ih =>
    obtain ⟨before, -, below⟩ := List.pairwise_append.mp rising
    have front := ih before
    refine ext ?_
    simp only [ofList, List.foldl_append, List.foldl_cons, List.foldl_nil] at front ⊢
    rw [front]
    exact insertEntry_greatest fun entry inside => below entry inside last (List.mem_singleton_self last)

omit [Std.TransOrd κ] in
theorem eq_empty_of_isEmpty {m : OrderedMap κ α} (none : m.isEmpty = true) : m = ∅ :=
  ext (List.isEmpty_iff.mp none)

end OrderedMap

theorem OrderedSet.ofMembers_keys {κ : Type} [Ord κ] [Std.TransOrd κ] (s : OrderedSet κ) :
    OrderedSet.ofMembers s.keys = s := by
  have entries : OrderedSet.ofMembers s.keys = OrderedMap.ofList s.entries := by
    unfold OrderedSet.ofMembers OrderedMap.ofList OrderedMap.keys
    rw [List.foldl_map]
    rfl
  rw [entries, OrderedMap.ofList_entries]

/-! ## Names -/

theorem NodeKind.ofName?_name (kind : NodeKind) : NodeKind.ofName? kind.name = some kind := by
  cases kind <;> rfl

theorem NodeTag.ofName?_name (tag : NodeTag) : NodeTag.ofName? tag.name = some tag := by
  cases tag <;> rfl

theorem Role.ofName?_name (role : Role) : Role.ofName? role.name = some role := by
  cases role <;> rfl

/-! ## The parts of a node -/

theorem Json.decodeAll_map {α : Type} {decode : Json → Option α} {encode : α → Json} {values : List α}
    (inverse : ∀ value ∈ values, decode (encode value) = some value) :
    decodeAll decode (values.map encode) = some values := by
  induction values with
  | nil => rfl
  | cons value rest ih =>
    obtain ⟨first, others⟩ := List.forall_mem_cons.mp inverse
    simp only [List.map_cons, decodeAll, first, ih others, Option.map_some]

theorem Property.ofJson?_toJson (p : Property) : Property.ofJson? p.toJson = some p := by
  cases p with
  | integer value => simp only [toJson, ofJson?, Json.int64?_toInt]
  | _ => rfl

/-- An address that reading accepts as it stands. -/
def Address.Accepted (a : Address) : Prop := Address.read a.text = .ok a

theorem Address.Accepted.ofJson?_toJson {a : Address} (accepted : a.Accepted) :
    Address.ofJson? a.toJson = some a := by
  rw [Address.toJson, Address.ofJson?, accepted]
  rfl

theorem Relation.ofJson?_toJson {r : Relation} (accepted : ∀ target ∈ r.targets, target.Accepted) :
    Relation.ofJson? r.toJson = some r := by
  have targets := Json.decodeAll_map fun target inside => (accepted target inside).ofJson?_toJson
  simp [Relation.ofJson?, Relation.toJson, Json.record?, Json.Record.field, Json.Member.find,
    Json.Member.required, Json.list?, Json.bool?, targets]

namespace Node

/-- A node that can be handed over: reading accepts its address and the addresses it points at,
and its floats are finite. -/
structure Portable (n : Node) : Prop where
  address : n.address.Accepted
  targets : ∀ link ∈ n.links, link.2.Accepted
  floats : ∀ x, Property.float x ∈ n.properties.values → x.isFinite = true

theorem mapM_readProperty (entries : List (String × Property)) :
    (entries.map fun entry => (entry.1, entry.2.toJson)).mapM propertyEntry? = some entries := by
  induction entries with
  | nil => rfl
  | cons entry rest ih =>
    simp [ propertyEntry?, Property.ofJson?_toJson, ih]

theorem mapM_readRelation {entries : List (Role × Relation)}
    (accepted : ∀ entry ∈ entries, ∀ target ∈ entry.2.targets, target.Accepted) :
    (entries.map fun entry => (entry.1.name, entry.2.toJson)).mapM relationEntry? = some entries := by
  induction entries with
  | nil => rfl
  | cons entry rest ih =>
    obtain ⟨first, others⟩ := List.forall_mem_cons.mp accepted
    simp [ relationEntry?, Role.ofName?_name, Relation.ofJson?_toJson first, ih others]

/-- A member that is left out where its value is empty. -/
def partMember (name : String) (isEmpty : Bool) (value : Json) : List (String × Json) :=
  if isEmpty then [] else [(name, value)]

section Members

variable {name other : String} {isEmpty : Bool} {value : Json}

theorem filter_partMember (differ : other ≠ name) :
    (partMember other isEmpty value).filter (·.1 == name) = [] := by
  cases isEmpty <;> simp [partMember, differ]

/-- A part that is left out where it is empty is read as what it was. -/
theorem withDefault_partMember {α : Type} {decode : Json → Option α} {fallback part : α}
    (read : decode value = some part) (empty : isEmpty = true → part = fallback) :
    (Json.Member.find name (partMember name isEmpty value)).withDefault fallback decode = some part := by
  cases isEmpty with
  | true => exact congrArg some (empty rfl).symm
  | false => simpa [partMember, Json.Member.find, Json.Member.withDefault] using read

end Members

section Parts

variable (n : Node)

def tagsJson : Json := .array (n.tags.keys.map fun tag => .text tag.name)

def propertiesJson : Json := .object (n.properties.entries.map fun entry => (entry.1, entry.2.toJson))

def relationsJson : Json := .object (n.relations.entries.map fun entry => (entry.1.name, entry.2.toJson))

/-- The members that are written for a node. -/
def members : List (String × Json) :=
  ("id", n.address.toJson) :: ("type", .text n.kind.name) ::
    (partMember "tags" n.tags.isEmpty n.tagsJson ++
      partMember "properties" n.properties.isEmpty n.propertiesJson ++
      partMember "relations" n.relations.isEmpty n.relationsJson)

theorem toJson_eq : n.toJson = .object n.members := by
  simp [toJson, members, partMember, tagsJson, propertiesJson, relationsJson]

/-- Each part of a node is found under its name. -/
theorem find_members :
    Json.Member.find "id" n.members = .once n.address.toJson ∧
      Json.Member.find "type" n.members = .once (.text n.kind.name) ∧
      Json.Member.find "tags" n.members =
        .find "tags" (partMember "tags" n.tags.isEmpty n.tagsJson) ∧
      Json.Member.find "properties" n.members =
        .find "properties" (partMember "properties" n.properties.isEmpty n.propertiesJson) ∧
      Json.Member.find "relations" n.members =
        .find "relations" (partMember "relations" n.relations.isEmpty n.relationsJson) := by
  simp [Json.Member.find, members, filter_partMember]

theorem read_tagsJson : (n.tagsJson.list? NodeTag.ofJson?).map OrderedSet.ofMembers = some n.tags := by
  rw [tagsJson, Json.list?, Json.decodeAll_map fun tag _ => NodeTag.ofName?_name tag, Option.map_some,
    OrderedSet.ofMembers_keys]

theorem read_propertiesJson : propertiesOfJson? n.propertiesJson = some n.properties := by
  rw [propertiesJson, propertiesOfJson?, mapM_readProperty, Option.map_some, OrderedMap.ofList_entries]

variable {n}

theorem Portable.read_relationsJson (portable : n.Portable) :
    relationsOfJson? n.relationsJson = some n.relations := by
  rw [relationsJson, relationsOfJson?, mapM_readRelation, Option.map_some, OrderedMap.ofList_entries]
  intro entry inside target listed
  exact portable.targets (entry.1, target)
    (List.mem_flatMap.mpr ⟨entry, inside, List.mem_map_of_mem listed⟩)

/-- What is written for a node is read as the node. -/
theorem Portable.ofJson?_toJson (portable : n.Portable) : ofJson? n.toJson = some n := by
  obtain ⟨id, type, tags, properties, relations⟩ := n.find_members
  have kind : NodeKind.ofJson? (.text n.kind.name) = some n.kind := NodeKind.ofName?_name n.kind
  have readTags : (Json.Member.find "tags" n.members).withDefault ∅
      (fun value => (value.list? NodeTag.ofJson?).map OrderedSet.ofMembers) = some n.tags :=
    tags ▸ withDefault_partMember n.read_tagsJson OrderedMap.eq_empty_of_isEmpty
  have readProperties : (Json.Member.find "properties" n.members).withDefault ∅ propertiesOfJson? =
      some n.properties :=
    properties ▸ withDefault_partMember n.read_propertiesJson OrderedMap.eq_empty_of_isEmpty
  have readRelations : (Json.Member.find "relations" n.members).withDefault ∅ relationsOfJson? =
      some n.relations :=
    relations ▸ withDefault_partMember portable.read_relationsJson OrderedMap.eq_empty_of_isEmpty
  simp only [toJson_eq, ofJson?, Json.record?, Json.Record.field, id, type, Json.Member.required,
    portable.address.ofJson?_toJson, kind, readTags, readProperties, readRelations, Option.bind_eq_bind,
    Option.bind_some]

end Parts

end Node

/-! ## What the text of a node may hold -/

namespace Json

variable {good : Binary64 → Prop} {room : Nat}

theorem allFit_map {α : Type} {encode : α → Json} {values : List α}
    (each : ∀ value ∈ values, (encode value).Fits good room) : AllFit good (values.map encode) room := by
  induction values with
  | nil => trivial
  | cons value rest ih =>
    obtain ⟨first, others⟩ := List.forall_mem_cons.mp each
    exact ⟨first, ih others⟩

theorem membersFit_map {α : Type} {encode : α → String × Json} {values : List α}
    (each : ∀ value ∈ values, (encode value).2.Fits good room) :
    MembersFit good (values.map encode) room := by
  induction values with
  | nil => trivial
  | cons value rest ih =>
    obtain ⟨first, others⟩ := List.forall_mem_cons.mp each
    exact ⟨first, ih others⟩

theorem membersFit_append {front back : List (String × Json)} (before : MembersFit good front room)
    (behind : MembersFit good back room) : MembersFit good (front ++ back) room := by
  induction front with
  | nil => exact behind
  | cons member rest ih => exact ⟨before.1, ih before.2⟩

end Json

namespace Node

variable {good : Binary64 → Prop}

theorem membersFit_partMember {name : String} {isEmpty : Bool} {value : Json} {room : Nat}
    (fits : value.Fits good room) : Json.MembersFit good (partMember name isEmpty value) room := by
  cases isEmpty with
  | true => trivial
  | false => exact ⟨fits, trivial⟩

/-- The JSON of a node is nested four deep: the node, its relations, one of them, its targets. -/
theorem fits_toJson {n : Node} (room : Nat)
    (floats : ∀ x, Property.float x ∈ n.properties.values → good x) :
    n.toJson.Fits good (room + 4) := by
  have tags : n.tagsJson.Fits good (room + 3) := Json.allFit_map fun _ _ => trivial
  have properties : n.propertiesJson.Fits good (room + 3) := by
    refine Json.membersFit_map fun entry inside => ?_
    show entry.2.toJson.Fits good (room + 2)
    cases value : entry.2 with
    | boolean _ | text _ => trivial
    | integer i => exact Json.isBounded_int64 i
    | float x => exact floats x (value ▸ List.mem_map_of_mem inside)
  have relations : n.relationsJson.Fits good (room + 3) :=
    Json.membersFit_map fun _ _ => ⟨Json.allFit_map fun _ _ => trivial, trivial, trivial⟩
  rw [toJson_eq]
  exact ⟨trivial, trivial, Json.membersFit_append (Json.membersFit_append (membersFit_partMember tags)
    (membersFit_partMember properties)) (membersFit_partMember relations)⟩

/-- A reader of JSON texts reads what is written for the node, if its numbers are such as JSON has. -/
def ReadBy (parse : String → Option Json) (n : Node) : Prop :=
  n.toJson.Fits (·.isFinite) 4 → parse n.encoded = some n.toJson

/-- The reader of this library reads every node whose floats it reads back. -/
theorem readBy_read? {n : Node} {nesting : Nat} (enough : 4 ≤ nesting)
    (floats : ∀ x, Property.float x ∈ n.properties.values → x.ReadsBack) :
    n.ReadBy (Json.read? nesting) := fun _ => by
  obtain ⟨room, rfl⟩ := Nat.exists_eq_add_of_le' enough
  exact Json.read?_write (fits_toJson room floats)

end Node

/-! ## Lines -/

namespace Node

theorem toList_lines (nodes : List Node) :
    (lines nodes).toList = nodes.flatMap fun n => n.encoded.toList ++ ['\n'] := by
  have behind (out : String) : (nodes.foldl (fun out n => out ++ n.encoded ++ "\n") out).toList =
      out.toList ++ nodes.flatMap fun n => n.encoded.toList ++ ['\n'] := by
    induction nodes generalizing out with
    | nil => simp
    | cons n rest ih => simp [ih]
  exact behind ""

/-- Cut at its line feeds, the text of nodes in a row is the texts of the nodes, with nothing behind
the last line. -/
theorem splitOn_lines (nodes : List Node) :
    (lines nodes).toList.splitOn '\n' = nodes.map (fun n => n.encoded.toList) ++ [[]] := by
  rw [toList_lines]
  induction nodes with
  | nil => rfl
  | cons n rest ih =>
    have line : '\n' ∉ n.encoded.toList := by
      rw [encoded, Json.toList_write]
      exact Json.newline_notMem_spell n.toJson
    rw [List.flatMap_cons, List.append_assoc, List.singleton_append, List.splitOn_append_cons_self,
      List.splitOn_eq_singleton line, ih]
    rfl

def decode (parse : String → Option Json) (text : String) : Option Node := (parse text).bind ofJson?

def readLines (parse : String → Option Json) (text : String) : Option (List Node) :=
  (text.toList.splitOn '\n').dropLast.mapM fun line => decode parse (String.ofList line)

variable {parse : String → Option Json}

theorem Portable.decode_encoded {n : Node} (portable : n.Portable) (text : n.ReadBy parse) :
    decode parse n.encoded = some n := by
  have fits : n.toJson.Fits (·.isFinite) 4 := fits_toJson 0 portable.floats
  rw [decode, text fits, Option.bind_some, portable.ofJson?_toJson]

theorem readLines_lines {nodes : List Node} (portable : ∀ n ∈ nodes, n.Portable)
    (text : ∀ n ∈ nodes, n.ReadBy parse) : readLines parse (lines nodes) = some nodes := by
  rw [readLines, splitOn_lines, List.dropLast_concat]
  induction nodes with
  | nil => rfl
  | cons n rest ih =>
    obtain ⟨first, others⟩ := List.forall_mem_cons.mp portable
    obtain ⟨textFirst, textOthers⟩ := List.forall_mem_cons.mp text
    simp only [List.map_cons, List.mapM_cons, String.ofList_toList, first.decode_encoded textFirst,
      ih others textOthers]
    rfl

/-- Nodes can be handed over as JSON without loss, whatever the reader, as long as it reads the
texts of single nodes: the JSON of a node is read as the node, the text of nodes in a row has
one line for each, the lines are read as the nodes in their order, and what is hashed for a graph
tells lists of nodes apart. -/
theorem lines_lossless {nodes : List Node} (portable : ∀ n ∈ nodes, n.Portable)
    (text : ∀ n ∈ nodes, n.ReadBy parse) :
    (∀ n ∈ nodes, ofJson? n.toJson = some n ∧ decode parse n.encoded = some n) ∧
      (lines nodes).toList.splitOn '\n' = nodes.map (fun n => n.encoded.toList) ++ [[]] ∧
      readLines parse (lines nodes) = some nodes ∧
      (∀ others : List Node, (∀ n ∈ others, n.Portable) → (∀ n ∈ others, n.ReadBy parse) →
        (lines others).toUTF8 = (lines nodes).toUTF8 → others = nodes) ∧
      ∀ g : Graph, g.all = nodes → g.fingerprint = Blake3.hexDigest (lines nodes).toUTF8 := by
  refine ⟨fun n inside => ?_, splitOn_lines nodes, readLines_lines portable text, ?_, ?_⟩
  · exact ⟨(portable n inside).ofJson?_toJson, (portable n inside).decode_encoded (text n inside)⟩
  · intro others portableOthers textOthers same
    have lines : lines others = lines nodes := String.toByteArray_inj.mp same
    have read := readLines_lines portableOthers textOthers
    rw [lines, readLines_lines portable text] at read
    exact (Option.some.inj read).symm
  · rintro g rfl
    rfl

/-- A node with a float, with a line feed in a text, with a relation that has no target, and with
an address that is accepted but not derived. -/
def laden : Node :=
  ⟨⟨"expr/+1"⟩, .sigilLiteral, OrderedSet.ofMembers [.expression, .literal],
    .ofList [("ratio", .float ⟨0x3FF8000000000000⟩), ("value", "a\n\"b\"")],
    .ofList [(.element, ⟨[], true⟩), (.reference, ⟨[⟨"pattern/0"⟩, ⟨"expr/0/left"⟩], true⟩)]⟩

theorem lines_lossless_laden :
    (∀ n ∈ [laden, default], n.Portable) ∧
      (∀ n ∈ [laden, default], n.ReadBy (Json.read? 127)) ∧
      readLines (Json.read? 127) (lines [laden, default]) = some [laden, default] ∧
      (lines [laden, default]).toUTF8 ≠ (lines [laden]).toUTF8 := by
  have links : laden.links = [(.reference, ⟨"pattern/0"⟩), (.reference, ⟨"expr/0/left"⟩)] := rfl
  have values : laden.properties.values = [.float ⟨0x3FF8000000000000⟩, .text "a\n\"b\""] := rfl
  have number : Binary64.ReadsBack ⟨0x3FF8000000000000⟩ :=
    ⟨⟨false, ['1'], ['5'], none⟩, rfl, rfl⟩
  have floats {good : Binary64 → Prop} (holds : good ⟨0x3FF8000000000000⟩) :
      ∀ x, Property.float x ∈ laden.properties.values → good x := by
    rw [values]
    simpa using holds
  have both {holds : Node → Prop} (first : holds laden) (second : holds default) :
      ∀ n ∈ [laden, default], holds n :=
    List.forall_mem_cons.mpr ⟨first, List.forall_mem_singleton.mpr second⟩
  have ladenPortable : laden.Portable := by
    refine ⟨rfl, ?_, floats (by decide)⟩
    rw [links]
    exact List.forall_mem_cons.mpr ⟨rfl, List.forall_mem_singleton.mpr rfl⟩
  have defaultPortable : (default : Node).Portable :=
    ⟨rfl, fun _ inside => absurd inside List.not_mem_nil, fun _ inside => absurd inside List.not_mem_nil⟩
  have portable := both ladenPortable defaultPortable
  have ladenText : laden.ReadBy (Json.read? 127) := readBy_read? (by decide) (floats number)
  have defaultText : (default : Node).ReadBy (Json.read? 127) :=
    readBy_read? (by decide) fun _ inside => absurd inside List.not_mem_nil
  have text := both ladenText defaultText
  obtain ⟨_, _, read, apart, _⟩ := lines_lossless portable text
  refine ⟨portable, text, read, fun same => ?_⟩
  have equal := apart [laden] (List.forall_mem_singleton.mpr ladenPortable)
    (List.forall_mem_singleton.mpr ladenText) same.symm
  cases equal

end Node

end SyntaxGraph
