import Mathlib.Data.List.Perm.Basic
import SyntaxGraph.Node.Basic
import SyntaxGraph.Proofs.Paths

/-!
# The links of a node under construction

A node is put together by adding targets role by role. Links are compared as multisets:
the map of relations lists them by role and not in the order they were added. `Holds`
says which slots of a node are filled: its links are exactly those slots, each leads to
the address that the slot has below the node, and no two slots meet. Every way of adding
a part has one lemma here, and nothing later looks at relations again.
-/

namespace SyntaxGraph

namespace OrderedMap

variable {κ : Type} [Ord κ] {α : Type}

theorem rising_cons_lt {entry : κ × α} {rest : List (κ × α)} {x : κ × α}
    (rising : (entry :: rest).Pairwise fun a b => compare a.1 b.1 = .lt) (member : x ∈ rest) :
    compare entry.1 x.1 = .lt :=
  (List.pairwise_cons.mp rising).1 x member

/-- Apart from the order, an insertion puts the entry in place of those of the same key. -/
theorem insert_entries_perm [Std.TransOrd κ] (m : OrderedMap κ α) (key : κ) (value : α) :
    (m.insert key value).entries.Perm ((key, value) :: (m.erase key).entries) := by
  obtain ⟨entries, rising⟩ := m
  change (insertEntry key value entries).Perm
    ((key, value) :: entries.filter fun entry => compare key entry.1 != .eq)
  induction entries with
  | nil => exact .refl _
  | cons entry rest ih =>
      unfold insertEntry
      split
      · rename_i less
        have kept : (entry :: rest).filter (fun x => compare key x.1 != .eq) = entry :: rest := by
          refine List.filter_eq_self.mpr fun x member => ?_
          rcases List.mem_cons.mp member with rfl | member
          · simp [less]
          · simp [Std.TransCmp.lt_trans less (rising_cons_lt rising member)]
        rw [kept]
      · rename_i equal
        have kept : rest.filter (fun x => compare key x.1 != .eq) = rest := by
          refine List.filter_eq_self.mpr fun x member => ?_
          simp [Std.TransCmp.lt_of_eq_of_lt equal (rising_cons_lt rising member)]
        simp [equal, kept]
      · rename_i greater
        have inner := (ih (List.pairwise_cons.mp rising).2).cons entry
        simpa [greater] using inner.trans (.swap _ _ _)

/-- Apart from the order, the entries are that of a key, if it has one, and those of the other
keys. -/
theorem entries_perm [Std.TransOrd κ] [Std.LawfulEqOrd κ] (m : OrderedMap κ α) (key : κ) :
    m.entries.Perm ((m.get? key).toList.map (fun value => (key, value)) ++ (m.erase key).entries) := by
  obtain ⟨entries, rising⟩ := m
  change entries.Perm
    ((((entries.find? fun entry => compare key entry.1 == .eq).map (·.2)).toList.map
      fun value => (key, value)) ++ entries.filter fun entry => compare key entry.1 != .eq)
  induction entries with
  | nil => exact .refl _
  | cons entry rest ih =>
      have inner := ih (List.pairwise_cons.mp rising).2
      by_cases equal : compare key entry.1 = .eq
      · have kept : rest.filter (fun x => compare key x.1 != .eq) = rest := by
          refine List.filter_eq_self.mpr fun x member => ?_
          simp [Std.TransCmp.lt_of_eq_of_lt equal (rising_cons_lt rising member)]
        obtain rfl := Std.LawfulEqOrd.eq_of_compare equal
        simp [kept]
      · simpa [List.find?_cons, equal] using (inner.cons entry).trans List.perm_middle.symm

end OrderedMap

namespace Relation

theorem push_targets_of_ordered {r : Relation} (ordered : r.ordered = true) (target : Address) :
    (r.push target).targets = r.targets ++ [target] := by
  simp [push, ordered]

/-- The first target stands alone, however the relation is kept. -/
theorem push_targets_of_empty {r : Relation} (none : r.targets = []) (target : Address) :
    (r.push target).targets = [target] := by
  unfold push
  split
  · simp [none]
  · simp [none, insertSorted]

@[simp] theorem push_ordered (r : Relation) (target : Address) :
    (r.push target).ordered = r.ordered := by
  unfold push
  split <;> rfl

theorem mem_insertSorted {x target : Address} {targets : List Address}
    (member : x ∈ insertSorted target targets) : x = target ∨ x ∈ targets := by
  unfold insertSorted at member
  dsimp only at member
  split at member
  · exact .inl (List.mem_singleton.mp member)
  · split at member
    · exact .inr member
    all_goals exact List.eq_or_mem_of_mem_insertIdx member

theorem mem_push {r : Relation} {x target : Address} (member : x ∈ (r.push target).targets) :
    x = target ∨ x ∈ r.targets := by
  unfold push at member
  split at member
  · rcases List.mem_append.mp member with member | member
    · exact .inr member
    · exact .inl (List.mem_singleton.mp member)
  · exact mem_insertSorted member

end Relation

namespace Node

@[simp] theorem make_address (site : Address) (kind : NodeKind) : (make site kind).address = site := rfl

@[simp] theorem make_links (site : Address) (kind : NodeKind) : (make site kind).links = [] := rfl

@[simp] theorem set_address (n : Node) (name : String) (value : Property) :
    (n.set name value).address = n.address := rfl

@[simp] theorem set_relations (n : Node) (name : String) (value : Property) :
    (n.set name value).relations = n.relations := rfl

@[simp] theorem make_kind (site : Address) (kind : NodeKind) : (make site kind).kind = kind := rfl

@[simp] theorem set_kind (n : Node) (name : String) (value : Property) :
    (n.set name value).kind = n.kind := rfl

@[simp] theorem withTags_kind (n : Node) (tags : List NodeTag) :
    (n.withTags tags).kind = n.kind := rfl

@[simp] theorem withPosition_kind (n : Node) (position : Option Position) :
    (n.withPosition position).kind = n.kind := by
  unfold withPosition
  split
  · rfl
  · dsimp only
    split <;> rfl

@[simp] theorem text?_set_self (n : Node) (name value : String) :
    (n.set name value).text? name = some value := by
  simp [text?, property?, set, Property.text?]

theorem property?_set_of_ne (n : Node) {name other : String} (value : Property) (ne : other ≠ name) :
    (n.set name value).property? other = n.property? other := by
  have differs : compare other name ≠ .eq := fun equal => ne (Std.LawfulEqOrd.eq_of_compare equal)
  simp [property?, set, OrderedMap.get?_insert, differs]

theorem text?_set_of_ne (n : Node) {name other : String} (value : Property) (ne : other ≠ name) :
    (n.set name value).text? other = n.text? other := by
  rw [text?, property?_set_of_ne n value ne, text?]

@[simp] theorem withTags_address (n : Node) (tags : List NodeTag) :
    (n.withTags tags).address = n.address := rfl

@[simp] theorem withTags_relations (n : Node) (tags : List NodeTag) :
    (n.withTags tags).relations = n.relations := rfl

@[simp] theorem withPosition_address (n : Node) (position : Option Position) :
    (n.withPosition position).address = n.address := by
  unfold withPosition
  split
  · rfl
  · dsimp only
    split <;> rfl

@[simp] theorem withPosition_relations (n : Node) (position : Option Position) :
    (n.withPosition position).relations = n.relations := by
  unfold withPosition
  split
  · rfl
  · dsimp only
    split <;> rfl

theorem property?_withPosition (n : Node) (position : Option Position) {name : String}
    (line : name ≠ "line") (column : name ≠ "column") :
    (n.withPosition position).property? name = n.property? name := by
  unfold withPosition
  split
  · rfl
  · dsimp only
    split
    · exact property?_set_of_ne n _ line
    · exact (property?_set_of_ne _ _ column).trans (property?_set_of_ne n _ line)

theorem text?_withPosition (n : Node) (position : Option Position) {name : String}
    (line : name ≠ "line") (column : name ≠ "column") :
    (n.withPosition position).text? name = n.text? name := by
  rw [text?, n.property?_withPosition position line column, text?]

@[simp] theorem relate_address (n : Node) (role : Role) (target : Address) :
    (n.relate role target).address = n.address := rfl

@[simp] theorem declare_address (n : Node) (role : Role) : (n.declare role).address = n.address := rfl

@[simp] theorem relateAll_nil (n : Node) (role : Role) : n.relateAll role [] = n := rfl

@[simp] theorem relateAll_cons (n : Node) (role : Role) (target : Address) (targets : List Address) :
    n.relateAll role (target :: targets) = (n.relate role target).relateAll role targets := rfl

@[simp] theorem relateAll_address (n : Node) (role : Role) (targets : List Address) :
    (n.relateAll role targets).address = n.address := by
  induction targets generalizing n with
  | nil => rfl
  | cons target targets ih => exact ih (n.relate role target)

@[simp] theorem relateAll_kind (n : Node) (role : Role) (targets : List Address) :
    (n.relateAll role targets).kind = n.kind := by
  induction targets generalizing n with
  | nil => rfl
  | cons target targets ih => exact ih (n.relate role target)

theorem relation_targets (n : Node) (role : Role) : (n.relation role).targets = n.related role := by
  unfold relation related
  cases n.relations.get? role <;> rfl

/-- The links in all roles but one. -/
def otherLinks (n : Node) (role : Role) : List (Role × Address) :=
  (n.relations.erase role).entries.flatMap fun entry =>
    entry.2.targets.map fun target => (entry.1, target)

theorem links_perm (n : Node) (role : Role) :
    n.links.Perm ((n.related role).map (fun target => (role, target)) ++ n.otherLinks role) := by
  have split := (n.relations.entries_perm role).flatMap_right
    fun entry => entry.2.targets.map fun target => (entry.1, target)
  rw [List.flatMap_append] at split
  refine split.trans (.of_eq (congrArg (· ++ _) ?_))
  unfold related
  cases n.relations.get? role <;> simp

theorem links_insert_perm (n : Node) (role : Role) (relation : Relation) :
    ({ n with relations := n.relations.insert role relation } : Node).links.Perm
      (relation.targets.map (fun target => (role, target)) ++ n.otherLinks role) := by
  have split := (n.relations.insert_entries_perm role relation).flatMap_right
    fun entry => entry.2.targets.map fun target => (entry.1, target)
  rw [List.flatMap_cons] at split
  exact split

theorem mem_links_of_related {n : Node} {role : Role} {target : Address}
    (member : target ∈ n.related role) : (role, target) ∈ n.links :=
  (n.links_perm role).mem_iff.mpr
    (List.mem_append_left _ (List.mem_map.mpr ⟨target, member, rfl⟩))

/-- A new link is the one that was added. -/
theorem mem_relate_links {n : Node} {role : Role} {target : Address} {link : Role × Address}
    (member : link ∈ (n.relate role target).links) : link = (role, target) ∨ link ∈ n.links := by
  rcases List.mem_append.mp ((n.links_insert_perm role _).mem_iff.mp member) with pushed | other
  · obtain ⟨x, hx, rfl⟩ := List.mem_map.mp pushed
    rcases Relation.mem_push hx with rfl | old
    · exact .inl rfl
    · exact .inr (mem_links_of_related (by rwa [← relation_targets]))
  · exact .inr ((n.links_perm role).mem_iff.mpr (List.mem_append_right _ other))

/-- A declared role adds no links. -/
theorem mem_declare_links {n : Node} {role : Role} {link : Role × Address}
    (member : link ∈ (n.declare role).links) : link ∈ n.links := by
  have split := (n.links_insert_perm role (n.relation role)).mem_iff.mp member
  rw [relation_targets] at split
  exact (n.links_perm role).mem_iff.mpr split

theorem mem_relateAll_links {n : Node} {role : Role} {targets : List Address}
    {link : Role × Address} (member : link ∈ (n.relateAll role targets).links) :
    (link.1 = role ∧ link.2 ∈ targets) ∨ link ∈ n.links := by
  induction targets generalizing n with
  | nil => exact .inr member
  | cons target targets ih =>
      rcases ih (n := n.relate role target) member with ⟨same, later⟩ | earlier
      · exact .inl ⟨same, List.mem_cons_of_mem _ later⟩
      · rcases mem_relate_links earlier with rfl | old
        · exact .inl ⟨rfl, List.mem_cons_self⟩
        · exact .inr old

/-- Every relation of the node is kept in the way of its role. -/
def Proper (n : Node) : Prop :=
  ∀ role relation, n.relations.get? role = some relation → relation.ordered = role.isOrdered

theorem Proper.relation {n : Node} (proper : n.Proper) (role : Role) :
    (n.relation role).ordered = role.isOrdered := by
  unfold Node.relation
  cases found : n.relations.get? role with
  | none => rfl
  | some relation => exact proper role relation found

theorem Proper.insert {n : Node} (proper : n.Proper) {role : Role} {relation : Relation}
    (ordered : relation.ordered = role.isOrdered) :
    ({ n with relations := n.relations.insert role relation } : Node).Proper := by
  intro other found get
  rw [OrderedMap.get?_insert] at get
  split at get
  · rename_i equal
    cases get
    rw [Std.LawfulEqOrd.eq_of_compare equal, ordered]
  · exact proper other found get

/-- The filled slots of a node: its links are those of the slots, and the slots never meet. -/
structure Holds (n : Node) (slots : List Slot) : Prop where
  proper : n.Proper
  links : n.links.Perm (slots.map fun slot => (slot.1, n.address.at slot))
  structural : ∀ slot ∈ slots, slot.1.isStructural = true
  apart : slots.Pairwise Slot.Apart

namespace Holds

variable {n : Node} {slots : List Slot} {role : Role}

theorem make (site : Address) (kind : NodeKind) : (Node.make site kind).Holds [] :=
  ⟨fun _ _ found => (nomatch found), .refl _, fun _ member => (nomatch member), .nil⟩

/-- Filled slots depend on the address and the relations only. -/
theorem congr {m : Node} (holds : n.Holds slots) (address : m.address = n.address)
    (relations : m.relations = n.relations) : m.Holds slots := by
  obtain ⟨proper, links, structural, apart⟩ := holds
  refine ⟨?_, ?_, structural, apart⟩
  · intro role relation found
    exact proper role relation (relations ▸ found)
  · unfold Node.links at links ⊢
    rw [address, relations]
    exact links

theorem set (holds : n.Holds slots) (name : String) (value : Property) :
    (n.set name value).Holds slots := holds.congr rfl rfl

theorem withTags (holds : n.Holds slots) (tags : List NodeTag) : (n.withTags tags).Holds slots :=
  holds.congr rfl rfl

theorem withPosition (holds : n.Holds slots) (position : Option Position) :
    (n.withPosition position).Holds slots := holds.congr (by simp) (by simp)

theorem declare (holds : n.Holds slots) (role : Role) : (n.declare role).Holds slots := by
  refine ⟨holds.proper.insert (holds.proper.relation role), ?_, holds.structural, holds.apart⟩
  have same := n.links_insert_perm role (n.relation role)
  rw [relation_targets] at same
  exact same.trans ((n.links_perm role).symm.trans holds.links)

theorem perm (holds : n.Holds slots) {others : List Slot} (same : slots.Perm others) :
    n.Holds others := by
  refine ⟨holds.proper, holds.links.trans (same.map _), ?_, ?_⟩
  · intro slot member
    exact holds.structural slot (same.mem_iff.mpr member)
  · exact (same.pairwise_iff Slot.Apart.symm).mp holds.apart

/-- No target stands in a role that no slot has. -/
theorem related_eq_nil (holds : n.Holds slots) (free : ∀ slot ∈ slots, slot.1 ≠ role) :
    n.related role = [] := by
  refine List.eq_nil_iff_forall_not_mem.mpr fun target member => ?_
  obtain ⟨slot, hslot, same⟩ := List.mem_map.mp (holds.links.mem_iff.mp (mem_links_of_related member))
  exact free slot hslot (congrArg Prod.fst same)

/-- Fill one more slot, apart from all others; a role that keeps a set must be new. -/
theorem relate (holds : n.Holds slots) (slot : Slot) (structural : slot.1.isStructural = true)
    (apart : ∀ other ∈ slots, other.Apart slot)
    (kept : slot.1.isOrdered = true ∨ ∀ other ∈ slots, other.1 ≠ slot.1) :
    (n.relate slot.1 (n.address.at slot)).Holds (slots ++ [slot]) := by
  have ordered := holds.proper.relation slot.1
  refine ⟨holds.proper.insert (by rw [Relation.push_ordered, ordered]), ?_, ?_, ?_⟩
  · have targets : ((n.relation slot.1).push (n.address.at slot)).targets =
        n.related slot.1 ++ [n.address.at slot] := by
      rcases kept with positional | new
      · rw [Relation.push_targets_of_ordered (ordered.trans positional), relation_targets]
      · have none := holds.related_eq_nil new
        rw [Relation.push_targets_of_empty (by rw [relation_targets, none]), none, List.nil_append]
    have added := n.links_insert_perm slot.1 ((n.relation slot.1).push (n.address.at slot))
    rw [targets, List.map_append, List.append_assoc] at added
    rw [List.map_append]
    refine added.trans (List.perm_append_comm_assoc _ _ _ |>.trans ?_)
    exact (((n.links_perm slot.1).symm.trans holds.links).append_left _).trans List.perm_append_comm
  · intro other member
    rcases List.mem_append.mp member with old | new
    · exact holds.structural other old
    · exact List.mem_singleton.mp new ▸ structural
  · refine List.pairwise_append.mpr ⟨holds.apart, List.pairwise_singleton _ _, ?_⟩
    intro other member new hnew
    exact List.mem_singleton.mp hnew ▸ apart other member

/-- Fill several slots of one positional role, one after the other. -/
theorem relateAll (holds : n.Holds slots) (role : Role) (added : List Slot)
    (structural : role.isStructural = true)
    (ordered : role.isOrdered = true) (roles : ∀ slot ∈ added, slot.1 = role)
    (inner : added.Pairwise Slot.Apart)
    (outer : ∀ slot ∈ slots, ∀ new ∈ added, slot.Apart new) :
    (n.relateAll role (added.map n.address.at)).Holds (slots ++ added) := by
  induction added generalizing n slots with
  | nil => simpa using holds
  | cons slot added ih =>
      obtain ⟨first, others⟩ := List.pairwise_cons.mp inner
      obtain rfl := roles slot List.mem_cons_self
      have grown := holds.relate slot structural
        (fun other member => outer other member slot List.mem_cons_self) (.inl ordered)
      have rest := ih grown (fun other member => roles other (List.mem_cons_of_mem _ member)) others
        (by
          intro old member new hnew
          rcases List.mem_append.mp member with held | last
          · exact outer old held new (List.mem_cons_of_mem _ hnew)
          · exact List.mem_singleton.mp last ▸ first new hnew)
      simpa using rest

end Holds

end Node

/-- The slots of one role from a position on. -/
def Slot.numbered (role : Role) (start count : Nat) : List Slot :=
  (List.range' start count).map fun index => (role, some index)

namespace Slot

@[simp] theorem numbered_zero (role : Role) (start : Nat) : numbered role start 0 = [] := rfl

theorem numbered_succ (role : Role) (start count : Nat) :
    numbered role start (count + 1) = (role, some start) :: numbered role (start + 1) count := by
  simp [numbered, List.range'_succ]

theorem mem_numbered {role : Role} {start count : Nat} {slot : Slot} :
    slot ∈ numbered role start count ↔
      ∃ index, start ≤ index ∧ index < start + count ∧ slot = (role, some index) := by
  constructor
  · intro member
    obtain ⟨index, range, rfl⟩ := List.mem_map.mp member
    obtain ⟨low, high⟩ := List.mem_range'_1.mp range
    exact ⟨index, low, high, rfl⟩
  · rintro ⟨index, low, high, rfl⟩
    exact List.mem_map.mpr ⟨index, List.mem_range'_1.mpr ⟨low, high⟩, rfl⟩

theorem role_of_mem_numbered {role : Role} {start count : Nat} {slot : Slot}
    (member : slot ∈ numbered role start count) : slot.1 = role := by
  obtain ⟨index, -, -, rfl⟩ := mem_numbered.mp member
  rfl

theorem numbered_apart (role : Role) (start count : Nat) :
    (numbered role start count).Pairwise Apart := by
  refine List.Pairwise.map _ ?_ (List.nodup_range' (s := start) (n := count))
  intro i j distinct
  exact .inr ⟨i, j, rfl, rfl, distinct⟩

end Slot

end SyntaxGraph
