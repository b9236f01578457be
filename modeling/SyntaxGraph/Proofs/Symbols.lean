import SyntaxGraph.Proofs.Tree

/-!
# The symbols of a pattern

What a pattern binds can be read off its tree: a symbol introduces itself, a compound pattern
what its parts introduce, each at its own address. `Source.introduced` says so by recursion on
the shape of the tree. A builder has no such recursion; it hands one list of bindings through all
positions, starts a list of its own for every key of a map and looks at expressions in between.
In the end it has collected the same symbols, no name twice and none from a key.
-/

namespace SyntaxGraph

/-! ## What a pattern introduces -/

/-- The trees a pattern is made of, as far as they are patterns again. -/
def Pattern.trees : Pattern → List Source
  | .tuple items => items
  | .list elements tail => elements ++ tail.toList
  | .map entries => entries
  | .struct typeRef fields => typeRef :: fields
  | .binary segments => segments
  | .both left right => [left, right]
  | .textHead _ rest => [rest]
  | .fallback inner _ => [inner]
  | _ => []

namespace Source

open Build

variable {s x : Source} {items : List Source}

theorem argsOf?_eq_some {expected : String} {args : List Source}
    (h : s.argsOf? expected = some args) : ∃ note, s = .form expected note args := by
  cases s with
  | form tag note found =>
      simp only [argsOf?] at h
      split at h
      · rename_i same
        subst same
        cases h
        exact ⟨note, rfl⟩
      · cases h
  | _ => cases h

theorem sizeOf_lt_form {tag : String} {note : Meta} {args : List Source} {y : Source} (member : y ∈ args)
    (le : sizeOf x ≤ sizeOf y) : sizeOf x < sizeOf (Source.form tag note args) := by
  have := List.sizeOf_lt_of_mem member
  simp only [form.sizeOf_spec]
  omega

theorem trees_literalPattern (tag : String) (s : Source) : (literalPattern tag s).trees = [] := by
  unfold literalPattern
  split
  · rfl
  · rfl

theorem mem_splitTail (member : x ∈ (splitTail items).1 ++ (splitTail items).2.toList) :
    ∃ y ∈ items, sizeOf x ≤ sizeOf y := by
  unfold splitTail at member
  split at member
  · rename_i note head tail last
    have inside := List.mem_of_getLast? last
    simp only [List.mem_append, List.mem_singleton, Option.toList_some] at member
    obtain (member | rfl) | rfl := member
    · exact ⟨x, List.dropLast_subset _ member, Nat.le_refl _⟩
    · exact ⟨_, inside, Nat.le_of_lt (sizeOf_lt_form List.mem_cons_self (Nat.le_refl _))⟩
    · exact ⟨_, inside, Nat.le_of_lt (sizeOf_lt_form (by simp) (Nat.le_refl _))⟩
  · simp only [Option.toList_none, List.append_nil] at member
    exact ⟨x, member, Nat.le_refl _⟩

theorem mem_trees_formPattern {tag : String} {args : List Source}
    (member : x ∈ (formPattern s tag args).trees) : ∃ y ∈ args, sizeOf x ≤ sizeOf y := by
  unfold formPattern at member
  split at member
  · exact ⟨x, member, Nat.le_refl _⟩
  split at member
  · exact ⟨x, member, Nat.le_refl _⟩
  split at member
  · exact ⟨x, member, Nat.le_refl _⟩
  split at member
  · cases member
  split at member
  · split at member
    · cases member
    split at member
    · cases member
    · rw [trees_literalPattern] at member
      cases member
  · rename_i left right
    unfold binaryPattern at member
    split at member
    · split at member
      · rename_i fields found
        obtain ⟨note, rfl⟩ := argsOf?_eq_some found
        obtain _ | ⟨_, member⟩ := member
        · exact ⟨_, List.mem_cons_self, Nat.le_refl _⟩
        · exact ⟨.form mapTag note fields, by simp, Nat.le_of_lt (sizeOf_lt_form member (Nat.le_refl _))⟩
      · cases member
    · simp only [Pattern.trees, List.mem_cons, List.not_mem_nil, or_false] at member
      exact ⟨x, by simpa using member, Nat.le_refl _⟩
    · obtain rfl := List.mem_singleton.mp member
      exact ⟨_, by simp, Nat.le_refl _⟩
    · obtain rfl := List.mem_singleton.mp member
      exact ⟨_, by simp, Nat.le_refl _⟩
    · rw [trees_literalPattern] at member
      cases member
  · rw [trees_literalPattern] at member
    cases member

/-- The trees of a pattern lie below it. -/
theorem sizeOf_lt_of_mem_trees (member : x ∈ s.pattern.trees) : sizeOf x < sizeOf s := by
  unfold pattern at member
  split at member
  · split at member
    · cases member
    · split at member
      · cases member
      · cases member
  · obtain ⟨y, inside, le⟩ := mem_splitTail member
    have := List.sizeOf_lt_of_mem inside
    simp only [list.sizeOf_spec]
    omega
  · obtain ⟨y, inside, le⟩ := mem_trees_formPattern member
    exact sizeOf_lt_form inside le
  · have := List.sizeOf_lt_of_mem member
    simp only [tuple.sizeOf_spec]
    simp only [Pattern.trees] at this
    omega
  · cases member
  · rw [trees_literalPattern] at member
    cases member

theorem sizeOf_entryParts {entry : Source} {parts : Source × Source} (h : entry.mapEntry? = some parts) :
    sizeOf parts.1 < sizeOf entry ∧ sizeOf parts.2 < sizeOf entry := by
  have pair : ∀ items, (entry.tuple? <|> entry.argsOf? "=>") = some items → ∀ y ∈ items,
      sizeOf y < sizeOf entry := by
    intro items found y member
    obtain found | found : entry.tuple? = some items ∨ entry.argsOf? "=>" = some items := by
      cases first : entry.tuple? with
      | some others => exact .inl (by simpa [first] using found)
      | none => exact .inr (by simpa [first] using found)
    · cases entry with
      | tuple others =>
          cases found
          have := List.sizeOf_lt_of_mem member
          simp only [tuple.sizeOf_spec]
          omega
      | form tag note args =>
          obtain ⟨_, same⟩ := argsOf?_eq_some
            (show (Source.form tag note args).argsOf? tupleTag = some items from found)
          rw [same]
          exact sizeOf_lt_form member (Nat.le_refl _)
      | _ => cases found
    · obtain ⟨note, rfl⟩ := argsOf?_eq_some found
      exact sizeOf_lt_form member (Nat.le_refl _)
  unfold mapEntry? at h
  split at h
  · rename_i key value found
    cases h
    exact ⟨pair _ found _ (by simp), pair _ found _ (by simp)⟩
  · cases h

theorem sizeOf_split (segment : Source) : sizeOf (Segment.split segment).1 ≤ sizeOf segment := by
  unfold Segment.split
  split
  · exact Nat.le_of_lt (sizeOf_lt_form List.mem_cons_self (Nat.le_refl _))
  · exact Nat.le_refl _

/-- Trees at numbered addresses from a position on. -/
def numbered (site : Address) (role : Role) : Nat → List Source → List (Address × Source)
  | _, [] => []
  | index, x :: rest => (site.indexed role.label index, x) :: numbered site role (index + 1) rest

def entryKeys (site : Address) (items : List Source) : List (Address × Source) :=
  (numbered site .entry 0 items).filterMap fun (address, source) =>
    source.mapEntry?.map fun parts => (address.child Role.key.label, parts.1)

def entryValues (site : Address) (items : List Source) : List (Address × Source) :=
  (numbered site .entry 0 items).filterMap fun (address, source) =>
    source.mapEntry?.map fun parts => (address.child Role.value.label, parts.2)

def segmentValues (site : Address) (segments : List Source) : List (Address × Source) :=
  (numbered site .segment 0 segments).map fun segment =>
    (segment.1.child Role.value.label, (Segment.split segment.2).1)

end Source

namespace Pattern

open Source Build

/-- The parts of a pattern that introduce what it introduces, with their addresses. Keys of maps
and structs are none of them. -/
def parts (site : Address) : Pattern → List (Address × Source)
  | .tuple items => numbered site .element 0 items
  | .list items tail =>
    numbered site .element 0 items ++ tail.toList.map fun tail => (site.child Role.tail.label, tail)
  | .map items => entryValues site items
  | .struct typeRef fields =>
    (site.child Role.referencedType.label, typeRef) :: entryValues site fields
  | .binary segments => segmentValues site segments
  | .both left right =>
    [(site.child Role.inner.label, (asSides left right).1),
      (site.child Role.boundAs.label, (asSides left right).2)]
  | .textHead _ rest => [(site.child Role.tail.label, rest)]
  | .fallback inner _ => [(site.child Role.pattern.label, inner)]
  | _ => []

def keys (site : Address) : Pattern → List (Address × Source)
  | .map items => entryKeys site items
  | .struct _ fields => entryKeys site fields
  | _ => []

end Pattern

namespace Source

variable {s : Source} {items : List Source}

theorem mem_numbered {site : Address} {role : Role} {index : Nat} {part : Address × Source}
    (member : part ∈ numbered site role index items) : part.2 ∈ items := by
  induction items generalizing index with
  | nil => cases member
  | cons x rest ih =>
      obtain _ | ⟨_, member⟩ := member
      · exact List.mem_cons_self
      · exact List.mem_cons_of_mem _ (ih member)

theorem sizeOf_entryValues {site : Address} {part : Address × Source}
    (member : part ∈ entryValues site items) : ∃ y ∈ items, sizeOf part.2 < sizeOf y := by
  obtain ⟨entry, inside, found⟩ := List.mem_filterMap.mp member
  obtain ⟨parts, split, rfl⟩ := Option.map_eq_some_iff.mp found
  exact ⟨entry.2, mem_numbered inside, (sizeOf_entryParts split).2⟩

theorem sizeOf_parts {site : Address} {part : Address × Source}
    (member : part ∈ s.pattern.parts site) : sizeOf part.2 < sizeOf s := by
  have below : ∀ x ∈ s.pattern.trees, sizeOf x < sizeOf s := fun x => sizeOf_lt_of_mem_trees
  generalize s.pattern = shape at below member
  cases shape with
  | tuple elements => exact below _ (mem_numbered member)
  | list elements tail =>
      obtain member | member := List.mem_append.mp member
      · exact below _ (List.mem_append_left _ (mem_numbered member))
      · obtain ⟨x, inside, rfl⟩ := List.mem_map.mp member
        exact below x (List.mem_append_right _ inside)
  | map entries =>
      obtain ⟨y, inside, smaller⟩ := sizeOf_entryValues member
      exact Nat.lt_trans smaller (below y inside)
  | struct typeRef fields =>
      obtain _ | ⟨_, member⟩ := member
      · exact below _ List.mem_cons_self
      · obtain ⟨y, inside, smaller⟩ := sizeOf_entryValues member
        exact Nat.lt_trans smaller (below y (List.mem_cons_of_mem _ inside))
  | binary segments =>
      obtain ⟨segment, inside, rfl⟩ := List.mem_map.mp member
      exact Nat.lt_of_le_of_lt (sizeOf_split _) (below _ (mem_numbered inside))
  | both left right =>
      have sides : (Build.asSides left right).1 ∈ [left, right] ∧
          (Build.asSides left right).2 ∈ [left, right] := by
        unfold Build.asSides
        split <;> simp
      obtain _ | ⟨_, _ | ⟨_, member⟩⟩ := member
      · exact below _ sides.1
      · exact below _ sides.2
      · cases member
  | textHead head rest =>
      obtain rfl := List.mem_singleton.mp member
      exact below _ List.mem_cons_self
  | fallback inner default =>
      obtain rfl := List.mem_singleton.mp member
      exact below _ List.mem_cons_self
  | _ => cases member

theorem flatMap_entryValues {α : Type} (site : Address) (items : List Source)
    (f : Address × Source → List α) :
    (entryValues site items).flatMap f = (numbered site .entry 0 items).flatMap fun (address, source) =>
      source.mapEntry?.elim [] fun parts => f (address.child Role.value.label, parts.2) := by
  unfold entryValues
  induction numbered site .entry 0 items with
  | nil => rfl
  | cons entry rest ih =>
      rw [List.filterMap_cons, List.flatMap_cons, ← ih]
      obtain ⟨address, source⟩ := entry
      dsimp only
      cases source.mapEntry? with
      | none => rfl
      | some parts => rfl

/-- The symbols a pattern introduces, each at the address and position where it stands. -/
def introduced (site : Address) (s : Source) : Bindings :=
  match s.pattern with
  | .symbol name => [⟨name, some site, s.position⟩]
  | _ => (s.pattern.parts site).attach.flatMap fun part => introduced part.1.1 part.1.2
termination_by sizeOf s
decreasing_by exact sizeOf_parts part.2

theorem introduced_symbol {site : Address} {name : String} (shape : s.pattern = .symbol name) :
    introduced site s = [⟨name, some site, s.position⟩] := by
  rw [introduced, shape]

/-- What is no symbol introduces what its parts introduce. -/
theorem introduced_parts {site : Address} (other : ∀ name, s.pattern ≠ .symbol name) :
    introduced site s = (s.pattern.parts site).flatMap fun part => introduced part.1 part.2 := by
  rw [introduced]
  split
  · rename_i name shape
    exact absurd shape (other name)
  · conv_rhs => rw [← List.attach_map_subtype_val (s.pattern.parts site), List.flatMap_map]

/-- The positions of a pattern: itself, its parts and the keys among them. -/
inductive PatternPosition (root : Address) (source : Source) : Address → Source → Prop where
  | whole : PatternPosition root source root source
  | part {site s part} (above : PatternPosition root source site s) (member : part ∈ s.pattern.parts site) :
      PatternPosition root source part.1 part.2
  | key {site s key} (above : PatternPosition root source site s) (member : key ∈ s.pattern.keys site) :
      PatternPosition root source key.1 key.2

/-- No key at any position of a pattern introduces a symbol. -/
def KeysSilent (root : Address) (source : Source) : Prop :=
  ∀ site s, PatternPosition root source site s → ∀ key ∈ s.pattern.keys site, introduced key.1 key.2 = []

/-- A position below the root lies in one of its parts or keys. -/
theorem PatternPosition.descend {root site : Address} {source : Source}
    (h : PatternPosition root source site s) :
    (site = root ∧ s = source) ∨
      ∃ part, (part ∈ source.pattern.parts root ∨ part ∈ source.pattern.keys root) ∧
        PatternPosition part.1 part.2 site s := by
  induction h with
  | whole => exact .inl ⟨rfl, rfl⟩
  | part _ member ih =>
      obtain ⟨rfl, rfl⟩ | ⟨first, inside, rest⟩ := ih
      · exact .inr ⟨_, .inl member, .whole⟩
      · exact .inr ⟨first, inside, .part rest member⟩
  | key _ member ih =>
      obtain ⟨rfl, rfl⟩ | ⟨first, inside, rest⟩ := ih
      · exact .inr ⟨_, .inr member, .whole⟩
      · exact .inr ⟨first, inside, .key rest member⟩

theorem KeysSilent.of_parts {root : Address} {source : Source}
    (parts : ∀ part ∈ source.pattern.parts root, KeysSilent part.1 part.2)
    (keys : ∀ key ∈ source.pattern.keys root, introduced key.1 key.2 = [] ∧ KeysSilent key.1 key.2) :
    KeysSilent root source := by
  intro site s position key member
  obtain ⟨rfl, rfl⟩ | ⟨first, inside | inside, rest⟩ := position.descend
  · exact (keys key member).1
  · exact parts first inside site s rest key member
  · exact (keys first inside).2 site s rest key member

end Source

/-! ## What the builder collects -/

namespace Bindings

/-- The bindings of a position grow by new ones, and no name is bound twice. -/
structure Extends (bindings new found : Bindings) : Prop where
  grown : found = bindings ++ new
  distinct : bindings.names.Nodup → found.names.Nodup

variable {bindings middle new more found : Bindings}

theorem Extends.refl (bindings : Bindings) : bindings.Extends [] bindings :=
  ⟨(List.append_nil _).symm, id⟩

theorem Extends.trans (first : bindings.Extends new middle) (second : middle.Extends more found) :
    bindings.Extends (new ++ more) found :=
  ⟨by rw [second.grown, first.grown, List.append_assoc], second.distinct ∘ first.distinct⟩

/-- A binding whose name is new may be added. -/
theorem Extends.add {binding : Binding} (unbound : bindings.binds binding.name = false) :
    bindings.Extends [binding] (bindings ++ [binding]) := by
  refine ⟨rfl, fun distinct => ?_⟩
  have fresh : binding.name ∉ bindings.names := by
    intro member
    obtain ⟨other, inside, same⟩ := List.mem_map.mp member
    exact List.any_eq_false.mp unbound other inside (beq_iff_eq.mpr same)
  rw [names, List.map_append]
  refine List.nodup_append.mpr ⟨distinct, by simp, ?_⟩
  rintro name inside _ single rfl
  obtain rfl : name = binding.name := List.mem_singleton.mp single
  exact fresh inside

end Bindings

/-- A level at which patterns collect what they introduce. -/
def Level.Collects (level : Level) : Prop :=
  ∀ {limits site source bindings s found t},
    (level.pattern site source bindings).Yields limits s found t →
    Bindings.Extends bindings (source.introduced site) found ∧ source.KeysSilent site

namespace Build

variable {limits : Limits} {level : Level} {site : Address} {source : Source} {s t : Session}
  {bindings found : Bindings} {β : Type}

/-- Positions one after the other collect what they introduce one after the other. -/
theorem foldParts_extends {build : Address → Source → β → Build β} (bound : β → Bindings)
    {new : Address × Source → Bindings} {holds : Address × Source → Prop}
    (step : ∀ part b s c t, (build part.1 part.2 b).Yields limits s c t →
      (bound b).Extends (new part) (bound c) ∧ holds part)
    {role : Role} {index : Nat} {items : List Source} {b : β} {result : List Address × β}
    (h : (foldParts site role build index items b).Yields limits s result t) :
    (bound b).Extends ((Source.numbered site role index items).flatMap new) (bound result.2) ∧
      ∀ part ∈ Source.numbered site role index items, holds part := by
  induction items generalizing index b s result with
  | nil =>
      obtain ⟨rfl, rfl⟩ := yields_foldParts_nil h
      exact ⟨.refl _, fun _ member => (nomatch member)⟩
  | cons item items ih =>
      obtain ⟨middle, addresses, u, first, others, -⟩ := yields_foldParts_cons h
      obtain ⟨here, held⟩ := step (site.indexed role.label index, item) b s middle u first
      obtain ⟨rest, all⟩ := ih others
      exact ⟨here.trans rest, List.forall_mem_cons.mpr ⟨held, all⟩⟩

section Positions

variable (collects : level.Collects)
include collects

theorem patternChild_extends {node : Node} {role : Role} {result : Node × Bindings}
    (here : node.address = site)
    (h : (patternChild level node role source bindings).Yields limits s result t) :
    bindings.Extends (source.introduced (site.child role.label)) result.2 ∧
      source.KeysSilent (site.child role.label) ∧ result.1.address = site := by
  subst here
  obtain ⟨found, u, inner, last⟩ := yields_bind h
  obtain ⟨rfl, rfl⟩ := yields_pure last
  obtain ⟨extended, silent⟩ := collects inner
  exact ⟨extended, silent, rfl⟩

theorem patternElements_extends {node : Node} {items : List Source} {result : Node × Bindings}
    (here : node.address = site)
    (h : (patternElements level node items bindings).Yields limits s result t) :
    bindings.Extends ((Source.numbered site .element 0 items).flatMap fun part =>
        part.2.introduced part.1) result.2 ∧
      (∀ part ∈ Source.numbered site .element 0 items, part.2.KeysSilent part.1) ∧
      result.1.address = site := by
  subst here
  obtain ⟨addresses, more, -, inner, rfl⟩ := yields_patternElements h
  obtain ⟨extended, silent⟩ := foldParts_extends id (fun _ _ _ _ _ => collects) inner
  exact ⟨extended, silent, by simp⟩

/-- An entry collects what its value introduces, and its key introduces nothing. -/
theorem patternEntry_extends
    (h : (patternEntry level site source bindings).Yields limits s found t) :
    bindings.Extends
        ( source.mapEntry?.elim [] fun parts => parts.2.introduced (site.child Role.value.label)) found ∧
      ∀ parts, source.mapEntry? = some parts →
        parts.1.introduced (site.child Role.key.label) = [] ∧
        parts.1.KeysSilent (site.child Role.key.label) ∧
        parts.2.KeysSilent (site.child Role.value.label) := by
  obtain ⟨key, value, v, w, isEntry, keyed, valued, -⟩ := yields_patternEntry h
  obtain ⟨extended, silent⟩ := collects keyed
  obtain ⟨extended', silent'⟩ := collects valued
  rw [isEntry]
  refine ⟨extended', fun parts same => ?_⟩
  cases same
  have grown : [] = key.introduced (site.child Role.key.label) := extended.grown
  exact ⟨grown.symm, silent, silent'⟩

theorem patternEntries_extends {node : Node} {items : List Source} {result : Node × Bindings}
    (here : node.address = site)
    (h : (patternEntries level node items bindings).Yields limits s result t) :
    bindings.Extends ((Source.entryValues site items).flatMap fun part =>
        part.2.introduced part.1) result.2 ∧
      (∀ part ∈ Source.entryValues site items, part.2.KeysSilent part.1) ∧
      (∀ key ∈ Source.entryKeys site items,
        key.2.introduced key.1 = [] ∧ key.2.KeysSilent key.1) := by
  subst here
  obtain ⟨addresses, more, -, inner, rfl⟩ := yields_patternEntries h
  obtain ⟨extended, silent⟩ := foldParts_extends id
    (fun part _ _ _ _ entry => patternEntry_extends collects entry) inner
  refine ⟨?_, fun part member => ?_, fun key member => ?_⟩
  · rw [Source.flatMap_entryValues]
    exact extended
  · obtain ⟨entry, inside, found⟩ := List.mem_filterMap.mp member
    obtain ⟨parts, split, rfl⟩ := Option.map_eq_some_iff.mp found
    exact (silent entry inside parts split).2.2
  · obtain ⟨entry, inside, found⟩ := List.mem_filterMap.mp member
    obtain ⟨parts, split, rfl⟩ := Option.map_eq_some_iff.mp found
    exact ⟨(silent entry inside parts split).1, (silent entry inside parts split).2.1⟩

theorem segments_extends {room : Nat} {node : Node} {segments : List Source}
    {result : Node × Bindings × List (String × Address)} (here : node.address = site)
    (h : (Segment.buildAll room level.pattern node segments bindings).Yields limits s result t) :
    bindings.Extends ((Source.segmentValues site segments).flatMap fun part =>
        part.2.introduced part.1) result.2.1 ∧
      ∀ part ∈ Source.segmentValues site segments, part.2.KeysSilent part.1 := by
  subst here
  obtain ⟨addresses, final, -, inner, rfl⟩ := Segment.yields_buildAll h
  have step : ∀ (part : Address × Source) (b : Bindings × List (String × Address)) s c t,
      (Segment.step room level.pattern part.1 part.2 b).Yields limits s c t →
      b.1.Extends ((Segment.split part.2).1.introduced (part.1.child Role.value.label)) c.1 ∧
        (Segment.split part.2).1.KeysSilent (part.1.child Role.value.label) := by
    intro part b s c t segment
    obtain ⟨value, v, reading, w, inner, -, rfl, -⟩ := Segment.yields_step segment
    exact collects inner
  obtain ⟨extended, silent⟩ := foldParts_extends Prod.fst step inner
  unfold Source.segmentValues
  rw [List.flatMap_map]
  exact ⟨extended, List.forall_mem_map.mpr silent⟩

omit collects in
/-- A pattern that is no symbol is settled by its parts and keys. -/
theorem extends_of_parts {shape : Pattern} (isShape : source.pattern = shape)
    (other : ∀ name, shape ≠ .symbol name)
    (extended : bindings.Extends ((shape.parts site).flatMap fun part => part.2.introduced part.1) found)
    (silent : ∀ part ∈ shape.parts site, part.2.KeysSilent part.1)
    (unbound : ∀ key ∈ shape.keys site, key.2.introduced key.1 = [] ∧ key.2.KeysSilent key.1) :
    bindings.Extends (source.introduced site) found ∧ source.KeysSilent site := by
  subst isShape
  rw [Source.introduced_parts other]
  exact ⟨extended, .of_parts silent unbound⟩

theorem patternStep_extends {sameDepth : Address → Source → Build Unit}
    (h : (patternStep level sameDepth site source bindings).Yields limits s found t) :
    bindings.Extends (source.introduced site) found ∧ source.KeysSilent site := by
  have leaf : ∀ {shape : Pattern}, source.pattern = shape → (∀ name, shape ≠ .symbol name) →
      shape.parts site = [] → shape.keys site = [] → found = bindings →
      bindings.Extends (source.introduced site) found ∧ source.KeysSilent site := by
    rintro shape isShape other parts keys rfl
    refine extends_of_parts isShape other ?_ ?_ ?_
    · rw [parts]
      exact .refl _
    · rw [parts]
      exact fun _ member => absurd member List.not_mem_nil
    · rw [keys]
      exact fun _ member => absurd member List.not_mem_nil
  have run := yields_patternStep h
  generalize shape : source.pattern = p at run
  cases run with
  | literal | value | signed | wildcard | pin => exact leaf shape (by simp) rfl rfl rfl
  | symbol fresh =>
    rw [Source.introduced_symbol shape]
    refine ⟨.add fresh, .of_parts ?_ ?_⟩
    · rw [shape]
      exact fun _ member => absurd member List.not_mem_nil
    · rw [shape]
      exact fun _ member => absurd member List.not_mem_nil
  | tuple inner =>
    obtain ⟨extended, silent, -⟩ := patternElements_extends collects (patternNode_address _ _ _) inner
    exact extends_of_parts shape (by simp) extended silent fun _ member => absurd member List.not_mem_nil
  | list inner =>
    obtain ⟨extended, silent, -⟩ := patternElements_extends collects (patternNode_address _ _ _) inner
    refine extends_of_parts shape (by simp) ?_ ?_ fun _ member => absurd member List.not_mem_nil
    · simpa [Pattern.parts] using extended
    · simpa [Pattern.parts] using silent
  | listTail inner tail =>
    obtain ⟨extended, silent, here⟩ := patternElements_extends collects (patternNode_address _ _ _) inner
    obtain ⟨extended', silent', -⟩ := patternChild_extends collects here tail
    refine extends_of_parts shape (by simp) ?_ ?_ fun _ member => absurd member List.not_mem_nil
    · simpa [Pattern.parts] using extended.trans extended'
    · exact List.forall_mem_append.mpr ⟨silent, by simpa using silent'⟩
  | map inner =>
    obtain ⟨extended, silent, unbound⟩ :=
      patternEntries_extends collects (patternNode_address _ _ _) inner
    exact extends_of_parts shape (by simp) extended silent unbound
  | @struct _ _ _ _ _ named _ _ _ inner name fields =>
    obtain ⟨typed, typeSilent, here⟩ := patternChild_extends collects (patternNode_address _ _ _) inner
    have there : named.address = site := by
      rw [name]
      split <;> simpa using here
    obtain ⟨extended, silent, unbound⟩ := patternEntries_extends collects there fields
    exact extends_of_parts shape (by simp) (typed.trans extended)
      (List.forall_mem_cons.mpr ⟨typeSilent, silent⟩) unbound
  | binary inner =>
    obtain ⟨extended, silent⟩ := segments_extends collects (patternNode_address _ _ _) inner
    exact extends_of_parts shape (by simp) extended silent fun _ member => absurd member List.not_mem_nil
  | both inner whole =>
    obtain ⟨first, firstSilent, here⟩ :=
      patternChild_extends collects (patternNode_address _ _ _) inner
    obtain ⟨second, secondSilent, -⟩ := patternChild_extends collects here whole
    refine extends_of_parts shape (by simp) ?_ ?_ fun _ member => absurd member List.not_mem_nil
    · simpa [Pattern.parts] using first.trans second
    · simpa [Pattern.parts] using And.intro firstSilent secondSilent
  | textHead inner =>
    obtain ⟨extended, silent, -⟩ := patternChild_extends collects
      (show Node.address _ = site by simp) inner
    refine extends_of_parts shape (by simp) ?_ ?_ fun _ member => absurd member List.not_mem_nil
    · simpa [Pattern.parts] using extended
    · simpa [Pattern.parts] using silent
  | fallback inner value =>
    obtain ⟨extended, silent, -⟩ := patternChild_extends collects (patternNode_address _ _ _) inner
    refine extends_of_parts shape (by simp) ?_ ?_ fun _ member => absurd member List.not_mem_nil
    · simpa [Pattern.parts] using extended
    · simpa [Pattern.parts] using silent

end Positions

end Build

namespace Level

theorem above_collects {level inner : Level} {room : Nat} (collects : level.Collects) :
    (above room (fun _ => level) (fun _ => inner)).Collects := fun h =>
  Build.patternStep_extends collects h

theorem bottom_collects : bottom.Collects := fun h => absurd h Build.not_yields_tooDeep

theorem ofRoom_collects : ∀ room, (ofRoom room).Collects
  | 0 => bottom_collects
  | 1 => above_collects bottom_collects
  | room + 2 => above_collects (ofRoom_collects (room + 1))

end Level

/-! ## Compiled patterns -/

/-- A compiled pattern binds the symbols that it introduces. -/
structure CompiledPattern.Complete (p : CompiledPattern) (root : Address) (source : Source) : Prop where
  /-- The bindings are the symbols introduced, name by name with their nodes and positions. -/
  exact : ∀ b, b ∈ p.bindings ↔ b ∈ source.introduced root
  distinct : p.bindings.names.Nodup
  /-- No key of a map or struct, at any position, introduces a symbol. -/
  keys : ∀ site s, source.PatternPosition root site s → ∀ key ∈ s.pattern.keys site,
    key.2.introduced key.1 = []
  /-- The node of each binding is a pattern of that name in the graph. -/
  nodes : ∀ b ∈ p.bindings, ∃ node ∈ p.compiled.nodes, b.node = some node.address ∧
    node.kind = .variablePattern ∧ node.text? "name" = some b.name

namespace Compiler

/-- Patterns that are compiled bind exactly what they introduce, and a pattern that introduces a
name twice is never compiled. -/
theorem pattern_complete (c : Compiler) (root : Address) (source : Source) :
    (∀ p, c.pattern root source = .ok p → p.Complete root source) ∧
    (¬ (source.introduced root).names.Nodup → ∃ f, c.pattern root source = .error f) := by
  have collected : ∀ p, c.pattern root source = .ok p →
      Bindings.Extends [] (source.introduced root) p.bindings ∧ source.KeysSilent root ∧
        ∀ b ∈ p.bindings, b.Introduced p.compiled.nodes := by
    intro p h
    obtain ⟨⟨compiled, bindings⟩, run, rfl⟩ := except_map_eq_ok h
    obtain ⟨t, success, finished⟩ := run_eq_ok run
    obtain ⟨extended, silent⟩ := Level.ofRoom_collects _ success
    obtain ⟨-, introduces⟩ := (Level.ofRoom_sound _).pattern (Build.introduces_nil _) success
    refine ⟨extended, silent, fun b member => (introduces b member).mono fun node inside => ?_⟩
    obtain rfl : compiled = finish root t := finished
    exact (sortNodes_perm t.nodes.toList).mem_iff.mpr inside
  refine ⟨fun p h => ?_, fun twice => ?_⟩
  · obtain ⟨extended, silent, introduced⟩ := collected p h
    have grown : p.bindings = source.introduced root := extended.grown
    exact ⟨fun b => by rw [grown], extended.distinct List.nodup_nil, silent, introduced⟩
  · cases h : c.pattern root source with
    | error f => exact ⟨f, rfl⟩
    | ok p =>
        obtain ⟨extended, -, -⟩ := collected p h
        have grown : p.bindings = source.introduced root := extended.grown
        exact absurd (grown ▸ extended.distinct List.nodup_nil) twice

/-- The patterns `[x, [y | _]]`, which binds two names, and `[x, [x | _]]`, which is not compiled. -/
theorem pattern_complete_lists :
    let pattern (name : String) : Source := .list [.symbol "x" .empty,
      .list [.binary "|" (.symbol name .empty) (.symbol "_" .empty)]]
    let root : Address := ⟨"pattern/0"⟩
    (∃ p, Compiler.pattern ⟨.standard, []⟩ root (pattern "y") = .ok p ∧ p.bindings.names = ["x", "y"] ∧
      p.Complete root (pattern "y")) ∧
    ¬ ((pattern "x").introduced root).names.Nodup ∧
      ∃ f, Compiler.pattern ⟨.standard, []⟩ root (pattern "x") = .error f := by
  intro pattern root
  obtain ⟨p, success, names⟩ : ∃ p, Compiler.pattern ⟨.standard, []⟩ root (pattern "y") = .ok p ∧
      p.bindings.names = ["x", "y"] := ⟨_, rfl, rfl⟩
  have twice : ¬ ((pattern "x").introduced root).names.Nodup := by
    decide +kernel
  exact ⟨⟨p, success, names, (pattern_complete _ root _).1 p success⟩, twice,
    (pattern_complete _ root _).2 twice⟩

end Compiler

end SyntaxGraph
