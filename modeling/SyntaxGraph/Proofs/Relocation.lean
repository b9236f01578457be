import SyntaxGraph.Proofs.Recasting

/-!
# Constructs at another root

Addresses are made by taking steps from the root of a construct, and nothing but their
order is ever asked about them. So a construct compiled at another root gives the same
result with every address moved along: the same nodes in the same order, with the same
properties, and the same fault if there is one.

A `Placement` is a map of addresses that commutes with steps and keeps the order. Two
builds that start from addresses it relates have sessions that it relates all the way.
Putting a root before an address is a placement, so every construct is first compiled at
the empty address and then placed.
-/

namespace SyntaxGraph

namespace Address

/-- The address with another one written before it. -/
def under (root a : Address) : Address := ⟨root.text ++ a.text⟩

/-- The address with `root` at its beginning replaced by `other`. -/
def rebase (root other a : Address) : Address :=
  if root.text.toList.isPrefixOf a.text.toList then
    other.under ⟨String.ofList (a.text.toList.drop root.text.toList.length)⟩
  else a

theorem rebase_under (root other a : Address) : rebase root other (root.under a) = other.under a := by
  simp [rebase, under]

theorem under_empty (root : Address) : root.under ⟨""⟩ = root := by
  simp [under]

/-- Texts that begin alike compare by what follows. -/
theorem compare_append (root a b : String) : compare (root ++ a) (root ++ b) = compare a b := by
  have less : ∀ a b : String, (root ++ a < root ++ b) ↔ a < b := by
    intro a b
    simp only [String.lt_iff, String.toList_append]
    generalize root.toList = chars
    induction chars with
    | nil => rfl
    | cons c chars ih => simpa using ih
  show String.compare _ _ = String.compare _ _
  unfold String.compare compareOfLessAndEq
  simp [less]

end Address

def Placement.under (root : Address) : Placement where
  place := root.under
  compare_place a b := Address.compare_append root.text a.text b.text
  place_child a label := by simp [Address.under, Address.child, String.append_assoc]
  place_indexed a label index := by simp [Address.under, Address.indexed, String.append_assoc]

/-! ## The same data under other addresses -/

/-- The node with its own address and every target moved. -/
def Node.readdress (f : Address → Address) (n : Node) : Node :=
  { n with address := f n.address, relations := n.relations.mapValues (·.readdress f) }

def Binding.readdress (f : Address → Address) (b : Binding) : Binding := { b with node := b.node.map f }

def Capture.readdress (f : Address → Address) (c : Capture) : Capture :=
  { c with references := c.references.map f, supply := c.supply.map (·.readdress f) }

def ClosureReport.readdress (f : Address → Address) (r : ClosureReport) : ClosureReport :=
  { r with closure := f r.closure, captures := r.captures.map (·.readdress f) }

def Diagnostic.readdress (f : Address → Address) (d : Diagnostic) : Diagnostic :=
  { d with site := f d.site }

/-- The result with every address in it moved, and nothing else changed. -/
def Compiled.readdress (f : Address → Address) (c : Compiled) : Compiled :=
  ⟨f c.root, c.nodes.map (·.readdress f), c.diagnostics.map (·.readdress f),
    c.closures.map (·.readdress f)⟩

def CompiledPattern.readdress (f : Address → Address) (c : CompiledPattern) : CompiledPattern :=
  ⟨c.compiled.readdress f, c.bindings.map (·.readdress f)⟩

section Twice

variable (f g : Address → Address)

theorem Node.readdress_readdress (n : Node) :
    (n.readdress f).readdress g = n.readdress fun a => g (f a) := by
  have targets (r : Relation) : (r.readdress f).readdress g = r.readdress fun a => g (f a) := by
    simp [Relation.readdress, Function.comp_def]
  simp [readdress, OrderedMap.mapValues_mapValues, targets]

theorem Binding.readdress_readdress (b : Binding) :
    (b.readdress f).readdress g = b.readdress fun a => g (f a) := by
  simp [readdress, Function.comp_def]

theorem ClosureReport.readdress_readdress (r : ClosureReport) :
    (r.readdress f).readdress g = r.readdress fun a => g (f a) := by
  have supplies (s : Supply) : (s.readdress f).readdress g = s.readdress fun a => g (f a) := by
    simp [Supply.readdress, Function.comp_def]
  have captures (c : Capture) : (c.readdress f).readdress g = c.readdress fun a => g (f a) := by
    simp [Capture.readdress, Function.comp_def, supplies]
  simp [readdress, Function.comp_def, captures]

theorem Compiled.readdress_readdress (c : Compiled) :
    (c.readdress f).readdress g = c.readdress fun a => g (f a) := by
  have diagnostics (d : Diagnostic) : (d.readdress f).readdress g = d.readdress fun a => g (f a) := rfl
  simp [readdress, Function.comp_def, Node.readdress_readdress, ClosureReport.readdress_readdress,
    diagnostics]

theorem CompiledPattern.readdress_readdress (c : CompiledPattern) :
    (c.readdress f).readdress g = c.readdress fun a => g (f a) := by
  simp [readdress, Function.comp_def, Compiled.readdress_readdress, Binding.readdress_readdress]

theorem ConstructFault.readdress_readdress (fault : ConstructFault) :
    (fault.readdress f).readdress g = fault.readdress fun a => g (f a) := by
  obtain ⟨construct, fault⟩ := fault
  cases fault <;> rfl

end Twice

/-- Moving addresses and leaving positions as they are. -/
def Recast.moving (p : Placement) : Recast where
  toPlacement := p
  position := id
  positions := id
  properties := id
  position_none := rfl
  positions_nil := rfl
  positions_append _ _ := rfl
  properties_empty := rfl
  properties_insert _ _ _ _ := rfl
  properties_note _ _ := rfl

/-- Every primitive step goes along with a placement. -/
def Simulation.placed (p : Placement) (l : Limits) : Simulation :=
  .recast (.moving p) l .same (fun _ _ => id) fun _ => id

/-! ## Constructs at a place -/

namespace Compiler

variable {α β : Type} (c : Compiler) (p : Placement)

/-- What is compiled at a moved root is what is compiled at the root, moved. -/
def Placed (move : (Address → Address) → α → α) (compile : Address → Except ConstructFault α) : Prop :=
  ∀ (p : Placement) (root : Address),
    compile (p.place root) = ((compile root).map (move p.place)).mapError (·.readdress p.place)

/-- What is compiled at one root is what is compiled at another, with the one root put in place of
the other at the beginning of every address. -/
def Relocatable (move : (Address → Address) → α → α) (compile : Address → Except ConstructFault α) :
    Prop :=
  ∀ root other : Address, compile other =
    ((compile root).map (move (Address.rebase root other))).mapError
      (·.readdress (Address.rebase root other))

section Placed

variable {c} {move : (Address → Address) → α → α} {compile : Address → Except ConstructFault α}

/-- Both results are placed from the one at the empty address. -/
theorem Placed.relocatable (twice : ∀ f g a, move g (move f a) = move (fun address => g (f address)) a)
    (placed : Placed move compile) : Relocatable move compile := by
  intro root other
  have first := placed (.under root) ⟨""⟩
  have second := placed (.under other) ⟨""⟩
  simp only [Placement.under, Address.under_empty] at first second
  rw [first, second]
  cases compile ⟨""⟩ with
  | error fault =>
      show Except.error _ = Except.error ((fault.readdress root.under).readdress _)
      rw [ConstructFault.readdress_readdress]
      simp only [Address.rebase_under]
  | ok compiled =>
      show Except.ok _ = Except.ok (move _ (move root.under compiled))
      rw [twice]
      simp only [Address.rebase_under]

/-- What is read off a result that goes along with placements goes along with them. -/
theorem Placed.map {move' : (Address → Address) → β → β} {read : Address → α → β}
    (placed : Placed move compile)
    (goes : ∀ (p : Placement) root a, read (p.place root) (move p.place a) = move' p.place (read root a)) :
    Placed move' fun root => (compile root).map (read root) := by
  intro p root
  dsimp only
  rw [placed p root]
  cases compile root with
  | error fault => rfl
  | ok a => exact congrArg Except.ok (goes p root a)

theorem run_placed (move : (Address → Address) → α → α) {build : Address → Build α}
    (related : ∀ p root, (Simulation.placed p c.limits).Relates () () (fun _ a b => move p.place a = b)
      (build root) (build (p.place root))) :
    Placed (fun f done => (done.1.readdress f, move f done.2)) fun root => c.run root (build root) :=
  fun p root => c.run_recast (.moving p) (move p.place) (related p root)

end Placed

theorem level_placed : c.level.Related (.placed p c.limits) c.level :=
  Level.ofRoom_related Likeness.same_closed (fun _ _ => .ofNone (fun _ => id) _ _) _ _ rfl

theorem expression_placed (source : Source) : Placed Compiled.readdress (c.expression · source) := by
  have ran : Placed _ fun root => c.run root (c.level.expression root source) :=
    run_placed (fun _ => id) fun p root => Simulation.relates_mono
      ((c.level_placed p).expression trivial rfl rfl) fun _ _ _ _ _ => rfl
  exact ran.map fun _ _ _ => rfl

theorem function_placed (clauses : List Source) : Placed Compiled.readdress (c.function · clauses) := by
  have ran : Placed _ fun root => c.run root (buildFunction root clauses c.limits.maxDepth) :=
    run_placed (fun _ => id) fun p root => Simulation.relates_mono
      (Simulation.relates_buildFunction Likeness.same_closed
        (fun _ _ => .ofNone (fun _ => id) _ _) rfl trivial rfl
        (Likeness.same_reflexive.forms _ _)) fun _ _ _ _ _ => rfl
  exact ran.map fun _ _ _ => rfl

theorem pattern_placed (source : Source) : Placed CompiledPattern.readdress (c.pattern · source) := by
  have ran : Placed _ fun root => c.run root (c.level.pattern root source []) :=
    run_placed (fun f bindings => bindings.map (·.readdress f)) fun p root =>
      Simulation.relates_mono ((c.level_placed p).pattern trivial rfl rfl .nil)
        fun _ _ _ _ found => List.forall₂_eq_eq_eq ▸ List.forall₂_map_left_iff.mpr found.2
  exact ran.map fun _ _ _ => rfl

theorem closure_placed (source : Source) : Placed ClosureReport.readdress (c.closure · source) := by
  refine (c.expression_placed source).map fun p root compiled => ?_
  have found : (compiled.readdress p.place).closure? (p.place root) =
      (compiled.closure? root).map (·.readdress p.place) := by
    have same (r : ClosureReport) : ((r.readdress p.place).closure == p.place root) =
        (r.closure == root) := by
      rw [Bool.eq_iff_iff, beq_iff_eq, beq_iff_eq]
      exact p.place_inj
    simp only [Compiled.closure?, Compiled.readdress, List.find?_map, Function.comp_def, same]
  rw [found]
  cases compiled.closure? root <;> rfl

/-- Addresses say where a part lies from the root on and nothing else depends on them. Compiled at
another root a construct gives the same nodes, diagnostics, reports and bindings in the same order, or
the same fault, with the root replaced at the beginning of every address. -/
theorem root_relocatable :
    (∀ source, Relocatable Compiled.readdress (c.expression · source)) ∧
    (∀ clauses, Relocatable Compiled.readdress (c.function · clauses)) ∧
    (∀ source, Relocatable CompiledPattern.readdress (c.pattern · source)) ∧
    ∀ source, Relocatable ClosureReport.readdress (c.closure · source) := by
  refine ⟨fun source => ?_, fun clauses => ?_, fun source => ?_, fun source => ?_⟩
  · exact (c.expression_placed source).relocatable Compiled.readdress_readdress
  · exact (c.function_placed clauses).relocatable Compiled.readdress_readdress
  · exact (c.pattern_placed source).relocatable CompiledPattern.readdress_readdress
  · exact (c.closure_placed source).relocatable ClosureReport.readdress_readdress

end Compiler

end SyntaxGraph
