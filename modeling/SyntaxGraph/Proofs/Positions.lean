import SyntaxGraph.Proofs.Indexes
import SyntaxGraph.Proofs.Notes
import SyntaxGraph.Proofs.Recasting

/-!
# Positions are carried along and decide nothing

A position that the parser noted is copied to nodes, diagnostics, bindings and reads. No
builder asks for it. Compiled without notes, a tree therefore gives what it gives with them,
less the positions: the same nodes, reports and bindings, or the same fault.
-/

namespace SyntaxGraph

/-- The node without the properties that give a position. -/
def Node.erasePosition (n : Node) : Node :=
  { n with properties := (n.properties.erase "line").erase "column" }

def Binding.erasePosition (b : Binding) : Binding := { b with position := none }

def Diagnostic.erasePosition (d : Diagnostic) : Diagnostic := { d with position := none }

def Capture.erasePositions (c : Capture) : Capture := { c with positions := [] }

def ClosureReport.erasePositions (r : ClosureReport) : ClosureReport :=
  { r with captures := r.captures.map (·.erasePositions) }

/-- The result without positions, and with everything else as it is. -/
def Compiled.erasePositions (c : Compiled) : Compiled :=
  ⟨c.root, c.nodes.map (·.erasePosition), c.diagnostics.map (·.erasePosition),
    c.closures.map (·.erasePositions)⟩

def CompiledPattern.erasePositions (c : CompiledPattern) : CompiledPattern :=
  ⟨c.compiled.erasePositions, c.bindings.map (·.erasePosition)⟩

/-- Taking positions out and leaving addresses as they are. -/
def Recast.erasing : Recast where
  place := id
  compare_place _ _ := rfl
  place_child _ _ := rfl
  place_indexed _ _ _ := rfl
  position _ := none
  positions _ := []
  properties m := (m.erase "line").erase "column"
  position_none := rfl
  positions_nil := rfl
  positions_append _ _ := rfl
  properties_empty := rfl
  properties_insert m name value other := by
    simp only [Node.placeNames, List.mem_cons, List.not_mem_nil, or_false, not_or] at other
    rw [OrderedMap.erase_insert_of_ne _ _ other.1, OrderedMap.erase_insert_of_ne _ _ other.2]
  properties_note m p := by
    have line (m : OrderedMap String Property) (value : Property) :
        ((m.insert "line" value).erase "line").erase "column" = (m.erase "line").erase "column" := by
      rw [OrderedMap.erase_insert_self]
    have column (m : OrderedMap String Property) (value : Property) :
        ((m.insert "column" value).erase "line").erase "column" = (m.erase "line").erase "column" := by
      rw [OrderedMap.erase_insert_of_ne _ _ (by decide), OrderedMap.erase_insert_self]
    cases p with
    | none => rfl
    | some p =>
        simp only [Node.notePosition]
        cases p.column with
        | none => exact line m _
        | some _ => exact (column _ _).trans (line m _)

/-! ## Nothing else changes -/

theorem Fault.readdress_id (fault : Fault) : fault.readdress id = fault := by
  cases fault <;> rfl

theorem Node.recast_erasing (n : Node) : n.recast .erasing = n.erasePosition := by
  have relations : n.relations.mapValues (·.readdress id) = n.relations := by
    apply OrderedMap.ext
    simp [OrderedMap.mapValues, Relation.readdress]
  exact congrArg (Node.mk _ _ _ _) relations

theorem Binding.recast_erasing (b : Binding) : b.recast .erasing = b.erasePosition := by
  show Binding.mk b.name (b.node.map id) none = _
  rw [Option.map_id, id, erasePosition]

theorem Capture.recast_erasing (c : Capture) : c.recast .erasing = c.erasePositions := by
  have supplies (s : Supply) : s.readdress id = s := by
    rw [Supply.readdress, Option.map_id, id]
  show Capture.mk c.name [] (c.references.map id) (c.supply.map fun s => s.readdress id) c.mutation = _
  simp only [supplies, List.map_id, Option.map_id', erasePositions]

theorem ClosureReport.recast_erasing (r : ClosureReport) : r.recast .erasing = r.erasePositions := by
  show ClosureReport.mk r.closure r.bound (r.captures.map (·.recast .erasing)) r.scopeChain = _
  simp only [Capture.recast_erasing, erasePositions]

theorem Compiled.recast_erasing (c : Compiled) : c.recast .erasing = c.erasePositions := by
  show Compiled.mk c.root (c.nodes.map (·.recast .erasing)) (c.diagnostics.map (·.erasePosition))
    (c.closures.map (·.recast .erasing)) = _
  simp only [Node.recast_erasing, ClosureReport.recast_erasing, erasePositions]

namespace Compiler

variable {α : Type} (c : Compiler) (root : Address)

/-- Every primitive step goes along with taking positions out. -/
def erasing (l : Limits) : Simulation := .recast .erasing l .erased (fun _ _ => id) fun _ => id

/-- Steps that differ by positions are compiled to results that differ by positions. -/
theorem run_erased {build build' : Build α} (f : α → α)
    (related : (erasing c.limits).Relates () () (fun _ a b => f a = b) build build') :
    c.run root build' = (c.run root build).map fun done => (done.1.erasePositions, f done.2) := by
  have goes : c.run root build' = _ := c.run_recast .erasing f related
  rw [goes]
  cases c.run root build with
  | ok done => exact congrArg (fun compiled => Except.ok (compiled, f done.2)) done.1.recast_erasing
  | error fault =>
      exact congrArg (fun f => Except.error (ConstructFault.mk fault.construct f))
        fault.fault.readdress_id

theorem level_erased : c.level.Related (erasing c.limits) c.level :=
  Level.ofRoom_related Likeness.erased_closed (fun _ _ => .ofNone (fun _ => id) _ _) _ _ rfl

theorem expression_erased (source : Source) :
    c.expression root source.eraseNotes = (c.expression root source).map Compiled.erasePositions := by
  have ran : c.run root (c.level.expression root source.eraseNotes) = _ :=
    c.run_erased root id (Simulation.relates_mono (c.level_erased.expression trivial rfl rfl)
      fun _ _ _ _ _ => rfl)
  rw [expression, ran, expression]
  cases c.run root (c.level.expression root source) <;> rfl

theorem function_erased (clauses : List Source) : c.function root (clauses.map Source.eraseNotes) =
    (c.function root clauses).map Compiled.erasePositions := by
  have ran : c.run root (buildFunction root (clauses.map Source.eraseNotes) c.limits.maxDepth) = _ :=
    c.run_erased root id (Simulation.relates_mono
      (Simulation.relates_buildFunction Likeness.erased_closed
        (fun _ _ => .ofNone (fun _ => id) _ _) rfl trivial rfl
        (Likeness.Erased.forms root clauses)) fun _ _ _ _ _ => rfl)
  rw [function, ran, function]
  cases c.run root (buildFunction root clauses c.limits.maxDepth) <;> rfl

theorem pattern_erased (source : Source) : c.pattern root source.eraseNotes =
    (c.pattern root source).map CompiledPattern.erasePositions := by
  have ran : c.run root (c.level.pattern root source.eraseNotes []) = _ :=
    c.run_erased root (List.map (·.recast .erasing)) (Simulation.relates_mono
      (c.level_erased.pattern trivial rfl rfl .nil)
      fun _ _ _ _ found => List.forall₂_eq_eq_eq ▸ List.forall₂_map_left_iff.mpr found.2)
  rw [pattern, ran, pattern]
  cases c.run root (c.level.pattern root source []) with
  | error fault => rfl
  | ok done =>
      simp only [Binding.recast_erasing]
      rfl

theorem closure_erased (source : Source) : c.closure root source.eraseNotes =
    (c.closure root source).map ClosureReport.erasePositions := by
  rw [closure, closure, expression_erased]
  cases c.expression root source with
  | error fault => rfl
  | ok compiled =>
      have found : compiled.erasePositions.closure? root =
          (compiled.closure? root).map ClosureReport.erasePositions := by
        have same (r : ClosureReport) : r.erasePositions.closure = r.closure := rfl
        simp only [Compiled.closure?, Compiled.erasePositions, List.find?_map, Function.comp_def, same]
      refine congrArg Except.ok ?_
      dsimp only
      rw [found]
      cases compiled.closure? root <;> rfl

/-- Positions decide nothing. Compiled without notes, a construct gives the same nodes, diagnostics,
reports and bindings without positions, or the same fault. -/
theorem positions_inert (c : Compiler) (root : Address) :
    (∀ source : Source, c.expression root source.eraseNotes =
      (c.expression root source).map Compiled.erasePositions) ∧
    (∀ clauses : List Source, c.function root (clauses.map Source.eraseNotes) =
      (c.function root clauses).map Compiled.erasePositions) ∧
    (∀ source : Source, c.pattern root source.eraseNotes =
      (c.pattern root source).map CompiledPattern.erasePositions) ∧
    ∀ source : Source, c.closure root source.eraseNotes =
      (c.closure root source).map ClosureReport.erasePositions :=
  ⟨c.expression_erased root, c.function_erased root, c.pattern_erased root, c.closure_erased root⟩

end Compiler

end SyntaxGraph
