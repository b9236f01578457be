import SyntaxGraph.Proofs.Closures
import SyntaxGraph.Proofs.Reads

/-!
# Diagnostics and nodes of unknown shape

A tree that nothing recognises is no fault. A node of unknown shape stands in its place and a
diagnostic is noted, and the two say the same: where the tree stands, its tag, and its position in
the text. Stretches that tally keep nodes and diagnostics in step, so of a whole construct each is
found from the other. Nothing is built below such a node, since whatever lies inside of a node is
reached from it through its parts, and it has none.
-/

namespace SyntaxGraph

/-- A diagnostic tells where a node stands, the tag it bears, and its position in the text. -/
structure Diagnostic.Describes (d : Diagnostic) (n : Node) : Prop where
  site : n.address = d.site
  tag : n.property? "original_tag" = some (.text d.tag)
  line : n.property? "line" = d.position.map fun p => .ofNat p.line.toNat
  column : n.property? "column" = (d.position.bind (·.column)).map fun column => .ofNat column.toNat

/-- A node without the properties of a position gets those of the position that is noted. -/
theorem Node.property?_line_withPosition {n : Node} (position : Option Position)
    (unplaced : n.property? "line" = none) :
    (n.withPosition position).property? "line" = position.map fun p => .ofNat p.line.toNat := by
  cases position with
  | none => exact unplaced
  | some p =>
      cases column : p.column with
      | none => simp [withPosition, column]
      | some column' => simp [withPosition, column, property?_set_of_ne]

theorem Node.property?_column_withPosition {n : Node} (position : Option Position)
    (unplaced : n.property? "column" = none) :
    (n.withPosition position).property? "column" =
      (position.bind (·.column)).map fun column => .ofNat column.toNat := by
  cases position with
  | none => exact unplaced
  | some p =>
      cases column : p.column with
      | none => simp [withPosition, column, property?_set_of_ne, unplaced]
      | some column' => simp [withPosition, column]

theorem Diagnostic.describes_node (d : Diagnostic) : d.Describes d.node where
  site := d.node_address
  tag := by
    rw [node, Node.property?_withPosition _ _ (by decide) (by decide)]
    exact Node.property?_set_self _ _ _
  line := Node.property?_line_withPosition d.position (Node.property?_set_of_ne _ _ (by decide))
  column := Node.property?_column_withPosition d.position (Node.property?_set_of_ne _ _ (by decide))

/-- The nodes of unknown shape and the diagnostics of a construct correspond: each diagnostic
describes one of the nodes and each of the nodes is described by one diagnostic. Such a node has
no relations and nothing stands below it. No other node bears a tag. -/
structure Compiled.ReportsUnknown (compiled : Compiled) : Prop where
  kinds : ∀ d ∈ compiled.diagnostics, d.kind = .unrecognizedShape
  once : (compiled.diagnostics.map (·.site)).Nodup
  described : ∀ d ∈ compiled.diagnostics,
    ∃! n, n ∈ compiled.ofKind .unknownExpression ∧ d.Describes n
  noted : ∀ n ∈ compiled.ofKind .unknownExpression,
    ∃! d, d ∈ compiled.diagnostics ∧ d.Describes n
  leaf : ∀ n ∈ compiled.ofKind .unknownExpression, n.relations = ∅ ∧
    ∀ m ∈ compiled.nodes, m.address.isWithin n.address = true → m = n
  untagged : ∀ n ∈ compiled.nodes, n.kind ≠ .unknownExpression → n.property? "original_tag" = none

/-- Where whatever lies inside of a node is reached through its parts, nothing lies inside of a
node without parts. -/
theorem Reaching.alone {nodes : List Node} (reaching : Reaching nodes)
    (distinct : (nodes.map (·.address)).Nodup) {n m : Node} (member : n ∈ nodes)
    (leaf : n.relations = ∅) (inside : m ∈ nodes) (within : m.address.isWithin n.address = true) :
    m = n := by
  apply List.inj_on_of_nodup_map distinct inside member
  refine reaching (· = n.address) ?_ n member m inside within rfl
  intro x standing here link inLinks
  obtain rfl := List.inj_on_of_nodup_map distinct standing member here
  rw [Node.links, leaf] at inLinks
  exact absurd inLinks List.not_mem_nil

namespace Compiler

variable {c : Compiler} {k : Construct} {compiled : Compiled}

/-- The nodes and diagnostics of a construct go together. -/
theorem construct_diagnosed (h : c.construct k = .ok compiled) :
    ∃ nodes, compiled.nodes.Perm nodes ∧ Diagnosed nodes compiled.diagnostics ∧ Reaching nodes := by
  obtain ⟨t, success, rfl⟩ := construct_eq_ok h
  obtain ⟨gain, course⟩ := construct_built success
  obtain ⟨nodes, -, all, -, -, -, diagnostics, noted, diagnosed⟩ := construct_tallied success
  have built : t.nodes.toList = gain.nodes := course.nodes_eq
  have same : nodes = gain.nodes := all.symm.trans built
  refine ⟨gain.nodes, built ▸ sortNodes_perm t.nodes.toList, ?_, course.reaching⟩
  rw [← same]
  exact (show (finish k.root t).diagnostics = diagnostics from noted) ▸ diagnosed

/-- What was not recognised is reported exactly: diagnostics and nodes of unknown shape are one to
one, those nodes are leaves, and no other node bears a tag. -/
theorem construct_reportsUnknown (h : c.construct k = .ok compiled) : compiled.ReportsUnknown := by
  obtain ⟨distinct, -⟩ := construct_addresses h
  obtain ⟨nodes, perm, diagnosed, reaching⟩ := construct_diagnosed h
  have distinct' : (nodes.map (·.address)).Nodup := (perm.map _).nodup_iff.mp distinct
  have unknown : ∀ {n}, n ∈ compiled.ofKind .unknownExpression ↔
      ∃ d ∈ compiled.diagnostics, d.node = n := by
    intro n
    rw [← List.mem_map, ← diagnosed.unknown]
    exact (perm.filter _).mem_iff
  have standing : ∀ {n}, n ∈ compiled.ofKind .unknownExpression → n ∈ compiled.nodes :=
    fun member => List.mem_of_mem_filter member
  have once : (compiled.diagnostics.map (·.site)).Nodup := by
    have some := (List.filter_sublist (p := (·.kind == .unknownExpression)) (l := nodes)).map (·.address)
    rw [diagnosed.unknown, List.map_map] at some
    have sites : compiled.diagnostics.map ((·.address) ∘ (·.node)) = compiled.diagnostics.map (·.site) :=
      List.map_congr_left fun d _ => d.node_address
    exact sites ▸ some.nodup distinct'
  refine ⟨diagnosed.kinds, once, ?_, ?_, ?_, ?_⟩
  · intro d member
    refine ⟨d.node, ⟨unknown.mpr ⟨d, member, rfl⟩, d.describes_node⟩, ?_⟩
    rintro n ⟨among, describes⟩
    exact List.inj_on_of_nodup_map distinct (standing among)
      (standing (unknown.mpr ⟨d, member, rfl⟩)) (describes.site.trans d.node_address.symm)
  · intro n member
    obtain ⟨d, among, rfl⟩ := unknown.mp member
    refine ⟨d, ⟨among, d.describes_node⟩, ?_⟩
    rintro e ⟨among', describes⟩
    exact List.inj_on_of_nodup_map once among' among (describes.site.symm.trans d.node_address)
  · intro n member
    obtain ⟨d, -, rfl⟩ := unknown.mp member
    refine ⟨d.node_relations, fun m inside within => ?_⟩
    exact reaching.alone distinct' (perm.mem_iff.mp (standing member)) d.node_relations
      (perm.mem_iff.mp inside) within
  · intro n member known
    exact diagnosed.untagged n (perm.mem_iff.mp member) known

end Compiler

/-- A map with an entry that is no pair, an arrow out of place, and a match of a module name that is
none against an attribute without a name. -/
def unknownThroughout : Construct :=
  .expression ⟨"e"⟩ (.block [
    .form "%{}" .empty [.integer 1],
    (Source.form "<-" .empty [.symbol "x" .empty]).place 3 7,
    .binary "=" (.form "@" .empty [.integer 1]) (.form "__aliases__" .empty [.integer 1])])

/-- All four have a node and a diagnostic; what is written below the arrow is not built. -/
theorem Compiler.construct_reportsUnknown_unknownThroughout :
    ∃ compiled, Compiler.construct ⟨.standard, []⟩ unknownThroughout = .ok compiled ∧
      compiled.diagnostics.map (fun d => (d.site.text, d.tag, d.position)) =
        [("e/statement/0/entry/0", "entry", none), ("e/statement/1", "<-", some ⟨3, some 7⟩),
          ("e/statement/2/right", "__aliases__", none), ("e/statement/2/left", "@", none)] ∧
      compiled.ReportsUnknown := by
  obtain ⟨compiled, success, listed⟩ : ∃ compiled,
      Compiler.construct ⟨.standard, []⟩ unknownThroughout = .ok compiled ∧
      compiled.diagnostics.map (fun d => (d.site.text, d.tag, d.position)) =
        [("e/statement/0/entry/0", "entry", none), ("e/statement/1", "<-", some ⟨3, some 7⟩),
          ("e/statement/2/right", "__aliases__", none), ("e/statement/2/left", "@", none)] :=
    ⟨_, rfl, rfl⟩
  exact ⟨compiled, success, listed, Compiler.construct_reportsUnknown success⟩

end SyntaxGraph
