import Mathlib.Data.List.Pairwise
import SyntaxGraph.Proofs.Closures
import SyntaxGraph.Proofs.Indexes

/-!
# Constructs of a batch keep apart

Every construct of a batch is compiled in a session of its own, so a batch is what its
constructs come to one by one. All nodes of a construct lie within its root, and so do the
targets of their links. If no root lies within another, the nodes of a batch therefore have
different addresses: put into one graph, none of them replaces another, and every link still
finds the node it was made for.
-/

namespace SyntaxGraph

instance (a b : Address) : Decidable (a.Apart b) :=
  inferInstanceAs (Decidable (a.isWithin b = false ∧ b.isWithin a = false))

namespace Graph

variable {nodes : List Node}

/-- Of nodes with different addresses none replaces another. -/
theorem all_ofNodes_perm (distinct : (nodes.map (·.address)).Nodup) :
    (ofNodes nodes).all.Perm nodes := by
  have tracks := ofNodes_tracks nodes
  have keyed : ∀ entry ∈ (standing nodes).entries, entry.2.address = entry.1 :=
    fun _ member => standing_keyed member
  rw [tracks.all_eq]
  have once : (standing nodes).values.Nodup := by
    refine (Tracks.values_rising keyed).imp ?_
    rintro a b less rfl
    simp at less
  apply (List.perm_ext_iff_of_nodup once distinct.of_map).mpr
  intro n
  constructor
  · intro member
    obtain ⟨entry, inEntries, rfl⟩ := List.mem_map.mp member
    exact ((mem_standing_of_nodup distinct).mp inEntries).1
  · intro member
    exact List.mem_map.mpr ⟨(n.address, n), (mem_standing_of_nodup distinct).mpr ⟨member, rfl⟩, rfl⟩

theorem size_ofNodes (distinct : (nodes.map (·.address)).Nodup) :
    (ofNodes nodes).size = nodes.length := by
  have refines := (ofNodes_tracks nodes).refines fun _ member => standing_keyed member
  calc (ofNodes nodes).size = (standing nodes).values.length := by
        rw [refines.size, OrderedMap.values, List.length_map, OrderedMap.size]
    _ = nodes.length := by rw [← refines.all, (all_ofNodes_perm distinct).length_eq]

/-- Links that lead to given nodes lead somewhere in the graph of these nodes. -/
theorem dangling_ofNodes (closed : ∀ n ∈ nodes, ∀ link ∈ n.links, ∃ m ∈ nodes, m.address = link.2)
    (distinct : (nodes.map (·.address)).Nodup) : (ofNodes nodes).dangling = [] := by
  apply List.flatMap_eq_nil_iff.mpr
  intro n member
  rw [List.map_eq_nil_iff, List.filter_eq_nil_iff]
  intro link inLinks missing
  obtain ⟨m, target, here⟩ :=
    closed n ((all_ofNodes_perm distinct).mem_iff.mp member) link inLinks
  have found : (ofNodes nodes).get? link.2 = some m :=
    ((ofNodes_tracks nodes).nodes link.2).trans
      (((standing nodes).get?_eq_some_iff link.2 m).mpr
        ((mem_standing_of_nodup distinct).mpr ⟨target, here⟩))
  rw [found] at missing
  cases missing

end Graph

def Batch.nodes (b : Batch) : List Node := b.built.flatMap (·.nodes)

theorem Batch.totalNodes_eq (b : Batch) : b.totalNodes = b.nodes.length := by
  rw [totalNodes, nodes, List.length_flatMap, List.sum_eq_foldl, List.foldl_map]

namespace Compiler

variable {c : Compiler} {k : Construct} {ks : List Construct} {compiled : Compiled}

def fault? (c : Compiler) (k : Construct) : Option ConstructFault :=
  match c.construct k with
  | .ok _ => none
  | .error fault => some fault

/-- A batch is what its constructs come to one by one. -/
theorem batch_eq (c : Compiler) (ks : List Construct) :
    c.batch ks = ⟨ks.filterMap fun k => (c.construct k).toOption, ks.filterMap c.fault?⟩ := by
  induction ks with
  | nil => rfl
  | cons k ks ih =>
      rw [batch, ih]
      cases result : c.construct k <;> simp [fault?, result, Except.toOption]

theorem toOption_eq_some {result : Except ConstructFault Compiled} :
    result.toOption = some compiled ↔ result = .ok compiled := by
  cases result <;> simp [Except.toOption]

theorem mem_nodes_batch {n : Node} :
    n ∈ (c.batch ks).nodes ↔ ∃ k ∈ ks, ∃ compiled, c.construct k = .ok compiled ∧ n ∈ compiled.nodes := by
  simp only [Batch.nodes, batch_eq, List.mem_flatMap, List.mem_filterMap, toOption_eq_some]
  constructor
  · rintro ⟨compiled, ⟨k, member, success⟩, inNodes⟩
    exact ⟨k, member, compiled, success, inNodes⟩
  · rintro ⟨k, member, compiled, success, inNodes⟩
    exact ⟨compiled, ⟨k, member, success⟩, inNodes⟩

theorem fault?_eq_some {fault : ConstructFault} :
    c.fault? k = some fault ↔ c.construct k = .error fault := by
  unfold fault?
  cases c.construct k <;> simp

/-- A fault names the construct it dropped. -/
theorem run_error_construct {α : Type} {root : Address} {build : Build α} {fault : ConstructFault}
    (h : c.run root build = .error fault) : fault.construct = root := by
  rw [run] at h
  split at h
  · cases h
  · obtain rfl := Except.error.inj h
    rfl

theorem except_map_eq_error {ε α β : Type} {f : α → β} {result : Except ε α} {fault : ε}
    (h : result.map f = .error fault) : result = .error fault := by
  cases result with
  | ok value => cases h
  | error other => exact congrArg _ (Except.error.inj h)

theorem construct_error_construct {fault : ConstructFault} (h : c.construct k = .error fault) :
    fault.construct = k.root := by
  cases k with
  | expression root source => exact run_error_construct (except_map_eq_error h)
  | function root clauses => exact run_error_construct (except_map_eq_error h)
  | pattern root source =>
      exact run_error_construct (except_map_eq_error (except_map_eq_error h))

/-- The nodes of a construct lie within its root. -/
theorem construct_nodes_within (h : c.construct k = .ok compiled) {n : Node}
    (member : n ∈ compiled.nodes) : n.address.isWithin k.root = true := by
  obtain ⟨t, success, rfl⟩ := construct_eq_ok h
  obtain ⟨gain, course⟩ := construct_built success
  have all : t.nodes.toList = gain.nodes := course.nodes_eq
  obtain ⟨root, isRoot, within⟩ :=
    course.forest.within n (all ▸ (sortNodes_perm t.nodes.toList).mem_iff.mp member)
  rwa [List.mem_singleton.mp isRoot] at within

/-- The links of a construct lead to nodes of it. -/
theorem construct_links_standing (h : c.construct k = .ok compiled) {n : Node}
    (member : n ∈ compiled.nodes) {link : Role × Address} (inLinks : link ∈ n.links) :
    ∃ m ∈ compiled.nodes, m.address = link.2 := by
  obtain ⟨t, success, rfl⟩ := construct_eq_ok h
  obtain ⟨gain, course⟩ := construct_built success
  have all : t.nodes.toList = gain.nodes := course.nodes_eq
  have perm := sortNodes_perm t.nodes.toList
  obtain ⟨m, standing, here⟩ := List.mem_map.mp
    (course.link_mem c.session_settled (all ▸ perm.mem_iff.mp member) inLinks)
  exact ⟨m, perm.mem_iff.mpr standing, here⟩

/-- Constructs at roots that are apart share no address. -/
theorem batch_addresses_nodup (apart : ks.Pairwise fun k k' => k.root.Apart k'.root) :
    ((c.batch ks).nodes.map (·.address)).Nodup := by
  rw [Batch.nodes, batch_eq, List.map_flatMap, List.nodup_flatMap]
  constructor
  · intro compiled member
    obtain ⟨k, -, success⟩ := List.mem_filterMap.mp member
    exact (construct_addresses (toOption_eq_some.mp success)).1
  · refine List.pairwise_filterMap.mpr (apart.imp ?_)
    intro k k' apart compiled success compiled' success' address first second
    obtain ⟨n, member, rfl⟩ := List.mem_map.mp first
    obtain ⟨m, member', same⟩ := List.mem_map.mp second
    exact apart.ne_of_isWithin (construct_nodes_within (toOption_eq_some.mp success) member)
      (construct_nodes_within (toOption_eq_some.mp success') member') same.symm

end Compiler

/-- A batch merges into one graph in which nothing is lost and nothing is left of what failed. -/
structure Compiler.Merges (c : Compiler) (ks : List Construct) : Prop where
  /-- Nodes of different constructs, and of one construct, have different addresses. -/
  distinct : ((c.batch ks).nodes.map (·.address)).Nodup
  all : (Graph.ofNodes (c.batch ks).nodes).all.Perm (c.batch ks).nodes
  size : (Graph.ofNodes (c.batch ks).nodes).size = (c.batch ks).totalNodes
  dangling : (Graph.ofNodes (c.batch ks).nodes).dangling = []
  /-- What failed has left no node. -/
  dropped : ∀ fault ∈ (c.batch ks).failed, ∀ n ∈ (Graph.ofNodes (c.batch ks).nodes).all,
    n.address.isWithin fault.construct = false
  /-- Every node comes from a construct, and does not point out of it. -/
  enclosed : ∀ n ∈ (Graph.ofNodes (c.batch ks).nodes).all, ∃ k ∈ ks, ∃ compiled,
    c.construct k = .ok compiled ∧ n ∈ compiled.nodes ∧ n.address.isWithin k.root = true ∧
      ∀ link ∈ n.links, link.2.isWithin k.root = true

/-- A batch gives every construct its own result, in order; what failed is named by its root. If no
root lies within another, what was compiled merges without losses. -/
theorem Compiler.batch_keepsApart (c : Compiler) (ks : List Construct) :
    (c.batch ks).built = ks.filterMap (fun k => (c.construct k).toOption) ∧
    (c.batch ks).failed = ks.filterMap c.fault? ∧
    (∀ k ∈ ks, ∀ fault, c.construct k = .error fault → fault.construct = k.root) ∧
    (ks.Pairwise (fun k k' => k.root.Apart k'.root) → c.Merges ks) := by
  refine ⟨by rw [batch_eq], by rw [batch_eq], fun k _ fault => construct_error_construct, ?_⟩
  intro apart
  have distinct : ((c.batch ks).nodes.map (·.address)).Nodup := batch_addresses_nodup apart
  have perm := Graph.all_ofNodes_perm distinct
  refine ⟨distinct, perm, ?_, ?_, ?_, ?_⟩
  · rw [Graph.size_ofNodes distinct, Batch.totalNodes_eq]
  · apply Graph.dangling_ofNodes _ distinct
    intro n member link inLinks
    obtain ⟨k, inBatch, compiled, success, inNodes⟩ := mem_nodes_batch.mp member
    obtain ⟨m, target, here⟩ := construct_links_standing success inNodes inLinks
    exact ⟨m, mem_nodes_batch.mpr ⟨k, inBatch, compiled, success, target⟩, here⟩
  · intro fault failed n member
    rw [batch_eq] at failed
    obtain ⟨k, inBatch, failure⟩ := List.mem_filterMap.mp failed
    replace failure := fault?_eq_some.mp failure
    obtain ⟨k', inBatch', compiled, success, inNodes⟩ := mem_nodes_batch.mp (perm.mem_iff.mp member)
    have other : k' ≠ k := by
      rintro rfl
      cases success.symm.trans failure
    rw [construct_error_construct failure]
    have : Std.Symm fun k k' : Construct => k.root.Apart k'.root := ⟨fun _ _ => Address.Apart.symm⟩
    exact (apart.forall inBatch' inBatch other).not_isWithin (construct_nodes_within success inNodes)
  · intro n member
    obtain ⟨k, inBatch, compiled, success, inNodes⟩ := mem_nodes_batch.mp (perm.mem_iff.mp member)
    refine ⟨k, inBatch, compiled, success, inNodes, construct_nodes_within success inNodes, ?_⟩
    intro link inLinks
    obtain ⟨m, target, here⟩ := construct_links_standing success inNodes inLinks
    exact here ▸ construct_nodes_within success target

/-- A function without clauses between two constructs that can be compiled. The text of the first
root starts that of the second. -/
def mixedBatch : List Construct :=
  [.expression ⟨"expr/1"⟩ (.closure [.clause [.symbol "y" .empty]
      (.binary "+" (.symbol "y" .empty) (.symbol "y" .empty))]),
    .function ⟨"expr/10"⟩ [],
    .pattern ⟨"pattern/1"⟩ (.list [.symbol "x" .empty, .integer 1])]

theorem Compiler.batch_keepsApart_mixedBatch :
    mixedBatch.Pairwise (fun k k' => k.root.Apart k'.root) ∧
      (Compiler.batch ⟨.standard, []⟩ mixedBatch).built.map (·.root) = [⟨"expr/1"⟩, ⟨"pattern/1"⟩] ∧
      Construct.function ⟨"expr/10"⟩ [] ∈ mixedBatch ∧
      (∃ fault, Compiler.construct ⟨.standard, []⟩ (.function ⟨"expr/10"⟩ []) = .error fault ∧
        fault.construct = ⟨"expr/10"⟩) ∧
      Compiler.Merges ⟨.standard, []⟩ mixedBatch := by
  have apart : mixedBatch.Pairwise (fun k k' => k.root.Apart k'.root) := by decide
  have member : Construct.function ⟨"expr/10"⟩ [] ∈ mixedBatch := .tail _ (.head _)
  obtain ⟨-, -, named, merges⟩ := Compiler.batch_keepsApart ⟨.standard, []⟩ mixedBatch
  exact ⟨apart, rfl, member, ⟨_, rfl, named _ member _ rfl⟩, merges apart⟩

end SyntaxGraph
