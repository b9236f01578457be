import SyntaxGraph.Proofs.Provenance
import SyntaxGraph.Proofs.Soundness

/-!
# A compiled construct is a tree addressed by paths

Parts are emitted before the node that points at them, at addresses below its own, and
every part has a slot of its own. So the nodes of a stretch make up one tree per root: the
structural targets, together with the roots, are exactly the addresses of the nodes. The
links that are no parts lead from captures to reads and patterns, which all stand.
-/

namespace SyntaxGraph

/-- The links of nodes to their parts, each with the node it starts from. -/
def partLinks (nodes : List Node) : List (Node × Role × Address) :=
  nodes.flatMap fun node => (node.links.filter fun link => link.1.isStructural).map fun link => (node, link)

/-- Nodes in the order of their addresses that make up one tree of paths. -/
structure PathTree (root : Address) (nodes : List Node) : Prop where
  rising : nodes.Pairwise fun a b => compare a.address b.address = .lt
  within : ∀ node ∈ nodes, node.address.isWithin root = true
  rooted : ∃ node ∈ nodes, node.address = root
  /-- No link leads nowhere. -/
  closed : ∀ node ∈ nodes, ∀ link ∈ node.links, ∃ target ∈ nodes, target.address = link.2
  /-- Every node but the root is a part of exactly one other, at one step below it. -/
  owned : ∀ node ∈ nodes, node.address ≠ root → ∃ owner ∈ nodes, ∃ role,
    ((partLinks nodes).filter fun part => part.2.2 = node.address) = [(owner, role, node.address)] ∧
      (node.address = owner.address.child role.label ∨
        ∃ index, node.address = owner.address.indexed role.label index)

def partTargets (nodes : List Node) : List Address := (partLinks nodes).map fun part => part.2.2

theorem partLinks_append (nodes more : List Node) :
    partLinks (nodes ++ more) = partLinks nodes ++ partLinks more := by
  simp [partLinks]

theorem partTargets_append (nodes more : List Node) :
    partTargets (nodes ++ more) = partTargets nodes ++ partTargets more := by
  simp [partTargets, partLinks_append]

theorem mem_partLinks {nodes : List Node} {part : Node × Role × Address} :
    part ∈ partLinks nodes ↔
      part.1 ∈ nodes ∧ part.2 ∈ part.1.links ∧ part.2.1.isStructural = true := by
  obtain ⟨owner, link⟩ := part
  simp [partLinks]

/-- A finished node has its slots as parts, and nothing else. -/
theorem Node.Holds.partTargets_perm {node : Node} {slots : List Slot} (holds : node.Holds slots) :
    (partTargets [node]).Perm (slots.map node.address.at) := by
  have filtered := (holds.links.filter fun link => link.1.isStructural).map (·.2)
  have all : (slots.map fun slot => (slot.1, node.address.at slot)).filter
      (fun link => link.1.isStructural) = slots.map fun slot => (slot.1, node.address.at slot) := by
    refine List.filter_eq_self.mpr fun link member => ?_
    obtain ⟨slot, hslot, rfl⟩ := List.mem_map.mp member
    exact holds.structural slot hslot
  rw [all, List.map_map] at filtered
  have targets : partTargets [node] =
      (node.links.filter fun link => link.1.isStructural).map (·.2) := by
    simp [partTargets, partLinks]
  rw [targets]
  exact filtered

theorem Node.Holds.target_of_link {node : Node} {slots : List Slot} (holds : node.Holds slots)
    {link : Role × Address} (member : link ∈ node.links) :
    ∃ slot ∈ slots, slot.1 = link.1 ∧ link.2 = node.address.at slot := by
  obtain ⟨slot, hslot, rfl⟩ := List.mem_map.mp (holds.links.mem_iff.mp member)
  exact ⟨slot, hslot, rfl, rfl⟩

/-- The nodes of a stretch: one tree per root. -/
structure Forest (roots : List Address) (nodes : List Node) : Prop where
  parts : (partTargets nodes ++ roots).Perm (nodes.map (·.address))
  within : ∀ node ∈ nodes, ∃ root ∈ roots, node.address.isWithin root = true
  distinct : (nodes.map (·.address)).Nodup
  steps : ∀ node ∈ nodes, ∀ link ∈ node.links, link.1.isStructural = true →
    ∃ slot : Slot, slot.1 = link.1 ∧ link.2 = node.address.at slot

namespace Forest

variable {roots more : List Address} {nodes others : List Node}

theorem nil : Forest [] [] :=
  ⟨.refl _, fun _ member => (nomatch member), .nil, fun _ member => (nomatch member)⟩

theorem root_mem (forest : Forest roots nodes) {root : Address} (member : root ∈ roots) :
    root ∈ nodes.map (·.address) :=
  forest.parts.mem_iff.mp (List.mem_append_right _ member)

theorem append (first : Forest roots nodes) (second : Forest more others)
    (apart : ∀ x ∈ roots, ∀ y ∈ more, x.Apart y) : Forest (roots ++ more) (nodes ++ others) := by
  refine ⟨?_, ?_, ?_, ?_⟩
  · rw [partTargets_append, List.map_append]
    refine List.Perm.trans ?_ (first.parts.append second.parts)
    simp only [List.append_assoc]
    exact (List.perm_append_comm_assoc _ _ _).append_left _
  · intro node member
    rcases List.mem_append.mp member with left | right
    · obtain ⟨root, hroot, within⟩ := first.within node left
      exact ⟨root, List.mem_append_left _ hroot, within⟩
    · obtain ⟨root, hroot, within⟩ := second.within node right
      exact ⟨root, List.mem_append_right _ hroot, within⟩
  · rw [List.map_append]
    refine List.nodup_append.mpr ⟨first.distinct, second.distinct, ?_⟩
    intro a ha b hb
    obtain ⟨node, left, rfl⟩ := List.mem_map.mp ha
    obtain ⟨other, right, rfl⟩ := List.mem_map.mp hb
    obtain ⟨x, hx, inX⟩ := first.within node left
    obtain ⟨y, hy, inY⟩ := second.within other right
    exact (apart x hx y hy).ne_of_isWithin inX inY
  · intro node member
    rcases List.mem_append.mp member with left | right
    · exact first.steps node left
    · exact second.steps node right

/-- A node over the trees of its slots. -/
theorem node {slots : List Slot} {node : Node} (parts : Forest (slots.map node.address.at) nodes)
    (holds : node.Holds slots) : Forest [node.address] (nodes ++ [node]) := by
  have below : ∀ other ∈ nodes, ∃ slot, other.address.isWithin (node.address.at slot) = true := by
    intro other member
    obtain ⟨root, hroot, within⟩ := parts.within other member
    obtain ⟨slot, -, rfl⟩ := List.mem_map.mp hroot
    exact ⟨slot, within⟩
  refine ⟨?_, ?_, ?_, ?_⟩
  · rw [partTargets_append, List.map_append]
    exact ((holds.partTargets_perm.append_left _).trans parts.parts).append_right _
  · intro other member
    rcases List.mem_append.mp member with old | new
    · obtain ⟨slot, within⟩ := below other old
      exact ⟨_, List.mem_singleton_self _, Address.isWithin_trans within (Address.at_isWithin _ slot)⟩
    · rw [List.mem_singleton.mp new]
      exact ⟨_, List.mem_singleton_self _, Address.isWithin_self _⟩
  · rw [List.map_append]
    refine List.nodup_append.mpr ⟨parts.distinct, by simp, ?_⟩
    intro a ha b hb same
    obtain ⟨other, member, rfl⟩ := List.mem_map.mp ha
    obtain ⟨slot, within⟩ := below other member
    rw [List.map_singleton, List.mem_singleton] at hb
    rw [same, hb] at within
    exact Bool.false_ne_true ((Address.not_isWithin_at _ slot).symm.trans within)
  · intro other member link inLinks structural
    rcases List.mem_append.mp member with old | new
    · exact parts.steps other old link inLinks structural
    · obtain rfl := List.mem_singleton.mp new
      obtain ⟨slot, -, role, target⟩ := holds.target_of_link inLinks
      exact ⟨slot, role, target⟩

/-- Nodes without parts, apart from one another. -/
theorem leaves (apart : (nodes.map (·.address)).Pairwise Address.Apart)
    (single : ∀ node ∈ nodes, ∀ link ∈ node.links, link.1.isStructural = false) :
    Forest (nodes.map (·.address)) nodes := by
  have none : partLinks nodes = [] := by
    refine List.eq_nil_iff_forall_not_mem.mpr fun part member => ?_
    obtain ⟨owner, inLinks, structural⟩ := mem_partLinks.mp member
    rw [single _ owner _ inLinks] at structural
    cases structural
  refine ⟨?_, ?_, ?_, ?_⟩
  · rw [partTargets, none]
    exact .refl _
  · intro node member
    exact ⟨node.address, List.mem_map.mpr ⟨node, member, rfl⟩, Address.isWithin_self _⟩
  · refine apart.imp fun {a b} apart same => ?_
    exact apart.ne_of_isWithin (Address.isWithin_self a) (Address.isWithin_self b) same
  · intro node member link inLinks structural
    rw [single node member link inLinks] at structural
    cases structural

end Forest

/-- The nodes of the captures stand side by side below their closure. -/
theorem ClosureReport.captureNodes_forest (report : ClosureReport) :
    Forest ((Slot.numbered .captures 0 report.captures.length).map report.closure.at)
      report.captureNodes := by
  have leaves : Forest (report.captureNodes.map (·.address)) report.captureNodes := .leaves ?_ ?_
  · rwa [captureNodes_addresses] at leaves
  · rw [captureNodes_addresses]
    exact (Slot.numbered_apart _ _ _).map _ fun p q apart => report.closure.at_apart apart
  · intro node member link inLinks
    obtain ⟨index, capture, -, rfl⟩ := mem_captureNodes member
    rcases report.captureNode_links index capture inLinks with ⟨role, -⟩ | ⟨role, -⟩
    · rw [role]
      rfl
    · rw [role]
      rfl

namespace Course

variable {limits : Limits} {roots : List Address} {gain : Gain} {s t : Session}

/-- Every stretch builds one tree per root. -/
theorem forest (course : Course limits roots gain s t) : Forest roots gain.nodes := by
  induction course with
  | next _ _ apart first second => exact first.append second apart
  | node _ holds ih => exact ih.node holds
  | @symbol _ _ node _ leaf _ _ =>
      have none : Forest (([] : List Slot).map node.address.at) [] := .nil
      exact none.node leaf
  | size _ _ _ ih => simpa [Gain.ofMoments] using ih
  | framed _ ih => exact ih
  | logged _ ih => exact ih
  | counted _ ih => exact ih
  | @closure slots node g s t opened others report inner top reported holds ih =>
      have same : report.closure = node.address :=
        (Tracker.report_closure reported).trans (inner.opened_follows top).closure
      have captured := report.captureNodes_forest
      rw [same] at captured
      have both := ih.append captured (by
        intro x hx y hy
        obtain ⟨p, hp, rfl⟩ := List.mem_map.mp hx
        obtain ⟨q, hq, rfl⟩ := List.mem_map.mp hy
        exact node.address.at_apart ((List.pairwise_append.mp holds.apart).2.2 p hp q hq))
      rw [← List.map_append] at both
      have whole := both.node holds
      rwa [List.append_assoc] at whole
  | _ => exact Forest.nil

/-- Whatever reads during a stretch stands at its end. -/
theorem reference_mem (course : Course limits roots gain s t) {m : Moment}
    (member : m ∈ gain.moments) {site : Address} (reads : m.reference? = some site) :
    site ∈ gain.nodes.map (·.address) := by
  induction course with
  | next _ _ _ first second =>
      rw [Gain.append_nodes, List.map_append]
      rcases List.mem_append.mp member with earlier | later
      · exact List.mem_append_left _ (first earlier)
      · exact List.mem_append_right _ (second later)
  | node _ _ ih =>
      rw [Gain.append_moments, show (Gain.ofNode _).moments = [] from rfl, List.append_nil] at member
      rw [Gain.append_nodes, List.map_append]
      exact List.mem_append_left _ (ih member)
  | symbol _ _ _ =>
      obtain rfl := List.mem_singleton.mp member
      obtain rfl := Option.some.inj reads
      exact List.mem_singleton_self _
  | size parts present _ ih =>
      rw [Gain.append_nodes, show (Gain.ofMoments _).nodes = [] from rfl, List.append_nil]
      rcases List.mem_append.mp member with earlier | last
      · exact ih earlier
      · obtain rfl := List.mem_singleton.mp last
        obtain rfl := Option.some.inj reads
        exact parts.forest.root_mem present
  | @bind s bound binding introduced =>
      cases bound with
      | none => exact (nomatch member)
      | some names =>
          obtain rfl := List.mem_singleton.mp member
          exact (nomatch reads)
  | framed _ ih => exact ih member
  | logged _ ih => exact ih member
  | counted _ ih => exact ih member
  | closure _ _ _ _ ih =>
      rw [Gain.append_moments, show (Gain.ofReport _ _).moments = [] from rfl,
        List.append_nil] at member
      rw [Gain.append_nodes, List.map_append]
      exact List.mem_append_left _ (ih member)
  | _ => exact (nomatch member)

/-- A capture points at nodes that stand: at reads of its closure and at a pattern. -/
theorem captureNode_closed {site : Address} {slots : List Slot} {opened : OpenClosure}
    {others : List OpenClosure} {report : ClosureReport}
    (inner : Course limits (slots.map site.at) gain (s.openClosure site) t)
    (top : t.closures = opened :: others)
    (reported : opened.tracker.report t.scopes opened.enclosing limits = .ok report)
    (settled : t.Settled) {node : Node} (member : node ∈ report.captureNodes)
    {link : Role × Address} (inLinks : link ∈ node.links) :
    link.2 ∈ t.nodes.toList.map (·.address) := by
  obtain ⟨index, capture, inReport, rfl⟩ := ClosureReport.mem_captureNodes member
  have records := Tracker.report_records reported inReport
  rcases report.captureNode_links index capture inLinks with ⟨-, read⟩ | ⟨-, supply, supplied, bound⟩
  · rw [records.references, (inner.opened_follows top).use] at read
    obtain ⟨m, inMoments, reads, -⟩ := Tracker.moment_of_mem_references read
    rw [inner.nodes_eq, List.map_append]
    exact List.mem_append_right _ (inner.reference_mem inMoments reads)
  · have answer := records.supplied
    rw [supplied] at answer
    obtain ⟨frame, binding, present, found, node⟩ :=
      Scopes.supply_bound (Tracker.report_cases reported).2.1 answer
    obtain ⟨pattern, standing, address, -⟩ :=
      (settled.origin present found).2 link.2 (node.trans bound)
    rw [node, bound] at address
    rw [Option.some.inj address]
    exact List.mem_map.mpr ⟨pattern, standing, rfl⟩

/-- The slots of a node lead to what has been built for it. -/
theorem slot_mem {node : Node} {slots : List Slot}
    (parts : Course limits (slots.map node.address.at) gain s t) (holds : node.Holds slots)
    {link : Role × Address} (inLinks : link ∈ node.links) :
    link.2 ∈ t.nodes.toList.map (·.address) := by
  obtain ⟨slot, filled, -, target⟩ := holds.target_of_link inLinks
  rw [target, parts.nodes_eq, List.map_append]
  exact List.mem_append_right _ (parts.forest.root_mem (List.mem_map.mpr ⟨slot, filled, rfl⟩))

/-- Every link of a stretch leads to a node that stands at its end. -/
theorem link_mem (course : Course limits roots gain s t) (settled : s.Settled) {node : Node}
    (member : node ∈ gain.nodes) {link : Role × Address} (inLinks : link ∈ node.links) :
    link.2 ∈ t.nodes.toList.map (·.address) := by
  induction course with
  | next first second _ ih ih' =>
      rcases List.mem_append.mp member with earlier | later
      · rw [second.nodes_eq, List.map_append]
        exact List.mem_append_left _ (ih settled earlier)
      · exact ih' (first.settled settled) later
  | node parts holds ih =>
      rw [Session.emit_nodes, List.map_append]
      refine List.mem_append_left _ ?_
      rcases List.mem_append.mp member with old | new
      · exact ih settled old
      · obtain rfl := List.mem_singleton.mp new
        exact parts.slot_mem holds inLinks
  | symbol leaf _ _ =>
      obtain rfl := List.mem_singleton.mp member
      obtain ⟨slot, none, -⟩ := leaf.target_of_link inLinks
      exact (nomatch none)
  | size parts present _ ih =>
      rw [Gain.append_nodes, show (Gain.ofMoments _).nodes = [] from rfl, List.append_nil] at member
      exact ih settled member
  | framed _ ih => exact ih (settled.enter _) member
  | logged _ ih => exact ih (settled.congr rfl (List.Subset.refl _)) member
  | counted _ ih => exact ih (settled.congr rfl (List.Subset.refl _)) member
  | @closure slots node g s t opened others report inner top reported holds ih =>
      rw [Session.emit_nodes, Session.close_nodes, List.map_append, List.map_append]
      refine List.mem_append_left _ ?_
      rcases List.mem_append.mp member with old | new
      · exact List.mem_append_left _ (ih (settled.openClosure _) old)
      rcases List.mem_append.mp new with captured | last
      · exact List.mem_append_left _ (inner.captureNode_closed top reported
          (inner.settled (settled.openClosure _)) captured inLinks)
      · obtain rfl := List.mem_singleton.mp last
        obtain ⟨slot, filled, -, target⟩ := holds.target_of_link inLinks
        rw [target]
        rcases List.mem_append.mp filled with part | capture
        · rw [inner.nodes_eq, List.map_append]
          exact List.mem_append_left _ (List.mem_append_right _
            (inner.forest.root_mem (List.mem_map.mpr ⟨slot, part, rfl⟩)))
        · have same : report.closure = node.address :=
            (Tracker.report_closure reported).trans (inner.opened_follows top).closure
          refine List.mem_append_right _ ?_
          rw [ClosureReport.captureNodes_addresses, same]
          exact List.mem_map.mpr ⟨slot, capture, rfl⟩
  | _ => exact (nomatch member)

end Course

/-- What is built is one tree per root. -/
theorem Built.forest {limits : Limits} {roots : List Address} {s t : Session} {new : List Node}
    (built : Built limits roots s t) (grown : t.nodes.toList = s.nodes.toList ++ new) : Forest roots new := by
  obtain ⟨gain, route⟩ := built
  have same : gain.nodes = new := List.append_cancel_left (route.course.nodes_eq.symm.trans grown)
  exact same ▸ route.course.forest

/-! ## The whole of a construct -/

/-- If no two members have the same image, only one has a given image. -/
theorem filter_eq_singleton {α β : Type} [DecidableEq β] {f : α → β} {xs : List α}
    (distinct : (xs.map f).Nodup) {x : α} (member : x ∈ xs) :
    (xs.filter fun y => f y = f x) = [x] := by
  induction xs with
  | nil => exact (nomatch member)
  | cons y ys ih =>
      obtain ⟨new, rest⟩ := List.nodup_cons.mp distinct
      rcases List.mem_cons.mp member with rfl | later
      · have none : (ys.filter fun y => f y = f x) = [] := by
          refine List.filter_eq_nil_iff.mpr fun y inRest same => new ?_
          exact List.mem_map.mpr ⟨y, inRest, of_decide_eq_true same⟩
        simp [none]
      · have differs : f y ≠ f x := fun same => new (List.mem_map.mpr ⟨x, later, same.symm⟩)
        simpa [differs] using ih rest later

/-- Addresses of a sorted list that differ rise. -/
theorem Compiler.sortNodes_rising {nodes : List Node} (distinct : (nodes.map (·.address)).Nodup) :
    (sortNodes nodes).Pairwise fun a b => compare a.address b.address = .lt := by
  have sorted : (sortNodes nodes).Pairwise fun a b => (compare a.address b.address).isLE := by
    refine List.pairwise_mergeSort (fun a b c => Std.TransCmp.isLE_trans) (fun a b => ?_) nodes
    rw [← Std.OrientedCmp.isGE_eq_isLE]
    cases compare b.address a.address <;> rfl
  have differ : (sortNodes nodes).Pairwise fun a b => a.address ≠ b.address := by
    have perm := (List.mergeSort_perm nodes fun a b => (compare a.address b.address).isLE).map
      (·.address)
    exact List.pairwise_map.mp (perm.nodup_iff.mpr distinct)
  refine (sorted.and differ).imp ?_
  rintro a b ⟨le, ne⟩
  cases order : compare a.address b.address with
  | lt => rfl
  | eq => exact absurd (Std.LawfulEqOrd.eq_of_compare order) ne
  | gt =>
      rw [order] at le
      cases le

theorem Compiler.sortNodes_perm (nodes : List Node) : (sortNodes nodes).Perm nodes :=
  List.mergeSort_perm nodes _

/-- One tree whose links all lead to nodes of it, in the order of addresses. -/
theorem Forest.pathTree {root : Address} {nodes : List Node} (forest : Forest [root] nodes)
    (closed : ∀ node ∈ nodes, ∀ link ∈ node.links, link.2 ∈ nodes.map (·.address)) :
    PathTree root (Compiler.sortNodes nodes) := by
  have perm := Compiler.sortNodes_perm nodes
  have parts : (partTargets (Compiler.sortNodes nodes) ++ [root]).Perm (nodes.map (·.address)) :=
    (((perm.flatMap_right _).map _).append_right _).trans forest.parts
  refine ⟨Compiler.sortNodes_rising forest.distinct, ?_, ?_, ?_, ?_⟩
  · intro node member
    obtain ⟨_, hroot, within⟩ := forest.within node (perm.mem_iff.mp member)
    rwa [List.mem_singleton.mp hroot] at within
  · obtain ⟨node, member, address⟩ :=
      List.mem_map.mp (forest.root_mem (List.mem_singleton_self root))
    exact ⟨node, perm.mem_iff.mpr member, address⟩
  · intro node member link inLinks
    obtain ⟨target, standing, address⟩ :=
      List.mem_map.mp (closed node (perm.mem_iff.mp member) link inLinks)
    exact ⟨target, perm.mem_iff.mpr standing, address⟩
  · intro node member notRoot
    have target : node.address ∈ partTargets (Compiler.sortNodes nodes) := by
      have standing : node.address ∈ nodes.map (·.address) :=
        List.mem_map.mpr ⟨node, perm.mem_iff.mp member, rfl⟩
      rcases List.mem_append.mp (parts.mem_iff.mpr standing) with target | root
      · exact target
      · exact absurd (List.mem_singleton.mp root) notRoot
    have once : (partTargets (Compiler.sortNodes nodes)).Nodup :=
      (List.nodup_append.mp (parts.nodup_iff.mpr forest.distinct)).1
    obtain ⟨⟨owner, role, address⟩, inParts, same⟩ := List.mem_map.mp target
    obtain rfl : address = node.address := same
    obtain ⟨standing, inLinks, structural⟩ := mem_partLinks.mp inParts
    refine ⟨owner, standing, role, filter_eq_singleton once inParts, ?_⟩
    obtain ⟨⟨_, position⟩, rfl, step⟩ :=
      forest.steps owner (perm.mem_iff.mp standing) _ inLinks structural
    cases position with
    | none => exact .inl step
    | some index => exact .inr ⟨index, step⟩

/-- Whatever a construct is compiled to is a tree addressed by paths. -/
theorem Compiler.construct_pathTree {c : Compiler} {k : Construct} {compiled : Compiled}
    (h : c.construct k = .ok compiled) : PathTree k.root compiled.nodes := by
  obtain ⟨t, success, rfl⟩ := construct_eq_ok h
  obtain ⟨gain, course⟩ := construct_built success
  have all : t.nodes.toList = gain.nodes := course.nodes_eq
  have closed : ∀ node ∈ gain.nodes, ∀ link ∈ node.links, link.2 ∈ t.nodes.toList.map (·.address) :=
    fun _ member _ inLinks => course.link_mem c.session_settled member inLinks
  rw [all] at closed
  have tree := course.forest.pathTree closed
  rw [← all] at tree
  exact tree

/-- The nodes of a construct in the order in which they are emitted. -/
def Compiler.emitted (c : Compiler) (k : Construct) : List Node :=
  match ((k.build c).run c.limits).run c.session with
  | .ok (_, t) => t.nodes.toList
  | .error _ => []

theorem Compiler.mem_emitted {c : Compiler} {k : Construct} {compiled : Compiled}
    (h : c.construct k = .ok compiled) {n : Node} : n ∈ c.emitted k ↔ n ∈ compiled.nodes := by
  obtain ⟨t, success, rfl⟩ := construct_eq_ok h
  rw [emitted, show ((k.build c).run c.limits).run c.session = .ok ((), t) from success]
  exact (sortNodes_perm _).mem_iff.symm

/-- `x = 1; fn y -> x + y end`, where a link leads from the closure across to the match. -/
def captureAcross : Construct :=
  .expression ⟨"expr/0"⟩ (.block [
    .binary "=" (.symbol "x" .empty) (.integer 1),
    .closure [.clause [.symbol "y" .empty]
      (.binary "+" (.symbol "x" .empty) (.symbol "y" .empty))]])

theorem Compiler.construct_pathTree_captureAcross :
    ∃ compiled, Compiler.construct ⟨.standard, []⟩ captureAcross = .ok compiled ∧
      PathTree ⟨"expr/0"⟩ compiled.nodes := by
  obtain ⟨compiled, success⟩ :
      ∃ compiled, Compiler.construct ⟨.standard, []⟩ captureAcross = .ok compiled := ⟨_, rfl⟩
  exact ⟨compiled, success, Compiler.construct_pathTree success⟩

end SyntaxGraph
