import Mathlib.Data.List.Nodup
import Mathlib.Data.List.Pairwise
import SyntaxGraph.Proofs.Consistency
import SyntaxGraph.Proofs.Correspondence
import SyntaxGraph.Proofs.Passages

/-!
# Reads of captured names

The references of a capture are the reads of its name that the closure does not answer itself. No
read is listed twice, each is a variable of that name or a segment whose size is read, and each
lies inside of the closure; and a variable inside of the closure whose name no pattern in there
introduces is listed.

While a closure is open, the nodes that were emitted since are known to lie inside of it, to have
their parts among each other, and to be accounted for: a variable was noted, or a pattern among
those nodes has its name. A build is compared with itself to show that every step keeps this. That
the nodes emitted in between are all that lie inside of the closure follows from the tree that the
nodes form.
-/

namespace SyntaxGraph

/-- A node of a kind that has a given name. -/
def Node.IsNamed (n : Node) (kind : NodeKind) (name : String) : Prop :=
  n.kind = kind ∧ n.text? "name" = some name

/-- A node that may read a name: a variable, or a segment whose size is a variable. -/
def Node.MayRead (n : Node) (name : String) : Prop :=
  n.IsNamed .variable name ∨ n.kind = .binarySegment

/-- The parts of a node stand among the given nodes. -/
def Node.PartsAmong (n : Node) (nodes : List Node) : Prop :=
  ∀ link ∈ n.links, link.1.isStructural = true → ∃ m ∈ nodes, m.address = link.2

theorem Node.PartsAmong.mono {n : Node} {nodes more : List Node} (parts : n.PartsAmong nodes)
    (subset : nodes ⊆ more) : n.PartsAmong more := by
  intro link member structural
  obtain ⟨m, standing, same⟩ := parts link member structural
  exact ⟨m, subset standing, same⟩

/-! ## Whatever lies inside of a node is reached from it -/

/-- What holds of a node and goes over from nodes to their parts holds of all nodes inside. -/
def Reaching (nodes : List Node) : Prop :=
  ∀ holds : Address → Prop,
    (∀ n ∈ nodes, holds n.address → ∀ link ∈ n.links, link.1.isStructural = true → holds link.2) →
    ∀ x ∈ nodes, ∀ y ∈ nodes, y.address.isWithin x.address = true → holds x.address → holds y.address

namespace Reaching

variable {roots more : List Address} {nodes others : List Node}

theorem nil : Reaching [] := fun _ _ _ member => (nomatch member)

/-- Trees that stand apart do not lie in each other. -/
theorem append (first : Reaching nodes) (second : Reaching others) (trees : Forest roots nodes)
    (trees' : Forest more others) (apart : ∀ x ∈ roots, ∀ y ∈ more, x.Apart y) :
    Reaching (nodes ++ others) := by
  intro holds passed x hx y hy within start
  have elsewhere : ∀ {x y : Node}, x ∈ nodes → y ∈ others → x.address.isWithin y.address = false ∧
      y.address.isWithin x.address = false := by
    intro x y hx hy
    obtain ⟨root, hroot, inRoot⟩ := trees.within x hx
    obtain ⟨root', hroot', inRoot'⟩ := trees'.within y hy
    exact (apart root hroot root' hroot').mono inRoot inRoot'
  cases List.mem_append.mp hx with
  | inl hx' =>
      cases List.mem_append.mp hy with
      | inl hy' =>
          exact first holds (fun n member => passed n (List.mem_append_left _ member)) x hx' y hy' within
            start
      | inr hy' => exact absurd ((elsewhere hx' hy').2.symm.trans within) Bool.false_ne_true
  | inr hx' =>
      cases List.mem_append.mp hy with
      | inl hy' => exact absurd ((elsewhere hy' hx').1.symm.trans within) Bool.false_ne_true
      | inr hy' =>
          exact second holds (fun n member => passed n (List.mem_append_right _ member)) x hx' y hy'
            within start

/-- From a node everything below is reached through its parts. -/
theorem node {slots : List Slot} {node : Node} (below : Reaching nodes)
    (trees : Forest (slots.map node.address.at) nodes) (filled : node.Holds slots) :
    Reaching (nodes ++ [node]) := by
  intro holds passed x hx y hy within start
  have passed' : ∀ n ∈ nodes, holds n.address → ∀ link ∈ n.links, link.1.isStructural = true →
      holds link.2 := fun n member => passed n (List.mem_append_left _ member)
  cases List.mem_append.mp hx with
  | inl hx' =>
      cases List.mem_append.mp hy with
      | inl hy' => exact below holds passed' x hx' y hy' within start
      | inr last =>
          obtain ⟨root, hroot, inRoot⟩ := trees.within x hx'
          obtain ⟨slot, -, rfl⟩ := List.mem_map.mp hroot
          rw [List.mem_singleton.mp last] at within
          have up := Address.isWithin_trans within inRoot
          exact absurd ((Address.not_isWithin_at _ slot).symm.trans up) Bool.false_ne_true
  | inr last =>
      obtain rfl := List.mem_singleton.mp last
      cases List.mem_append.mp hy with
      | inr last' => exact List.mem_singleton.mp last' ▸ start
      | inl hy' =>
          obtain ⟨root, hroot, inRoot⟩ := trees.within y hy'
          obtain ⟨part, standing, same⟩ := List.mem_map.mp (trees.root_mem hroot)
          obtain ⟨slot, hslot, rfl⟩ := List.mem_map.mp hroot
          have link : (slot.1, x.address.at slot) ∈ x.links :=
            filled.links.mem_iff.mpr (List.mem_map.mpr ⟨slot, hslot, rfl⟩)
          have reached := passed x hx start _ link (filled.structural slot hslot)
          rw [← same] at inRoot reached
          exact below holds passed' part standing y hy' inRoot reached

/-- Nodes that stand apart reach themselves. -/
theorem leaves (apart : (nodes.map (·.address)).Pairwise Address.Apart) : Reaching nodes := by
  intro holds passed x hx y hy within start
  by_cases same : x = y
  · exact same ▸ start
  · have symmetric : Std.Symm fun a b : Node => a.address.Apart b.address := ⟨fun _ _ far => far.symm⟩
    have far := (List.pairwise_map.mp apart).forall hx hy same
    exact absurd (far.2.symm.trans within) Bool.false_ne_true

/-- What lies inside of a node is among any nodes that it belongs to and that hold their parts. -/
theorem mem_of_isWithin (reaching : Reaching nodes) (distinct : (nodes.map (·.address)).Nodup)
    {block : List Node} (among : block ⊆ nodes) (parts : ∀ n ∈ block, n.PartsAmong block) {x n : Node}
    (start : x ∈ block) (member : n ∈ nodes) (within : n.address.isWithin x.address = true) :
    n ∈ block := by
  have known : ∀ {m y : Node}, m ∈ nodes → y ∈ block → y.address = m.address → m = y :=
    fun hm hy same => List.inj_on_of_nodup_map distinct hm (among hy) same.symm
  obtain ⟨m, inBlock, same⟩ := reaching (fun a => ∃ m ∈ block, m.address = a)
    (fun y hy ⟨m, inBlock, same⟩ => by
      obtain rfl := known hy inBlock same
      exact parts y inBlock)
    x (among start) n member within ⟨x, start, rfl⟩
  exact known member inBlock same ▸ inBlock

end Reaching

/-- In trees the parts of a node stand among the nodes. -/
theorem Forest.partsAmong {roots : List Address} {nodes : List Node} (forest : Forest roots nodes) :
    ∀ n ∈ nodes, n.PartsAmong nodes := by
  intro n member link inLinks structural
  have target : link.2 ∈ partTargets nodes :=
    List.mem_map.mpr ⟨(n, link), mem_partLinks.mpr ⟨member, inLinks, structural⟩, rfl⟩
  exact List.mem_map.mp (forest.parts.mem_iff.mp (List.mem_append_left _ target))

/-- What lies inside of the root of a tree belongs to the tree. -/
theorem Forest.mem_of_isWithin {all nodes : List Node} {root : Address} (tree : Forest [root] nodes)
    (reaching : Reaching all) (distinct : (all.map (·.address)).Nodup) (among : nodes ⊆ all) {n : Node}
    (member : n ∈ all) (within : n.address.isWithin root = true) : n ∈ nodes := by
  obtain ⟨x, start, rfl⟩ := List.mem_map.mp (tree.root_mem (List.mem_singleton_self root))
  exact reaching.mem_of_isWithin distinct among tree.partsAmong start member within

theorem Course.reaching {limits : Limits} {roots : List Address} {gain : Gain} {s t : Session}
    (course : Course limits roots gain s t) : Reaching gain.nodes := by
  induction course with
  | next first second apart ih ih' => exact ih.append ih' first.forest second.forest apart
  | node parts holds ih => exact ih.node parts.forest holds
  | @symbol _ _ node _ leaf _ _ =>
      have none : Forest (([] : List Slot).map node.address.at) [] := .nil
      exact Reaching.nil.node none leaf
  | size _ _ _ ih => simpa [Gain.ofMoments] using ih
  | framed _ ih => exact ih
  | logged _ ih => exact ih
  | counted _ ih => exact ih
  | @closure slots node g s t opened others report inner top reported holds ih =>
      have same : report.closure = node.address :=
        (Tracker.report_closure reported).trans (inner.opened_follows top).closure
      have captured := report.captureNodes_forest
      rw [same] at captured
      have apart : ∀ x ∈ slots.map node.address.at,
          ∀ y ∈ (Slot.numbered .captures 0 report.captures.length).map node.address.at, x.Apart y := by
        intro x hx y hy
        obtain ⟨p, hp, rfl⟩ := List.mem_map.mp hx
        obtain ⟨q, hq, rfl⟩ := List.mem_map.mp hy
        exact node.address.at_apart ((List.pairwise_append.mp holds.apart).2.2 p hp q hq)
      have beside : Reaching report.captureNodes := .leaves (by
        rw [ClosureReport.captureNodes_addresses]
        exact (Slot.numbered_apart _ _ _).map _ fun p q apart => report.closure.at_apart apart)
      have parts := inner.forest.append captured apart
      rw [← List.map_append] at parts
      have whole := (ih.append beside inner.forest captured apart).node parts holds
      rwa [List.append_assoc] at whole
  | _ => exact Reaching.nil

/-! ## Open closures -/

/-- A closure that is open, and the nodes that stood when it was opened. -/
structure Opening where
  site : Address
  scope : ScopeId
  enclosing : ScopeId
  before : List Node

namespace Opening

def nodes (o : Opening) (s : Session) : List Node := s.nodes.toList.drop o.before.length

theorem nodes_congr (o : Opening) {s t : Session} (same : t.nodes = s.nodes) : o.nodes t = o.nodes s := by
  unfold nodes
  rw [same]

/-- What is known of an open closure at any time. -/
structure Watches (o : Opening) (s : Session) (c : OpenClosure) : Prop where
  site : c.tracker.closure = o.site
  scope : c.tracker.scope = o.scope
  enclosing : c.enclosing = o.enclosing
  split : s.nodes.toList = o.before ++ o.nodes s
  within : ∀ n ∈ o.nodes s, n.address.isWithin o.site = true
  parts : ∀ n ∈ o.nodes s, n.PartsAmong (o.nodes s)
  /-- What was noted as a read reads. -/
  references : ∀ name, ∀ a ∈ (c.tracker.use name).references,
    ∃ n ∈ o.nodes s, n.address = a ∧ n.MayRead name

/-- What is known as long as frames can be told apart. -/
structure Accounts (o : Opening) (s : Session) (c : OpenClosure) : Prop where
  /-- Patterns inside of the closure introduce what is bound in its frames. -/
  locals : ∀ {scope frame name binding}, s.scopes.frame? scope = some frame →
    s.scopes.Inside scope o.scope → frame.bindings.get? name = some binding →
    ∃ p ∈ o.nodes s, p.IsNamed .variablePattern name
  /-- Every variable was noted, unless a pattern has its name. -/
  noted : ∀ v ∈ o.nodes s, ∀ name, v.IsNamed .variable name →
    v.address ∈ (c.tracker.use name).references ∨ ∃ p ∈ o.nodes s, p.IsNamed .variablePattern name

variable {o : Opening} {s t : Session} {c d : OpenClosure} {more : List Node} {moments : List Moment}

theorem Watches.nodes_append (watches : o.Watches s c) (grown : t.nodes.toList = s.nodes.toList ++ more) :
    o.nodes t = o.nodes s ++ more := by
  have split := watches.split
  unfold nodes
  rw [grown, List.drop_append_of_le_length]
  rw [split, List.length_append]
  exact Nat.le_add_right _ _

/-- Nodes are emitted inside of the closure. -/
theorem Watches.append (watches : o.Watches s c) (grown : t.nodes.toList = s.nodes.toList ++ more)
    (within : ∀ n ∈ more, n.address.isWithin o.site = true)
    (parts : ∀ n ∈ more, n.PartsAmong (o.nodes s ++ more)) : o.Watches t c := by
  have nodes := watches.nodes_append grown
  refine ⟨watches.site, watches.scope, watches.enclosing, ?_, ?_, ?_, ?_⟩
  · rw [nodes, grown, watches.split, List.append_assoc]
  · rw [nodes]
    exact List.forall_mem_append.mpr ⟨watches.within, within⟩
  · rw [nodes]
    refine List.forall_mem_append.mpr ⟨fun n member => ?_, parts⟩
    exact (watches.parts n member).mono (List.subset_append_left _ _)
  · intro name a noted
    obtain ⟨n, member, reads⟩ := watches.references name a noted
    rw [nodes]
    exact ⟨n, List.mem_append_left _ member, reads⟩

/-- Uses of names are noted; what they refer to stands. -/
theorem Watches.follow (watches : o.Watches s c) (follows : c.Follows moments d)
    (nodes : t.nodes = s.nodes) (reads : ∀ m ∈ moments, ∀ a, m.reference? = some a →
      ∃ n ∈ o.nodes s, n.address = a ∧ n.MayRead m.name) : o.Watches t d := by
  have same := o.nodes_congr nodes
  refine ⟨follows.closure.trans watches.site, follows.scope.trans watches.scope,
    follows.1.trans watches.enclosing, ?_, ?_, ?_, ?_⟩
  · rw [same, nodes]
    exact watches.split
  · rw [same]
    exact watches.within
  · rw [same]
    exact watches.parts
  · intro name a noted
    rw [same]
    rw [follows.use, Tracker.references_followAll] at noted
    cases List.mem_append.mp noted with
    | inl old => exact watches.references name a old
    | inr new =>
        obtain ⟨m, member, read⟩ := List.mem_flatMap.mp new
        unfold Moment.readsOf at read
        split at read
        · rename_i here
          obtain ⟨n, standing, same, may⟩ := reads m member a (Option.mem_toList.mp read)
          exact ⟨n, standing, same, here.1 ▸ may⟩
        · cases read

theorem references_subset (follows : c.Follows moments d) (name : String) :
    (c.tracker.use name).references ⊆ (d.tracker.use name).references := by
  rw [follows.use, Tracker.references_followAll]
  exact List.subset_append_left _ _

/-- Nodes are emitted while uses are noted; it remains to account for variables among them. -/
theorem Accounts.append (accounts : o.Accounts s c) (watches : o.Watches s c)
    (follows : c.Follows moments d) (grown : t.nodes.toList = s.nodes.toList ++ more)
    (scopes : t.scopes = s.scopes)
    (noted : ∀ v ∈ more, ∀ name, v.IsNamed .variable name →
      v.address ∈ (d.tracker.use name).references ∨ ∃ p ∈ o.nodes s, p.IsNamed .variablePattern name) :
    o.Accounts t d := by
  have nodes := watches.nodes_append grown
  have kept : ∀ {name : String}, (∃ p ∈ o.nodes s, p.IsNamed .variablePattern name) →
      ∃ p ∈ o.nodes t, p.IsNamed .variablePattern name := by
    rintro name ⟨p, standing, introduces⟩
    rw [nodes]
    exact ⟨p, List.mem_append_left _ standing, introduces⟩
  constructor
  · intro scope frame name binding present inside bound
    rw [scopes] at present inside
    exact kept (accounts.locals present inside bound)
  · intro v member name named
    rw [nodes] at member
    cases List.mem_append.mp member with
    | inl old =>
        exact (accounts.noted v old name named).imp (fun noted => references_subset follows name noted) kept
    | inr new => exact (noted v new name named).imp id kept

/-- Notes are never dropped. -/
theorem Accounts.follow (accounts : o.Accounts s c) (follows : c.Follows moments d)
    (nodes : t.nodes = s.nodes)
    (locals : ∀ {scope frame name binding}, t.scopes.frame? scope = some frame →
      t.scopes.Inside scope o.scope → frame.bindings.get? name = some binding →
      ∃ p ∈ o.nodes s, p.IsNamed .variablePattern name) : o.Accounts t d := by
  have same := o.nodes_congr nodes
  constructor
  · rw [same]
    exact locals
  · intro v member name named
    rw [same] at member ⊢
    exact (accounts.noted v member name named).imp (fun noted => references_subset follows name noted) id

/-- A name that is local to the closure is introduced inside of it. -/
theorem Accounts.introduced (accounts : o.Accounts s c) (placed : s.Placed) {use : NameUse}
    (here : (Moment.mk s use).isLocal o.scope = true) :
    ∃ p ∈ o.nodes s, p.IsNamed .variablePattern use.name := by
  obtain ⟨⟨scope, binding⟩, found, inside⟩ := (Moment.isLocal_iff placed).mp here
  obtain ⟨-, bound⟩ := Scopes.inside_of_lookup placed.nested placed.standing found
  obtain ⟨frame, present, get⟩ := Option.bind_eq_some_iff.mp bound
  exact accounts.locals present inside get

/-- A variable is read where it stands, so it is noted or a pattern has its name. -/
theorem Accounts.symbol (accounts : o.Accounts s c) (watches : o.Watches s c) (placed : s.Placed)
    {v : Node} {name : String} {position : Option Position} (named : v.IsNamed .variable name)
    (follows : c.Follows [⟨s, .read name v.address position⟩] d)
    (grown : t.nodes.toList = s.nodes.toList ++ [v]) (scopes : t.scopes = s.scopes) :
    o.Accounts t d := by
  refine accounts.append watches follows grown scopes (List.forall_mem_singleton.mpr ?_)
  intro other named'
  obtain rfl : name = other := Option.some.inj (named.2.symm.trans named'.2)
  cases here : (Moment.mk s (.read name v.address position)).isLocal o.scope with
  | true => exact .inr (accounts.introduced placed here)
  | false =>
      refine .inl ?_
      rw [← watches.scope] at here
      rw [follows.use, Tracker.references_followAll, List.flatMap_singleton, Moment.readsOf,
        if_pos ⟨rfl, here⟩]
      exact List.mem_append_right _ (List.mem_singleton_self _)

end Opening

/-! ## Reports -/

namespace ClosureReport

/-- What a report says about the nodes that were emitted while the closure was open, `last` being
the node of the closure. -/
structure Recounts (r : ClosureReport) (during : List Node) (last : Node) : Prop where
  closing : last.address = r.closure
  within : ∀ n ∈ during, n.address.isWithin r.closure = true
  parts : ∀ n ∈ during ++ (r.captureNodes ++ [last]),
    n.PartsAmong (during ++ (r.captureNodes ++ [last]))
  references : ∀ capture ∈ r.captures, ∀ a ∈ capture.references,
    ∃ n ∈ during, n.address = a ∧ n.MayRead capture.name
  noted : ∀ v ∈ during, ∀ name, v.IsNamed .variable name →
    (∃ capture ∈ r.captures, capture.name = name ∧ v.address ∈ capture.references) ∨
      ∃ p ∈ during, p.IsNamed .variablePattern name

/-- A report on nodes among the given ones. -/
def Told (nodes : List Node) (r : ClosureReport) : Prop :=
  ∃ during last, during ++ (r.captureNodes ++ [last]) <:+: nodes ∧ r.Recounts during last

theorem Told.append {nodes : List Node} {r : ClosureReport} (told : r.Told nodes) (more : List Node) :
    r.Told (nodes ++ more) := by
  obtain ⟨during, last, among, recounts⟩ := told
  exact ⟨during, last, among.trans (List.prefix_append _ _).isInfix, recounts⟩

/-- The node of a capture has no parts. -/
theorem captureNode_partsAmong (r : ClosureReport) {n : Node} (member : n ∈ r.captureNodes)
    (nodes : List Node) : n.PartsAmong nodes := by
  obtain ⟨index, capture, -, rfl⟩ := mem_captureNodes member
  intro link inLinks structural
  rcases r.captureNode_links index capture inLinks with ⟨role, -⟩ | ⟨role, -⟩
  · rw [role] at structural
    cases structural
  · rw [role] at structural
    cases structural

theorem captureNodes_isWithin (r : ClosureReport) {n : Node} (member : n ∈ r.captureNodes) :
    n.address.isWithin r.closure = true := by
  obtain ⟨index, capture, -, rfl⟩ := mem_captureNodes member
  rw [captureNode_address]
  exact Address.at_isWithin _ _

end ClosureReport

/-- The report on an open closure recounts what was emitted since it was opened. -/
theorem Opening.recounts {o : Opening} {t : Session} {c : OpenClosure} {limits : Limits}
    {r : ClosureReport} {last : Node} (watches : o.Watches t c) (accounts : o.Accounts t c)
    (reported : c.tracker.report t.scopes c.enclosing limits = .ok r) (closing : last.address = o.site)
    (parts : last.PartsAmong (o.nodes t ++ r.captureNodes)) : r.Recounts (o.nodes t) last := by
  have site : r.closure = o.site := (Tracker.report_closure reported).trans watches.site
  refine ⟨closing.trans site.symm, ?_, ?_, ?_, ?_⟩
  · rw [site]
    exact watches.within
  · intro n member
    rw [← List.append_assoc] at member ⊢
    cases List.mem_append.mp member with
    | inr new =>
        rw [List.mem_singleton.mp new]
        exact parts.mono (List.subset_append_left _ _)
    | inl old =>
        cases List.mem_append.mp old with
        | inl inside =>
            exact (watches.parts n inside).mono
              (List.Subset.trans (List.subset_append_left _ _) (List.subset_append_left _ _))
        | inr captured => exact r.captureNode_partsAmong captured _
  · intro capture member a noted
    rw [(Tracker.report_records reported member).references] at noted
    exact watches.references capture.name a noted
  · intro v member name named
    refine (accounts.noted v member name named).imp (fun noted => ?_) id
    obtain ⟨capture, inReport, same⟩ :=
      Tracker.report_complete reported (Tracker.captures_of_mem_references noted)
    refine ⟨capture, inReport, same, ?_⟩
    rw [(Tracker.report_records reported inReport).references, same]
    exact noted

/-! ## Sessions whose closures are watched -/

/-- What is known of the nodes that stand: those emitted since the innermost closure was opened,
and how many frames there are. -/
structure Emitted where
  nodes : List Node
  frames : Nat

/-- A session whose open closures are watched. -/
structure Attends (stack : List Opening) (world : Emitted) (s : Session) : Prop where
  closures : List.Forall₂ (fun o c => o.Watches s c ∧ world.nodes ⊆ o.nodes s) stack s.closures
  frames : world.frames = s.scopes.size
  placed : s.scopes.size ≤ 2 ^ 32 → s.Placed
  accounts : s.scopes.size ≤ 2 ^ 32 → List.Forall₂ (fun o c => o.Accounts s c) stack s.closures
  reports : s.scopes.size ≤ 2 ^ 32 → ∀ r ∈ s.reports.toList, r.Told s.nodes.toList

namespace Attends

variable {stack : List Opening} {world later : Emitted} {s t : Session}

/-- Members that go over to others, one by one. -/
theorem forall₂_step {α β : Type} {r q : α → β → Prop} {p : β → β → Prop} {xs : List α} {ys zs : List β}
    (along : List.Forall₂ r xs ys) (next : List.Forall₂ p ys zs)
    (step : ∀ x ∈ xs, ∀ y z, r x y → p y z → q x z) : List.Forall₂ q xs zs := by
  induction along generalizing zs with
  | nil =>
      cases next
      exact .nil
  | cons here _ ih =>
      cases next with
      | cons one others =>
          exact .cons (step _ List.mem_cons_self _ _ here one)
            (ih others fun x member => step x (List.mem_cons_of_mem _ member))

/-- A step that opens no closure: closures take note of what happens, and nodes and reports on
them are added. -/
theorem step {moments : List Moment} (attends : Attends stack world s) (more : List Node)
    (follows : List.Forall₂ (OpenClosure.Follows moments) s.closures t.closures)
    (grown : t.nodes.toList = s.nodes.toList ++ more) (size : s.scopes.size ≤ t.scopes.size)
    (reports : t.scopes.size ≤ 2 ^ 32 →
      ∀ r ∈ t.reports.toList, r ∈ s.reports.toList ∨ r.Told t.nodes.toList)
    (frames : later.frames = t.scopes.size) (recent : later.nodes ⊆ world.nodes ++ more)
    (watches : ∀ o ∈ stack, ∀ c d, world.nodes ⊆ o.nodes s → o.Watches s c → c.Follows moments d →
      o.Watches t d)
    (placed : t.scopes.size ≤ 2 ^ 32 → s.Placed → t.Placed)
    (accounts : t.scopes.size ≤ 2 ^ 32 → s.Placed → ∀ (o : Opening) (c d : OpenClosure),
      world.nodes ⊆ o.nodes s → o.Watches s c → o.Accounts s c → c.Follows moments d → o.Accounts t d) :
    Attends stack later t := by
  refine ⟨?_, frames, fun small => ?_, fun small => ?_, fun small r member => ?_⟩
  · refine forall₂_step attends.closures follows fun o member c d ⟨watched, known⟩ followed => ?_
    refine ⟨watches o member c d known watched followed, ?_⟩
    rw [watched.nodes_append grown]
    exact List.Subset.trans recent (List.append_subset.mpr
      ⟨List.Subset.trans known (List.subset_append_left _ _), List.subset_append_right _ _⟩)
  · exact placed small (attends.placed (Nat.le_trans size small))
  · have before := attends.accounts (Nat.le_trans size small)
    have both := attends.closures.mp (fun _ _ h h' => And.intro h h') before
    exact forall₂_step both follows fun o member c d ⟨⟨watched, known⟩, accounted⟩ followed =>
      accounts small (attends.placed (Nat.le_trans size small)) o c d known watched accounted followed
  · cases reports small r member with
    | inl old =>
        rw [grown]
        exact (attends.reports (Nat.le_trans size small) r old).append more
    | inr told => exact told

/-- What a node is made of stands. -/
def Ready (world : Emitted) (n : Node) : Prop := n.kind ≠ .variable ∧ n.PartsAmong world.nodes

/-- All open closures lie around an address. -/
def Around (stack : List Opening) (site : Address) : Prop := ∀ o ∈ stack, site.isWithin o.site = true

/-- A node is emitted after its parts. -/
theorem emit (attends : Attends stack world s) {n : Node} (around : Around stack n.address)
    (ready : Ready world n) : Attends stack ⟨world.nodes ++ [n], world.frames⟩ (s.emit n) := by
  refine attends.step [n] (forall₂_follows_refl _) (s.emit_nodes n) (Nat.le_refl _)
    (fun _ _ => .inl) attends.frames (List.Subset.refl _) ?_
    (fun _ placed => ⟨placed.nested, placed.standing⟩) ?_
  · intro o member c d known watched followed
    have emitted : o.Watches (s.emit n) c := by
      refine watched.append (s.emit_nodes n) ?_ ?_
      · exact List.forall_mem_singleton.mpr (around o member)
      · refine List.forall_mem_singleton.mpr (ready.2.mono ?_)
        exact List.Subset.trans known (List.subset_append_left _ _)
    exact emitted.follow followed rfl fun _ none => (nomatch none)
  · intro _ placed o c d known watched accounted followed
    refine accounted.append watched followed (s.emit_nodes n) rfl (List.forall_mem_singleton.mpr ?_)
    exact fun _ named => absurd named.1 ready.1

/-- A variable is read and emitted. -/
theorem symbol (attends : Attends stack world s) {v : Node} {name : String}
    (position : Option Position) (around : Around stack v.address) (named : v.IsNamed .variable name)
    (leaf : v.links = []) :
    Attends stack ⟨world.nodes ++ [v], world.frames⟩ ((s.readSymbol name v.address position).emit v) := by
  refine attends.step [v] (s.readSymbol_follows name v.address position)
    ((s.readSymbol name v.address position).emit_nodes v) (Nat.le_refl _) (fun _ _ => .inl)
    attends.frames (List.Subset.refl _) ?_ (fun _ placed => ⟨placed.nested, placed.standing⟩) ?_
  · intro o member c d known watched followed
    have emitted : o.Watches (s.emit v) c := by
      refine watched.append (s.emit_nodes v) ?_ ?_
      · exact List.forall_mem_singleton.mpr (around o member)
      · refine List.forall_mem_singleton.mpr fun link inLinks => ?_
        rw [leaf] at inLinks
        cases inLinks
    refine emitted.follow followed rfl fun m inMoments a reads => ?_
    obtain rfl := List.mem_singleton.mp inMoments
    obtain rfl := Option.some.inj reads
    refine ⟨v, ?_, rfl, .inl named⟩
    rw [watched.nodes_append (s.emit_nodes v)]
    exact List.mem_append_right _ (List.mem_singleton_self _)
  · intro _ placed o c d known watched accounted followed
    exact accounted.symbol watched placed named followed (s.emit_nodes v) rfl

/-- The size of a segment is read where the segment stands. -/
theorem size (attends : Attends stack world s) {name : String} {site : Address}
    (position : Option Position)
    (segment : ∃ n ∈ world.nodes, n.address = site ∧ n.kind = .binarySegment) :
    Attends stack world (s.readSymbol name site position) := by
  obtain ⟨n, standing, same, kind⟩ := segment
  refine attends.step [] (s.readSymbol_follows name site position) (List.append_nil _).symm
    (Nat.le_refl _) (fun _ _ => .inl) attends.frames (List.subset_append_left _ _) ?_
    (fun _ placed => ⟨placed.nested, placed.standing⟩) ?_
  · intro o member c d known watched followed
    refine watched.follow followed rfl fun m inMoments a reads => ?_
    obtain rfl := List.mem_singleton.mp inMoments
    obtain rfl := Option.some.inj reads
    exact ⟨n, known standing, same, .inr kind⟩
  · intro _ placed o c d known watched accounted followed
    exact accounted.follow followed rfl accounted.locals

/-- A name is bound that a pattern among the new nodes introduces. -/
theorem bind (attends : Attends stack world s) (reads : Option (OrderedSet String)) {b : Binding}
    (introduced : ∃ p ∈ world.nodes, p.IsNamed .variablePattern b.name) :
    Attends stack world (s.bindSymbol reads b) := by
  obtain ⟨p, standing, named⟩ := introduced
  have size : (s.bindSymbol reads b).scopes.size = s.scopes.size := Scopes.size_bind
  refine attends.step [] (s.bindSymbol_follows reads b) (List.append_nil _).symm
    (Nat.le_of_eq size.symm) (fun _ _ => .inl) (attends.frames.trans size.symm)
    (List.subset_append_left _ _) ?_ (fun _ placed => (Session.Onward.bind placed reads b).placed) ?_
  · intro o member c d known watched followed
    refine watched.follow followed rfl fun m inMoments a reference => ?_
    cases reads with
    | none => cases inMoments
    | some names =>
        obtain rfl := List.mem_singleton.mp inMoments
        cases reference
  · intro _ placed o c d known watched accounted followed
    refine accounted.follow followed rfl fun {scope frame name binding} present inside bound => ?_
    -- The frame that is bound in may lie inside of the closure; then the new name has its pattern.
    replace present : (s.scopes.bind s.current b).frame? scope = some frame := present
    have old := Scopes.inside_bind_iff.mp inside
    rw [Scopes.frame?_bind] at present
    split at present
    · obtain ⟨before, found, rfl⟩ := Option.map_eq_some_iff.mp present
      rw [OrderedMap.get?_insert] at bound
      split at bound
      · rename_i same
        rw [Std.LawfulEqOrd.eq_of_compare same]
        exact ⟨p, known standing, named⟩
      · exact accounted.locals found old bound
    · exact accounted.locals present old bound

/-- Closures may follow, as long as they have nothing to note. Diagnostics, logs and counts play no
part. -/
theorem congr (attends : Attends stack world s) (scopes : t.scopes = s.scopes)
    (current : t.current = s.current) (nodes : t.nodes = s.nodes)
    (follows : List.Forall₂ (OpenClosure.Follows []) s.closures t.closures)
    (reports : t.reports = s.reports) : Attends stack world t := by
  refine attends.step [] follows (by rw [nodes, List.append_nil]) (by rw [scopes])
    (fun _ _ member => .inl (reports ▸ member)) (by rw [scopes, attends.frames])
    (List.subset_append_left _ _) ?_ ?_ ?_
  · intro o member c d known watched followed
    exact watched.follow followed nodes fun _ none => (nomatch none)
  · intro _ placed
    exact ⟨scopes ▸ placed.nested, by rw [scopes, current]; exact placed.standing⟩
  · intro _ placed o c d known watched accounted followed
    refine accounted.follow followed nodes ?_
    rw [scopes]
    exact accounted.locals

theorem boundByClosure (attends : Attends stack world s) (names : List String) :
    Attends stack world (s.boundByClosure names) :=
  attends.congr (s.boundByClosure_scopes names) (s.boundByClosure_current names)
    (s.boundByClosure_nodes names) (s.boundByClosure_follows names) (s.boundByClosure_reports names)

/-- The frames inside of a closure are those from before and a new one that binds nothing. -/
theorem locals_enter {o : Opening} {c : OpenClosure} (accounted : o.Accounts s c) (placed : s.Placed)
    (kind : ScopeKind) {scope : ScopeId} {frame : Frame} {name : String} {binding : Binding}
    (present : (s.enter kind).scopes.frame? scope = some frame)
    (inside : (s.enter kind).scopes.Inside scope o.scope)
    (bound : frame.bindings.get? name = some binding) :
    ∃ p ∈ o.nodes s, p.IsNamed .variablePattern name := by
  have standing := Scopes.lt_size_of_frame? present
  replace present : (s.scopes.add s.current kind).frame? scope = some frame := present
  rw [Scopes.frame?_add] at present
  split at present
  · obtain rfl := Option.some.inj present
    cases bound
  · have old := Scopes.lt_size_of_frame? present
    have agrees : Scopes.AgreesBelow s.scopes.size (s.enter kind).scopes s.scopes :=
      fun other below => Scopes.frame?_add_of_lt below
    exact accounted.locals present
      (agrees.inside (placed.nested.add placed.standing) old inside) bound

theorem enter (attends : Attends stack world s) (kind : ScopeKind) :
    Attends stack ⟨world.nodes, world.frames + 1⟩ (s.enter kind) := by
  have size : (s.enter kind).scopes.size = s.scopes.size + 1 := Scopes.size_add
  refine attends.step [] (forall₂_follows_refl _) (List.append_nil _).symm
    (by omega) (fun _ _ => .inl) (by rw [size, ← attends.frames]) (List.subset_append_left _ _) ?_ ?_ ?_
  · intro o member c d known watched followed
    exact watched.follow followed rfl fun _ none => (nomatch none)
  · intro small placed
    exact (Session.Onward.enter placed (by omega) kind).placed
  · intro small placed o c d known watched accounted followed
    exact accounted.follow followed rfl fun present inside bound =>
      locals_enter accounted placed kind present inside bound

/-- Back in the frame from before, which still stands. -/
theorem leave (attends : Attends stack world s) (inner : Attends stack later t)
    (grown : world.frames + 1 ≤ later.frames) :
    Attends stack later { t with current := s.current } := by
  have frames := attends.frames
  have frames' := inner.frames
  refine inner.step [] (forall₂_follows_refl _) (List.append_nil _).symm (Nat.le_refl _)
    (fun _ _ => .inl) frames' (List.subset_append_left _ _) ?_ ?_ ?_
  · intro o member c d known watched followed
    exact watched.follow followed rfl fun _ none => (nomatch none)
  · intro small placed
    replace small : t.scopes.size ≤ 2 ^ 32 := small
    have standing := (attends.placed (by omega)).standing
    exact ⟨placed.nested, show s.current.index < t.scopes.size by omega⟩
  · intro _ placed o c d known watched accounted followed
    exact accounted.follow followed rfl accounted.locals

/-- A closure is opened, with no nodes yet and nothing noted. -/
theorem openClosure (attends : Attends stack world s) (site : Address) :
    Attends (⟨site, s.scopes.next, s.current, s.nodes.toList⟩ :: stack) ⟨[], world.frames + 1⟩
      (s.openClosure site) := by
  have entered := attends.enter .closure
  have none : Opening.nodes ⟨site, s.scopes.next, s.current, s.nodes.toList⟩ (s.openClosure site) = [] :=
    List.drop_length
  refine ⟨.cons ⟨⟨rfl, rfl, rfl, ?_, ?_, ?_, ?_⟩, List.nil_subset _⟩ ?_, entered.frames,
    fun small => ⟨(entered.placed small).nested, (entered.placed small).standing⟩,
    fun small => .cons ⟨?_, ?_⟩ ?_, entered.reports⟩
  · rw [none]
    exact (List.append_nil _).symm
  · rw [none]
    exact fun _ member => (nomatch member)
  · rw [none]
    exact fun _ member => (nomatch member)
  · exact fun _ _ noted => (nomatch noted)
  · exact entered.closures.imp fun o c h =>
      ⟨h.1.follow (.refl c) rfl fun _ none => (nomatch none), List.nil_subset _⟩
  · -- The only frame inside of the closure is its own, which binds nothing yet.
    intro scope frame name binding present inside bound
    have grown : (s.openClosure site).scopes.size = s.scopes.size + 1 := Scopes.size_add
    have placed := attends.placed (by omega)
    rw [show s.scopes.next = ⟨s.scopes.size⟩ from Scopes.next_eq (by omega)] at inside
    have least := inside.index_le (placed.nested.add placed.standing)
    replace present : (s.scopes.add s.current .closure).frame? scope = some frame := present
    rw [Scopes.frame?_add] at present
    split at present
    · obtain rfl := Option.some.inj present
      cases bound
    · exact absurd (Scopes.lt_size_of_frame? present) (Nat.not_lt.mpr least)
  · rw [none]
    exact fun _ member => (nomatch member)
  · exact (entered.accounts small).imp fun o c accounted =>
      accounted.follow (.refl c) rfl accounted.locals

/-- A closure is left. What was emitted since it was opened belongs to the closures around it as
well. -/
theorem leaveClosure {o : Opening} {v : Session} {c : OpenClosure} {others : List OpenClosure}
    (attends : Attends stack world s) (inner : Attends (o :: stack) later v)
    (opened : o.before = s.nodes.toList ∧ o.enclosing = s.current)
    (grown : world.frames + 1 ≤ later.frames) (top : v.closures = c :: others) :
    Attends stack ⟨world.nodes ++ o.nodes v, later.frames⟩
      { v with closures := others, current := c.enclosing } := by
  have closures := inner.closures
  rw [top] at closures
  obtain ⟨⟨watched, known⟩, rest⟩ := List.forall₂_cons.mp closures
  have split : v.nodes.toList = s.nodes.toList ++ o.nodes v := opened.1 ▸ watched.split
  refine ⟨?_, inner.frames, fun small => ?_, fun small => ?_, inner.reports⟩
  · refine forall₂_step rest (forall₂_follows_refl others) fun a member c d ⟨before, _⟩ follows => ?_
    obtain ⟨c', -, outside, recent⟩ := Tracker.exists_of_forall₂ attends.closures member
    refine ⟨before.follow follows rfl fun _ none => (nomatch none), ?_⟩
    rw [show a.nodes { v with closures := others, current := _ } = a.nodes v from rfl,
      outside.nodes_append split]
    exact List.append_subset.mpr ⟨List.Subset.trans recent (List.subset_append_left _ _),
      List.subset_append_right _ _⟩
  · replace small : v.scopes.size ≤ 2 ^ 32 := small
    have frames := attends.frames
    have frames' := inner.frames
    have standing := (attends.placed (by omega)).standing
    refine ⟨(inner.placed small).nested, ?_⟩
    show c.enclosing.index < v.scopes.size
    rw [watched.enclosing, opened.2]
    omega
  · have accounts := inner.accounts small
    rw [top] at accounts
    exact (List.forall₂_cons.mp accounts).2.imp fun a c accounted =>
      accounted.follow (.refl c) rfl accounted.locals

/-- A closure is reported on and its node emitted. -/
theorem close {limits : Limits} {site : Address} {scope : ScopeId} {v w : Session} {n r : Node}
    (attends : Attends stack world s)
    (inner : Attends (⟨site, scope, s.current, s.nodes.toList⟩ :: stack) later v)
    (grown : world.frames + 1 ≤ later.frames) (around : Around stack site)
    (closed : (Build.closeClosure n).Yields limits v r w) :
    ∃ during captured, later.nodes ⊆ during ∧
      r = (n.declare .captures).relateAll .captures (captured.map (·.address)) ∧
      ∀ last : Node, last.address = site → Ready ⟨during ++ captured, later.frames⟩ last →
        Attends stack ⟨world.nodes ++ (during ++ (captured ++ [last])), later.frames⟩ (w.emit last) := by
  have closures := inner.closures
  generalize top : v.closures = these at closures
  cases closures with
  | @cons _ c _ others here rest =>
      obtain ⟨watched, known⟩ := here
      obtain ⟨report, reported, rfl, rfl⟩ := Build.yields_closeClosure top closed
      have place : report.closure = site := (Tracker.report_closure reported).trans watched.site
      have left := attends.leaveClosure inner ⟨rfl, rfl⟩ grown top
      generalize during_eq : Opening.nodes ⟨site, scope, s.current, s.nodes.toList⟩ v = during at known left
      refine ⟨during, report.captureNodes, known, rfl, fun last closing ready => ?_⟩
      change Attends stack _ ((v.close c.enclosing others report).emit last)
      have added : ((v.close c.enclosing others report).emit last).nodes.toList =
          v.nodes.toList ++ (report.captureNodes ++ [last]) := by
        simp
      refine left.step (report.captureNodes ++ [last]) (forall₂_follows_refl others) added (Nat.le_refl _)
        (fun small r member => ?_) inner.frames ?_ ?_ (fun _ placed => ⟨placed.nested, placed.standing⟩) ?_
      · have listed : r ∈ v.reports.toList ++ [report] := by
          simpa [Session.close, Session.emit] using member
        refine (List.mem_append.mp listed).imp id fun new => ?_
        obtain rfl := List.mem_singleton.mp new
        have accounts := inner.accounts small
        rw [top] at accounts
        refine ⟨during, last, ?_, ?_⟩
        · rw [added, watched.split, during_eq, List.append_assoc]
          exact (List.suffix_append _ _).isInfix
        · rw [← during_eq]
          exact Opening.recounts watched (List.forall₂_cons.mp accounts).1 reported closing
            (during_eq ▸ ready.2)
      · rw [List.append_assoc]
        exact List.Subset.refl _
      · intro o member d d' recent before follows
        have after : o.Watches _ d := before.append added ?_ ?_
        · exact after.follow follows rfl fun _ none => absurd none List.not_mem_nil
        · refine List.forall_mem_append.mpr ⟨fun n captured => ?_, List.forall_mem_singleton.mpr ?_⟩
          · exact Address.isWithin_trans (place ▸ report.captureNodes_isWithin captured) (around o member)
          · exact closing ▸ around o member
        · refine List.forall_mem_append.mpr ⟨fun n captured => report.captureNode_partsAmong captured _,
            List.forall_mem_singleton.mpr (ready.2.mono ?_)⟩
          have inside := (List.append_subset.mp recent).2
          exact List.append_subset.mpr ⟨List.Subset.trans inside (List.subset_append_left _ _),
            List.Subset.trans (List.subset_append_left _ _) (List.subset_append_right _ _)⟩
      · intro _ _ o d d' _ before accounted follows
        refine accounted.append before follows added rfl ?_
        refine List.forall_mem_append.mpr ⟨fun n captured _ named => ?_,
          List.forall_mem_singleton.mpr fun _ named => absurd named.1 ready.1⟩
        exact NodeKind.noConfusion ((ClosureReport.kind_of_mem_captureNodes captured).symm.trans named.1)

end Attends

/-! ## The simulation -/

/-- A build beside itself, its open closures watched. -/
def Coupling.reads (limits : Limits) : Coupling where
  Stack := List Opening
  World := Emitted
  grows v w := v.nodes ⊆ w.nodes ∧ v.frames ≤ w.frames
  limits := limits
  limits' := limits
  like := .same
  session stack world s s' := s = s' ∧ Attends stack world s
  address := Eq
  within := Attends.Around
  node world n n' := n = n' ∧ Attends.Ready world n
  part world a a' := a = a' ∧ ∃ n ∈ world.nodes, n.address = a
  segment world a a' := a = a' ∧ ∃ n ∈ world.nodes, n.address = a ∧ n.kind = .binarySegment
  binding world b b' := b = b' ∧ ∃ p ∈ world.nodes, p.IsNamed .variablePattern b.name
  room := Eq
  varied _ := False
  cut _ := True
  lost _ := True
  fault _ _ := True

namespace Attends

variable {stack : List Opening} {world later : Emitted} {n : Node}

theorem Ready.mono (ready : Ready world n) (subset : world.nodes ⊆ later.nodes) : Ready later n :=
  ⟨ready.1, ready.2.mono subset⟩

/-- What changes neither kind nor links of a node leaves it ready. -/
theorem Ready.congr {m : Node} (ready : Ready world n) (kind : m.kind = n.kind)
    (relations : m.relations = n.relations) : Ready world m := by
  obtain ⟨other, parts⟩ := ready
  have links : m.links = n.links := by
    unfold Node.links
    rw [relations]
  refine ⟨kind ▸ other, ?_⟩
  unfold Node.PartsAmong
  rw [links]
  exact parts

theorem Ready.relate {site : Address} (ready : Ready world n) (role : Role)
    (part : ∃ m ∈ world.nodes, m.address = site) : Ready world (n.relate role site) := by
  refine ⟨ready.1, fun link member structural => ?_⟩
  rcases Node.mem_relate_links member with rfl | old
  · exact part
  · exact ready.2 link old structural

theorem Ready.declare (ready : Ready world n) (role : Role) : Ready world (n.declare role) :=
  ⟨ready.1, fun link member structural => ready.2 link (Node.mem_declare_links member) structural⟩

theorem Ready.relateAll {sites : List Address} (ready : Ready world n) (role : Role)
    (parts : ∀ site ∈ sites, ∃ m ∈ world.nodes, m.address = site) :
    Ready world (n.relateAll role sites) := by
  induction sites generalizing n with
  | nil => exact ready
  | cons site sites ih =>
      exact ih (ready.relate role (parts site List.mem_cons_self)) fun site member =>
        parts site (List.mem_cons_of_mem _ member)

end Attends

/-- The node of a variable has its name, and no parts. -/
theorem Build.variableNode_reads (a : Address) (name : String) (source : Source) :
    let v := (nameNode a .variable name source).set "ignored" (isIgnored name)
    v.address = a ∧ v.IsNamed .variable name ∧ v.links = [] := by
  refine ⟨by simp [nameNode], ⟨by simp [nameNode], ?_⟩, ?_⟩
  · rw [Node.text?_set_of_ne _ _ (by decide)]
    exact (Node.text?_withPosition _ _ (by decide) (by decide)).trans (Node.text?_set_self _ _ _)
  · unfold nameNode
    rw [Node.links, Node.set_relations, Node.withPosition_relations]
    rfl

/-- Every primitive step keeps the open closures watched. -/
def Simulation.reads (limits : Limits) : Simulation where
  toCoupling := .reads limits
  grows_refl world := ⟨List.Subset.refl _, Nat.le_refl _⟩
  grows_trans first second := ⟨List.Subset.trans first.1 second.1, Nat.le_trans first.2 second.2⟩
  node_mono grown related := ⟨related.1, related.2.mono grown.1⟩
  part_mono grown := fun ⟨same, n, member, here⟩ => ⟨same, n, grown.1 member, here⟩
  segment_mono grown := fun ⟨same, n, member, here⟩ => ⟨same, n, grown.1 member, here⟩
  binding_mono grown := fun ⟨same, p, member, named⟩ => ⟨same, p, grown.1 member, named⟩
  address_child := by
    rintro a - label rfl
    rfl
  address_indexed := by
    rintro a - label index rfl
    rfl
  within_child label around o member :=
    Address.isWithin_trans (Address.child_isWithin _ label) (around o member)
  within_indexed label index around o member :=
    Address.isWithin_trans (Address.indexed_isWithin _ label index) (around o member)
  node_address related := congrArg Node.address related.1
  node_make := by
    rintro world a - kind rfl other
    exact ⟨rfl, other, fun _ member => (nomatch member)⟩
  node_set := by
    rintro world n n' name value - ⟨rfl, ready⟩
    exact ⟨rfl, ready.congr rfl rfl⟩
  node_withTags := by
    rintro world n n' tags ⟨rfl, ready⟩
    exact ⟨rfl, ready.congr rfl rfl⟩
  node_withPosition := by
    rintro world n n' position position' ⟨rfl, ready⟩ rfl
    exact ⟨rfl, ready.congr (n.withPosition_kind position) (n.withPosition_relations position)⟩
  node_declare := by
    rintro world n n' role ⟨rfl, ready⟩
    exact ⟨rfl, ready.declare role⟩
  node_relate := by
    rintro world n n' a a' role ⟨rfl, ready⟩ ⟨rfl, part⟩
    exact ⟨rfl, ready.relate role part⟩
  node_varied varied := varied.elim
  varied_indexed free := free
  varied_cut varied := varied.elim
  varied_lost varied := varied.elim
  binding_name related := congrArg Binding.name related.1
  fails_malformed _ _ := .inl trivial
  fails_arity _ _ := .inl trivial
  fails_deep _ := .inl trivial
  room_pred := by
    rintro n - rfl
    rfl
  room_zero := by
    intro n' same
    cases same
  room_succ := by
    intro n same
    cases same
  relates_fanout := by
    intro stack world a a' what count _
    have still : (Coupling.reads limits).grows world world := ⟨List.Subset.refl _, Nat.le_refl _⟩
    exact .fanout (fun _ => trivial) (fun _ => trivial) still a a' what count
  relates_placeholder := by
    rintro stack world a a' source source' index around rfl positions
    have same : source.position = source'.position := positions
    refine .ofYields (fun _ => trivial) (fun _ => trivial) ?_
    rintro s s' _ t _ t' ⟨rfl, attends⟩ first second
    obtain ⟨greatest, rest, seen, rfl⟩ := Build.yields_placeholder first
    obtain ⟨greatest', rest', seen', rfl⟩ := Build.yields_placeholder second
    obtain ⟨rfl, rfl⟩ := List.cons.inj (seen.symm.trans seen')
    rw [← same]
    generalize made : ((Node.make a .capturePlaceholder).withTags [.expression] |>.set "index" index
      |>.withPosition source.position) = n
    have address : n.address = a := made ▸ Node.withPosition_address _ _
    have ready : Attends.Ready world n := by
      have bare : Attends.Ready world (.make a .capturePlaceholder) :=
        ⟨show NodeKind.capturePlaceholder ≠ .variable by decide, fun _ member => (nomatch member)⟩
      exact made ▸ bare.congr (Node.withPosition_kind _ _) (Node.withPosition_relations _ _)
    have counted : Attends stack world { s with placeholders := max greatest index :: rest } :=
      attends.congr rfl rfl rfl (forall₂_follows_refl _) rfl
    subst address
    exact ⟨⟨world.nodes ++ [n], world.frames⟩, ⟨List.subset_append_left _ _, Nat.le_refl _⟩,
      ⟨rfl, counted.emit around ready⟩, rfl, n, List.mem_append_right _ (List.mem_singleton_self _), rfl⟩
  session_emit := by
    rintro stack world n n' s s' around ⟨rfl, ready⟩ ⟨rfl, attends⟩
    have member : n ∈ world.nodes ++ [n] := List.mem_append_right _ (List.mem_singleton_self _)
    refine ⟨⟨world.nodes ++ [n], world.frames⟩, ⟨List.subset_append_left _ _, Nat.le_refl _⟩,
      ⟨rfl, attends.emit around ready⟩, ⟨rfl, n, member, rfl⟩, fun kind => ⟨rfl, n, member, rfl, kind⟩, ?_⟩
    rintro name position - kind named rfl
    exact ⟨rfl, n, member, kind, named⟩
  session_symbol := by
    rintro stack world a a' source source' s s' name around rfl positions ⟨rfl, attends⟩
    have same : source.position = source'.position := positions
    obtain ⟨address, named, leaf⟩ := Build.variableNode_reads a name source
    generalize made : (Build.nameNode a .variable name source).set "ignored" (Build.isIgnored name) = v at *
    rw [show Build.nameNode a .variable name source' = Build.nameNode a .variable name source by
      unfold Build.nameNode; rw [same], made, ← same]
    subst address
    exact ⟨⟨world.nodes ++ [v], world.frames⟩, ⟨List.subset_append_left _ _, Nat.le_refl _⟩,
      ⟨rfl, attends.symbol source.position around named leaf⟩, rfl, v,
      List.mem_append_right _ (List.mem_singleton_self _), rfl⟩
  session_size := by
    rintro stack world a a' position position' s s' name around ⟨rfl, segment⟩ rfl ⟨rfl, attends⟩
    exact ⟨rfl, attends.size position segment⟩
  session_bind := by
    rintro stack world site reads reads' b b' s s' around ⟨rfl, introduced⟩ figures ⟨rfl, attends⟩
    obtain rfl : reads = reads' := Coupling.eq_of_figures id figures
    exact ⟨rfl, attends.bind reads introduced⟩
  session_bound := by
    rintro stack world s s' names ⟨rfl, attends⟩
    exact ⟨rfl, attends.boundByClosure names⟩
  session_diagnose := by
    rintro stack world a a' position position' s s' kind tag rfl rfl ⟨rfl, attends⟩
    exact ⟨rfl, attends.congr rfl rfl rfl (forall₂_follows_refl _) rfl⟩
  session_enter := by
    rintro stack world s s' kind ⟨rfl, attends⟩
    refine ⟨stack, ⟨world.nodes, world.frames + 1⟩, fun _ => id, ⟨List.Subset.refl _, Nat.le_succ _⟩,
      ⟨rfl, attends.enter kind⟩, ?_⟩
    rintro later t t' grown ⟨rfl, inner⟩
    exact ⟨rfl, attends.leave inner grown.2⟩
  session_log := by
    rintro stack world site s s' around ⟨rfl, attends⟩
    refine ⟨stack, world, around, ⟨List.Subset.refl _, Nat.le_refl _⟩,
      ⟨rfl, attends.congr rfl rfl rfl (forall₂_follows_refl _) rfl⟩, ?_⟩
    rintro later t t' - ⟨rfl, inner⟩
    exact ⟨⟨rfl, inner.congr rfl rfl rfl (forall₂_follows_refl _) rfl⟩, .inl rfl⟩
  session_count := by
    rintro stack world site s s' around ⟨rfl, attends⟩
    refine ⟨stack, world, around, ⟨List.Subset.refl _, Nat.le_refl _⟩,
      ⟨rfl, attends.congr rfl rfl rfl (forall₂_follows_refl _) rfl⟩, ?_⟩
    rintro later t t' - ⟨rfl, inner⟩
    exact ⟨⟨rfl, inner.congr rfl rfl rfl (forall₂_follows_refl _) rfl⟩, .inl rfl⟩
  relates_closure := by
    intro α β stack world site site' value m m' opened opened' finish finish' around same inner mono node
      last
    obtain rfl : site = site' := same
    refine .ofYields (fun _ => trivial) (fun _ => trivial) ?_
    rintro s s' _ t _ t' ⟨rfl, attends⟩ first second
    obtain ⟨a, v, n, w, parts, closed, rfl⟩ := Build.yields_closure first
    obtain ⟨b, v', n', w', parts', closed', rfl⟩ := Build.yields_closure second
    obtain ⟨later, grown, ⟨rfl, inside⟩, built⟩ :=
      (inner _ _ (List.forall_mem_cons.mpr ⟨site.isWithin_self, around⟩)).done
        ⟨rfl, attends.openClosure site⟩ parts parts'
    obtain ⟨⟨same, ready⟩, place, -⟩ := node later a b built
    rw [← show opened a = opened' b from same] at closed'
    obtain ⟨rfl, rfl⟩ := closed.deterministic closed'
    obtain ⟨during, captured, known, rfl, close⟩ := attends.close inside grown.2 around closed
    -- The node is finished once its captures stand as well.
    let full : Emitted := ⟨during ++ captured, later.frames⟩
    have subset : later.nodes ⊆ full.nodes := List.Subset.trans known (List.subset_append_left _ _)
    have closing : Attends.Ready full (((opened a).declare .captures).relateAll .captures
        (captured.map (·.address))) := by
      refine ((ready.mono subset).declare .captures).relateAll .captures fun target inTargets => ?_
      obtain ⟨m, member, here⟩ := List.mem_map.mp inTargets
      exact ⟨m, List.mem_append_right _ member, here⟩
    obtain ⟨⟨same', ready'⟩, place', -⟩ := last full a b _ _
      (mono later full a b ⟨subset, Nat.le_refl _⟩ built)
      ⟨⟨rfl, closing⟩, by simp [place], by simp [place]⟩
    rw [← show finish a _ = finish' b _ from same']
    refine ⟨_, ⟨List.subset_append_left _ _, ?_⟩, ⟨rfl, close _ place' ready'⟩, rfl, _, ?_, place'⟩
    · exact Nat.le_trans (Nat.le_succ _) grown.2
    · exact List.mem_append_right _ (List.mem_append_right _ (List.mem_append_right _
        (List.mem_singleton_self _)))

/-! ## Constructs -/

theorem Construct.alike_self (k : Construct) : Likeness.same.Construct k k := by
  cases k with
  | expression root source => exact .expression rfl
  | function root forms => exact .function (Likeness.same_reflexive.forms _ _)
  | pattern root source => exact .pattern rfl

/-- Every report of a construct recounts the nodes of its closure. -/
theorem Compiler.construct_told {c : Compiler} {k : Construct} {t : Session}
    (success : (k.build c).Yields c.limits c.session () t) (small : t.scopes.size ≤ 2 ^ 32)
    (placed : c.session.Placed) {r : ClosureReport} (member : r ∈ t.reports.toList) :
    r.Told t.nodes.toList := by
  have start : Attends [] ⟨[], c.session.scopes.size⟩ c.session :=
    ⟨.nil, rfl, fun _ => placed, fun _ => .nil, fun _ _ none => (nomatch none)⟩
  have related : (Simulation.reads c.limits).Relates [] ⟨[], c.session.scopes.size⟩
      (fun v _ _ => (Simulation.reads c.limits).part v k.root k.root) (k.build c) (k.build c) :=
    Simulation.relates_construct Likeness.same_closed (fun _ _ => .ofNone (fun _ => id) _ _) rfl
      k.alike_self (fun _ none => (nomatch none)) rfl
  obtain ⟨later, -, ⟨-, attends⟩, -⟩ := related.done ⟨rfl, start⟩ success success
  exact attends.reports small r member

/-- The reads that a capture of a closure lists: variables of its name and segments of binaries
inside of the closure, each of them once. -/
structure Capture.Lists (capture : Capture) (closure : Address) (nodes : List Node) : Prop where
  distinct : capture.references.Nodup
  counted : capture.referenceCount = capture.references.length
  reads : ∀ a ∈ capture.references, a.isWithin closure = true ∧ a ≠ closure ∧
    ∃ n ∈ nodes, n.address = a ∧ n.MayRead capture.name

/-- No read of a free name is lost: the captures list it if no pattern of the closure has its
name. -/
structure ClosureReport.Complete (r : ClosureReport) (nodes : List Node) : Prop where
  lists : ∀ capture ∈ r.captures, capture.Lists r.closure nodes
  found : ∀ n ∈ nodes, ∀ name, n.IsNamed .variable name → n.address.isWithin r.closure = true →
    n.address ≠ r.closure →
    (∀ p ∈ nodes, p.address.isWithin r.closure = true → ¬ p.IsNamed .variablePattern name) →
    ∃ capture, r.capture? name = some capture ∧ n.address ∈ capture.references

/-- The reads of a name are among all reads, in order. -/
theorem Moment.readsOf_sublist (moments : List Moment) (name : String) (scope : ScopeId) :
    (moments.flatMap fun m => m.readsOf name scope).Sublist (moments.filterMap Moment.reference?) := by
  induction moments with
  | nil => exact .refl _
  | cons m moments ih =>
      rw [List.flatMap_cons, List.filterMap_cons]
      have here : (m.readsOf name scope).Sublist m.reference?.toList := by
        unfold readsOf
        split
        · exact .refl _
        · exact List.nil_sublist _
      have both := here.append ih
      cases found : m.reference? with
      | none =>
          rw [found] at both
          exact both
      | some a =>
          rw [found] at both
          exact both

/-- No closure notes a read twice. -/
theorem Bracket.references_nodup {limits : Limits} {before after : Session} {inner : Gain}
    {report : ClosureReport} (bracket : Bracket limits before inner after report) {capture : Capture}
    (member : capture ∈ report.captures) : capture.references.Nodup := by
  obtain ⟨slots, course⟩ := bracket.course
  rw [(bracket.records member).references, bracketTracker, Tracker.references_followAll,
    Tracker.use_start]
  exact (Moment.readsOf_sublist _ _ _).nodup course.references_nodup

theorem Bracket.capture?_eq_some {limits : Limits} {before after : Session} {inner : Gain}
    {report : ClosureReport} (bracket : Bracket limits before inner after report) {capture : Capture}
    (member : capture ∈ report.captures) : report.capture? capture.name = some capture := by
  obtain ⟨opened, others, -, reported⟩ := bracket.reported
  have present : (report.capture? capture.name).isSome = true :=
    List.find?_isSome.mpr ⟨capture, member, beq_self_eq_true _⟩
  obtain ⟨found, search⟩ := Option.isSome_iff_exists.mp present
  have matched : (found.name == capture.name) = true :=
    List.find?_some (p := fun other : Capture => other.name == capture.name) search
  rw [search, List.inj_on_of_nodup_map (Tracker.report_names_nodup reported)
    (List.mem_of_find?_eq_some search) member (beq_iff_eq.mp matched)]

/-- In a tree, the nodes inside of a closure are those its report recounts. -/
theorem ClosureReport.Recounts.mem_of_isWithin {limits : Limits} {roots : List Address} {gain : Gain}
    {s t : Session} {r : ClosureReport} {during : List Node} {last : Node}
    (course : Course limits roots gain s t) (recounts : r.Recounts during last)
    (among : during ++ (r.captureNodes ++ [last]) <:+: gain.nodes) {n : Node} (member : n ∈ gain.nodes)
    (within : n.address.isWithin r.closure = true) : n ∈ during ++ (r.captureNodes ++ [last]) :=
  course.reaching.mem_of_isWithin course.forest.distinct among.subset recounts.parts
    (List.mem_append_right _ (List.mem_append_right _ (List.mem_singleton_self last))) member
    (recounts.closing ▸ within)

/-- The node of a closure comes after those inside of it, and has an address of its own. -/
theorem ClosureReport.Recounts.address_ne {limits : Limits} {roots : List Address} {gain : Gain}
    {s t : Session} {r : ClosureReport} {during : List Node} {last : Node}
    (course : Course limits roots gain s t) (recounts : r.Recounts during last)
    (among : during ++ (r.captureNodes ++ [last]) <:+: gain.nodes) {n : Node} (member : n ∈ during) :
    n.address ≠ r.closure := by
  have distinct := (among.sublist.map (·.address)).nodup course.forest.distinct
  rw [List.map_append] at distinct
  have closing : last.address ∈ (r.captureNodes ++ [last]).map (·.address) :=
    List.mem_map.mpr ⟨last, List.mem_append_right _ (List.mem_singleton_self _), rfl⟩
  rw [← recounts.closing]
  exact (List.nodup_append.mp distinct).2.2 n.address (List.mem_map.mpr ⟨n, member, rfl⟩) _ closing

/-- No free read is lost or misattributed. -/
theorem Compiler.construct_complete {c : Compiler} {k : Construct} {compiled : Compiled}
    (h : c.construct k = .ok compiled) (few : c.openedFrames k < 2 ^ 32) :
    ∀ report ∈ compiled.closures, report.Complete compiled.nodes := by
  intro report reported
  obtain ⟨gain, traces⟩ := exists_traces h
  have inGain := traces.report_mem.mp reported
  obtain ⟨t, success, rfl, course, small, placed⟩ := traces.small few
  obtain ⟨before, inner, after, e⟩ := course.bracket placed small inGain
  obtain ⟨during, last, among, recounts⟩ := construct_told success small placed reported
  have nodes : t.nodes.toList = gain.nodes := course.nodes_eq
  have standing : ∀ {n : Node}, n ∈ (finish k.root t).nodes ↔ n ∈ t.nodes.toList :=
    (sortNodes_perm _).mem_iff
  rw [nodes] at among
  have inside : ∀ {n : Node}, n ∈ during → n ∈ (finish k.root t).nodes := fun member =>
    standing.mpr (nodes ▸ among.subset (List.mem_append_left _ member))
  constructor
  · intro capture member
    refine ⟨e.bracket.references_nodup member, rfl, fun a noted => ?_⟩
    obtain ⟨n, hn, rfl, reads⟩ := recounts.references capture member a noted
    exact ⟨recounts.within n hn, recounts.address_ne course among hn, n, inside hn, rfl, reads⟩
  · intro n member name named within strict free
    rw [standing, nodes] at member
    cases List.mem_append.mp (recounts.mem_of_isWithin course among member within) with
    | inl hn =>
        cases recounts.noted n hn name named with
        | inl noted =>
            obtain ⟨capture, inReport, rfl, listed⟩ := noted
            exact ⟨capture, e.bracket.capture?_eq_some inReport, listed⟩
        | inr introduced =>
            obtain ⟨p, hp, pattern⟩ := introduced
            exact absurd pattern (free p (inside hp) (recounts.within p hp))
    | inr hn =>
        cases List.mem_append.mp hn with
        | inl captured =>
            exact NodeKind.noConfusion ((ClosureReport.kind_of_mem_captureNodes captured).symm.trans named.1)
        | inr closing => exact absurd (List.mem_singleton.mp closing ▸ recounts.closing) strict

/-- `fn b -> <<b::size(n), n>> end`, where a size and a variable read `n`. -/
def sizeFromOutside : Construct :=
  .expression ⟨"expr/0"⟩ (.closure [.clause [.symbol "b" .empty] (.form "<<>>" .empty
    [.binary "::" (.symbol "b" .empty) (.form "size" .empty [.symbol "n" .empty]),
      .symbol "n" .empty])])

theorem Compiler.construct_complete_sizeFromOutside :
    ∃ compiled, Compiler.construct ⟨.standard, []⟩ sizeFromOutside = .ok compiled ∧
      Compiler.openedFrames ⟨.standard, []⟩ sizeFromOutside < 2 ^ 32 ∧
      (compiled.closures.map fun report => report.captures.map fun capture =>
        (capture.name, capture.references.map (·.text))) =
          [[("n", ["expr/0/clause/0/body/segment/1/value", "expr/0/clause/0/body/segment/0"])]] ∧
      ∀ report ∈ compiled.closures, report.Complete compiled.nodes := by
  have listed : ((Compiler.construct ⟨.standard, []⟩ sizeFromOutside).toOption.map fun compiled =>
      compiled.closures.map fun report => report.captures.map fun capture =>
        (capture.name, capture.references.map (·.text))) =
          some [[("n", ["expr/0/clause/0/body/segment/1/value", "expr/0/clause/0/body/segment/0"])]] := by
    decide +kernel
  have few : Compiler.openedFrames ⟨.standard, []⟩ sizeFromOutside < 2 ^ 32 := by decide +kernel
  cases success : Compiler.construct ⟨.standard, []⟩ sizeFromOutside with
  | error fault => exact nomatch success ▸ listed
  | ok compiled =>
      rw [success] at listed
      exact ⟨compiled, rfl, few, Option.some.inj listed, Compiler.construct_complete success few⟩

end SyntaxGraph
