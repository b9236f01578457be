import SyntaxGraph.Build.Head
import SyntaxGraph.Proofs.Routes
import SyntaxGraph.Proofs.Yields

/-!
# Assembling nodes along a route

A builder makes a node, builds parts in some roles and points the node at them, and emits
the node last. `Assembly` follows a node on that way: whatever slots it had before, it has
those and new ones in the given roles, and the stretch has built the subtrees in the new
slots. Assemblies in disjoint roles compose, also across frames, so a builder is verified
by naming the roles it fills.

`Level.Sound` is what a level promises about the parts one level down. A pattern also hands
bindings on; `Adds` says that those it adds are introduced by the nodes it adds.
-/

namespace SyntaxGraph

/-- A stretch that builds the subtrees at the given addresses. -/
def Built (limits : Limits) (roots : List Address) (s t : Session) : Prop :=
  ∃ gain, Route limits roots gain s t

namespace Built

variable {limits : Limits} {xs ys : List Address} {s t u : Session}

theorem done (s : Session) : Built limits [] s s := ⟨∅, .done s⟩

theorem next (first : Built limits xs s t) (second : Built limits ys t u)
    (apart : ∀ x ∈ xs, ∀ y ∈ ys, x.Apart y) : Built limits (xs ++ ys) s u := by
  obtain ⟨g, first⟩ := first
  obtain ⟨k, second⟩ := second
  exact ⟨g ++ k, .next first second apart⟩

/-- Nothing is built before or after. -/
theorem andThen (first : Built limits xs s t) (second : Built limits [] t u) :
    Built limits xs s u := by
  have both := first.next second (fun _ _ _ member => (nomatch member))
  rwa [List.append_nil] at both

theorem after (first : Built limits [] s t) (second : Built limits xs t u) : Built limits xs s u :=
  first.next second (fun _ member => (nomatch member))

theorem framed {kind : ScopeKind} (inner : Built limits xs (s.enter kind) t) :
    Built limits xs s { t with current := s.current } := by
  obtain ⟨g, inner⟩ := inner
  exact ⟨g, .framed inner⟩

theorem leaf (limits : Limits) (s : Session) {node : Node} (holds : node.Holds []) :
    Built limits [node.address] s (s.emit node) :=
  ⟨_, .node (.done s) holds⟩

/-- What is built runs along a course. -/
theorem course (built : Built limits xs s t) : ∃ gain, Course limits xs gain s t := by
  obtain ⟨gain, route⟩ := built
  exact ⟨gain, route.course⟩

end Built

/-- A stretch adds nodes, and the bindings handed on grow by such as those nodes introduce. -/
def Adds (s t : Session) (bindings found : Bindings) : Prop :=
  ∃ new, t.nodes.toList = s.nodes.toList ++ new ∧ ∀ b ∈ found, b ∈ bindings ∨ b.Introduced new

namespace Adds

variable {limits : Limits} {xs : List Address} {s t u : Session} {bindings more found : Bindings}

theorem refl (s : Session) (bindings : Bindings) : Adds s s bindings bindings :=
  ⟨[], (List.append_nil _).symm, fun _ member => .inl member⟩

theorem trans (first : Adds s t bindings more) (second : Adds t u more found) :
    Adds s u bindings found := by
  obtain ⟨new, nodes, each⟩ := first
  obtain ⟨new', nodes', each'⟩ := second
  refine ⟨new ++ new', by rw [nodes', nodes, List.append_assoc], fun b member => ?_⟩
  rcases each' b member with old | introduced
  · rcases each b old with older | introduced
    · exact .inl older
    · exact .inr (introduced.mono (List.subset_append_left _ _))
  · exact .inr (introduced.mono (List.subset_append_right _ _))

/-- Bindings that a stretch does not touch. -/
theorem ofBuilt (built : Built limits xs s t) (bindings : Bindings) : Adds s t bindings bindings := by
  obtain ⟨gain, course⟩ := built.course
  exact ⟨gain.nodes, course.nodes_eq, fun _ member => .inl member⟩

theorem emit (adds : Adds s t bindings found) (node : Node) : Adds s (t.emit node) bindings found := by
  refine adds.trans ⟨[node], Session.emit_nodes t node, fun _ member => .inl member⟩

/-- Reads add no node. -/
theorem readAll (adds : Adds s t bindings found) (reads : List (String × Address))
    (position : Option Position) :
    Adds s (reads.foldl (fun s read => s.readSymbol read.1 read.2 position) t) bindings found := by
  induction reads generalizing t with
  | nil => exact adds
  | cons read reads ih => exact ih (t := t.readSymbol read.1 read.2 position) adds

/-- Where nothing was bound before, the nodes of the route introduce all that is bound. -/
theorem introduced {gain : Gain} (adds : Adds s t [] found) (route : Route limits xs gain s t) :
    ∀ b ∈ found, b.Introduced gain.nodes := by
  obtain ⟨new, nodes, each⟩ := adds
  rw [route.course.nodes_eq] at nodes
  intro b member
  rw [List.append_cancel_left nodes]
  exact (each b member).resolve_left List.not_mem_nil

end Adds

/-- A part that is built in a frame of its own. -/
def BuiltInFrame (limits : Limits) (site : Address) (s t : Session) : Prop :=
  ∃ kind u, Built limits [site] (s.enter kind) u ∧ t = { u with current := s.current }

theorem BuiltInFrame.built {limits : Limits} {site : Address} {s t : Session}
    (h : BuiltInFrame limits site s t) : Built limits [site] s t := by
  obtain ⟨kind, u, inner, rfl⟩ := h
  exact inner.framed

/-- A node on its way: it gains slots in the given roles, and their subtrees are built. -/
structure Assembly (limits : Limits) (roles : List Role) (node : Node) (s : Session)
    (result : Node) (t : Session) : Prop where
  address : result.address = node.address
  fills : ∀ held, node.Holds held → (∀ slot ∈ held, slot.1 ∉ roles) →
    ∃ added, result.Holds (held ++ added) ∧ (∀ slot ∈ added, slot.1 ∈ roles) ∧
      Built limits (added.map node.address.at) s t

namespace Assembly

variable {limits : Limits} {roles more : List Role} {node middle result : Node} {s t u : Session}

/-- Nothing is added by what keeps filled slots as they are. -/
theorem same (address : result.address = node.address)
    (holds : ∀ held, node.Holds held → result.Holds held) :
    Assembly limits [] node s result s := by
  refine ⟨address, fun held before _ => ⟨[], ?_, fun _ member => (nomatch member), .done s⟩⟩
  rw [List.append_nil]
  exact holds held before

theorem refl (node : Node) (s : Session) : Assembly limits [] node s node s :=
  same rfl fun _ holds => holds

theorem set (node : Node) (name : String) (value : Property) :
    Assembly limits [] node s (node.set name value) s :=
  same rfl fun _ holds => holds.set name value

theorem declare (node : Node) (role : Role) : Assembly limits [] node s (node.declare role) s :=
  same rfl fun _ holds => holds.declare role

theorem withPosition (node : Node) (position : Option Position) :
    Assembly limits [] node s (node.withPosition position) s :=
  same (node.withPosition_address position) fun _ holds => holds.withPosition position

/-- Assemblies in different roles compose. -/
theorem trans (first : Assembly limits roles node s middle t)
    (second : Assembly limits more middle t result u) (disjoint : ∀ role ∈ roles, role ∉ more) :
    Assembly limits (roles ++ more) node s result u := by
  refine ⟨second.address.trans first.address, fun held before free => ?_⟩
  obtain ⟨a, holds, roleOf, built⟩ := first.fills held before fun slot member role =>
    free slot member (List.mem_append_left _ role)
  have free' : ∀ slot ∈ held ++ a, slot.1 ∉ more := by
    intro slot member
    rcases List.mem_append.mp member with old | new
    · exact fun role => free slot old (List.mem_append_right _ role)
    · exact disjoint slot.1 (roleOf slot new)
  obtain ⟨b, holds', roleOf', built'⟩ := second.fills (held ++ a) holds free'
  rw [List.append_assoc] at holds'
  refine ⟨a ++ b, holds', ?_, ?_⟩
  · intro slot member
    rcases List.mem_append.mp member with old | new
    · exact List.mem_append_left _ (roleOf slot old)
    · exact List.mem_append_right _ (roleOf' slot new)
  · rw [List.map_append]
    rw [first.address] at built'
    refine built.next built' ?_
    intro x hx y hy
    obtain ⟨p, hp, rfl⟩ := List.mem_map.mp hx
    obtain ⟨q, hq, rfl⟩ := List.mem_map.mp hy
    have apart := (List.pairwise_append.mp (List.pairwise_append.mp holds'.apart).2.1).2.2
    exact node.address.at_apart (apart p hp q hq)

/-- What fills no slot may follow any assembly. -/
theorem adjust (first : Assembly limits roles node s middle t)
    (second : Assembly limits [] middle t result u) : Assembly limits roles node s result u := by
  have both := first.trans second fun _ _ member => (nomatch member)
  rwa [List.append_nil] at both

theorem weaken (assembly : Assembly limits roles node s result t) (subset : roles ⊆ more) :
    Assembly limits more node s result t := by
  refine ⟨assembly.address, fun held before free => ?_⟩
  obtain ⟨added, holds, roleOf, built⟩ := assembly.fills held before fun slot member role =>
    free slot member (subset role)
  exact ⟨added, holds, fun slot member => subset (roleOf slot member), built⟩

theorem framed {kind : ScopeKind} (inner : Assembly limits roles node (s.enter kind) result t) :
    Assembly limits roles node s result { t with current := s.current } := by
  refine ⟨inner.address, fun held before free => ?_⟩
  obtain ⟨added, holds, roleOf, built⟩ := inner.fills held before free
  exact ⟨added, holds, roleOf, built.framed⟩

/-- The bindings of a head enter the frame after its patterns. -/
theorem headed {bindings : Bindings} (assembly : Assembly limits roles node s result t)
    (adds : Adds s t [] bindings) :
    Assembly limits roles node s result (bindings.foldl (fun s b => s.bindSymbol none b) t) := by
  refine ⟨assembly.address, fun held before free => ?_⟩
  obtain ⟨added, holds, roleOf, gain, route⟩ := assembly.fills held before free
  exact ⟨added, holds, roleOf, gain, route.headed (adds.introduced route)⟩

theorem andThen (first : Assembly limits roles node s result t) (second : Built limits [] t u) :
    Assembly limits roles node s result u := by
  refine ⟨first.address, fun held before free => ?_⟩
  obtain ⟨added, holds, roleOf, built⟩ := first.fills held before free
  exact ⟨added, holds, roleOf, built.andThen second⟩

/-- An assembly that binds nothing. -/
theorem adds (assembly : Assembly limits roles node s result t) (fresh : node.Holds [])
    (bindings : Bindings) : Adds s t bindings bindings := by
  obtain ⟨added, -, -, built⟩ := assembly.fills [] fresh fun _ member => (nomatch member)
  exact .ofBuilt built bindings

/-- An assembled node is emitted, and the whole subtree is built. -/
theorem emit (assembly : Assembly limits roles node s result t) (fresh : node.Holds []) :
    Built limits [node.address] s (t.emit result) := by
  obtain ⟨added, holds, -, gain, route⟩ :=
    assembly.fills [] fresh fun _ member => (nomatch member)
  rw [← assembly.address] at route ⊢
  exact ⟨_, .node route holds⟩

/-- A part in a role of its own. -/
theorem single (node : Node) (role : Role) (structural : role.isStructural = true)
    (built : Built limits [node.address.at (role, none)] s t) :
    Assembly limits [role] node s (node.relate role (node.address.at (role, none))) t := by
  refine ⟨rfl, fun held before free => ⟨[(role, none)], ?_, ?_, by simpa using built⟩⟩
  · have distinct : ∀ slot ∈ held, slot.1 ≠ role := fun slot member same =>
      free slot member (List.mem_singleton.mpr same)
    exact before.relate (role, none) structural
      (fun slot member => .inl (distinct slot member)) (.inr distinct)
  · intro slot member
    exact List.mem_singleton.mpr (congrArg Prod.fst (List.mem_singleton.mp member))

/-- Parts at the positions of one role. -/
theorem numbered (role : Role) {count : Nat} (structural : role.isStructural = true)
    (ordered : role.isOrdered = true)
    (built : Built limits ((Slot.numbered role 0 count).map node.address.at) s t) :
    Assembly limits [role] node s
      ((node.declare role).relateAll role ((Slot.numbered role 0 count).map node.address.at)) t := by
  refine ⟨by simp, fun held before free => ⟨Slot.numbered role 0 count, ?_, ?_, built⟩⟩
  · refine (before.declare role).relateAll role _ structural ordered
      (fun slot member => Slot.role_of_mem_numbered member) (Slot.numbered_apart role 0 count) ?_
    intro slot member new hnew
    refine .inl fun same => free slot member (List.mem_singleton.mpr ?_)
    rw [same, Slot.role_of_mem_numbered hnew]
  · intro slot member
    exact List.mem_singleton.mpr (Slot.role_of_mem_numbered member)

end Assembly

/-- What is built at a level runs along a route, and patterns introduce what they bind. -/
structure Level.Sound (level : Level) : Prop where
  expression : ∀ {limits site source s t},
    (level.expression site source).Yields limits s () t → Built limits [site] s t
  binding : ∀ {limits site source bindings result s t},
    (level.pattern site source bindings).Yields limits s result t →
    Built limits [site] s t ∧ Adds s t bindings result

/-- Bindings that patterns had introduced before stay introduced. -/
theorem Level.Sound.pattern {level : Level} (sound : level.Sound) {limits : Limits} {site : Address}
    {source : Source} {bindings result : Bindings} {s t : Session}
    (introduces : ∀ b ∈ bindings, b.Introduced s.nodes.toList)
    (h : (level.pattern site source bindings).Yields limits s result t) :
    Built limits [site] s t ∧ ∀ b ∈ result, b.Introduced t.nodes.toList := by
  obtain ⟨built, new, nodes, each⟩ := sound.binding h
  refine ⟨built, fun b member => ?_⟩
  rw [nodes]
  rcases each b member with old | introduced
  · exact (introduces b old).mono (List.subset_append_left _ _)
  · exact introduced.mono (List.subset_append_right _ _)

namespace Build

variable {limits : Limits} {level : Level} {node result : Node} {role : Role} {s t : Session}

theorem child_assembly (sound : level.Sound) {source : Source}
    (h : (level.child node role source).Yields limits s result t)
    (structural : role.isStructural = true) :
    Assembly limits [role] node s result t := by
  obtain ⟨inner, rfl⟩ := yields_child h
  exact .single node role structural (sound.expression inner)

theorem optionalChild_assembly (sound : level.Sound) {source : Option Source}
    (h : (optionalChild level node role source).Yields limits s result t)
    (structural : role.isStructural = true) :
    Assembly limits [role] node s result t := by
  cases source with
  | none =>
      obtain ⟨rfl, rfl⟩ := yields_pure h
      exact (Assembly.refl node s).weaken (List.nil_subset _)
  | some source => exact child_assembly sound h structural

/-- Parts at numbered addresses, with an invariant of the value that is handed on. -/
theorem foldParts_built {α β : Type} {build : Address → α → β → Build β}
    {site : Address} {index : Nat} {parts : List α} {value : β} {found : List Address × β}
    (invariant : Session → β → Prop)
    (step : ∀ address, ∀ part ∈ parts, ∀ s value t value', invariant s value →
      (build address part value).Yields limits s value' t →
      Built limits [address] s t ∧ invariant t value')
    (start : invariant s value)
    (h : (foldParts site role build index parts value).Yields limits s found t) :
    found.1 = (Slot.numbered role index parts.length).map site.at ∧
      Built limits ((Slot.numbered role index parts.length).map site.at) s t ∧
      invariant t found.2 := by
  induction parts generalizing index value s found with
  | nil =>
      obtain ⟨rfl, rfl⟩ := yields_foldParts_nil h
      exact ⟨rfl, .done s, start⟩
  | cons part parts ih =>
      obtain ⟨middle, addresses, u, first, others, addressed⟩ := yields_foldParts_cons h
      obtain ⟨built, kept⟩ := step _ part List.mem_cons_self _ _ _ _ start first
      obtain ⟨same, built', kept'⟩ := ih
        (fun address part member => step address part (List.mem_cons_of_mem _ member)) kept others
      rw [List.length_cons, Slot.numbered_succ, List.map_cons]
      refine ⟨by rw [addressed, ← same]; rfl, built.next built' ?_, kept'⟩
      intro x hx y hy
      rw [List.mem_singleton.mp hx]
      obtain ⟨slot, member, rfl⟩ := List.mem_map.mp hy
      obtain ⟨position, low, -, rfl⟩ := Slot.mem_numbered.mp member
      exact site.at_apart (p := (role, some index)) (.inr ⟨index, position, rfl, rfl, by omega⟩)

theorem eachPart_built {α : Type} {build : Address → α → Build Unit} {site : Address}
    {parts : List α} {addresses : List Address}
    (step : ∀ address, ∀ part ∈ parts, ∀ s t, (build address part).Yields limits s () t →
      Built limits [address] s t)
    (h : (eachPart site role build parts).Yields limits s addresses t) :
    addresses = (Slot.numbered role 0 parts.length).map site.at ∧
      Built limits ((Slot.numbered role 0 parts.length).map site.at) s t := by
  obtain ⟨same, built, -⟩ := foldParts_built (fun _ _ => True)
    (fun address part member s _ t _ _ inner => ⟨step address part member s t inner, trivial⟩)
    trivial (yields_eachPart h)
  exact ⟨same, built⟩

/-- Parts at the positions of one role, built each by itself. -/
theorem eachPart_assembly {α : Type} {build : Address → α → Build Unit} {parts : List α}
    {addresses : List Address}
    (step : ∀ address, ∀ part ∈ parts, ∀ s t, (build address part).Yields limits s () t →
      Built limits [address] s t)
    (h : (eachPart node.address role build parts).Yields limits s addresses t)
    (structural : role.isStructural = true) (ordered : role.isOrdered = true) :
    Assembly limits [role] node s ((node.declare role).relateAll role addresses) t := by
  obtain ⟨rfl, built⟩ := eachPart_built step h
  exact .numbered role structural ordered built

/-- A node in place of a tree that nothing recognised. -/
theorem unknown_built {site : Address} {tag : String} {position : Option Position} {u : Unit}
    (h : (unknown site tag position).Yields limits s u t) : Built limits [site] s t := by
  obtain ⟨_, s₁, emitted, last⟩ := yields_bind h
  obtain rfl := yields_emit emitted
  obtain rfl := yields_modify last
  have leaf := Built.leaf limits s
    ((((Node.Holds.make site .unknownExpression).withTags [.expression]).set "original_tag"
      tag).withPosition position)
  rw [Node.withPosition_address] at leaf
  exact leaf.andThen ⟨_, .diagnose _ _⟩

end Build

end SyntaxGraph
