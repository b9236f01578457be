import SyntaxGraph.Proofs.Frames

/-!
# Chains of frames and what they supply

Three walks start from the frame around a closure: one lists the frames, one finds the
frame that supplies a symbol, and a look-up answers with the innermost binding. All three
meet the same frames in the same order. `Walk` names that row of frames, and each of the
three is a search along it, so that a supply can be read off the list of frames and is
what the look-up answers.
-/

namespace SyntaxGraph

namespace Scopes

variable {g h : Scopes} {fault : Fault} {name : String} {scope ancestor : ScopeId}
  {path : List (ScopeId × Frame)}

/-- The row of frames from one outwards. -/
inductive Walk (g : Scopes) : ScopeId → List (ScopeId × Frame) → Prop where
  | missing {scope : ScopeId} (absent : g.frame? scope = none) : Walk g scope []
  | outermost {scope : ScopeId} {frame : Frame} (present : g.frame? scope = some frame)
      (last : frame.parent = none) : Walk g scope [(scope, frame)]
  | further {scope parent : ScopeId} {frame : Frame} {path : List (ScopeId × Frame)}
      (present : g.frame? scope = some frame) (around : frame.parent = some parent)
      (rest : Walk g parent path) : Walk g scope ((scope, frame) :: path)

/-- What a frame on a walk is listed as. -/
def summarize (entry : ScopeId × Frame) : FrameSummary :=
  ⟨entry.1, entry.2.kind, entry.2.bindings.keys⟩

/-- The first frame of a walk that binds a name, `distance` frames having been passed. -/
def supplyAlong (name : String) : Nat → List (ScopeId × Frame) → Option Supply
  | _, [] => none
  | distance, (scope, frame) :: path =>
    match frame.bindings.get? name with
    | some binding => some ⟨scope, frame.kind, distance, binding.node⟩
    | none => supplyAlong name (distance + 1) path

/-- The innermost binding of a name along a walk. -/
def lookupAlong (name : String) (path : List (ScopeId × Frame)) : Option (ScopeId × Binding) :=
  path.findSome? fun entry => (entry.2.bindings.get? name).map fun binding => (entry.1, binding)

/-- Whatever lists the frames has walked them all. -/
theorem summariesWithin_walk {room : Nat} {chain : List FrameSummary}
    (listed : g.summariesWithin fault room scope = .ok chain) :
    ∃ path, g.Walk scope path ∧ chain = path.map summarize := by
  induction room generalizing scope chain with
  | zero => cases listed
  | succ room ih =>
      rw [summariesWithin] at listed
      cases found : g.frame? scope with
      | none =>
          rw [found] at listed
          exact ⟨[], .missing found, (Except.ok.inj listed).symm⟩
      | some frame =>
          rw [found] at listed
          dsimp only at listed
          cases around : frame.parent with
          | none =>
              rw [around] at listed
              exact ⟨_, .outermost found around, (Except.ok.inj listed).symm⟩
          | some parent =>
              rw [around] at listed
              dsimp only at listed
              cases others : g.summariesWithin fault room parent with
              | error fault =>
                  rw [others] at listed
                  cases listed
              | ok rest =>
                  rw [others] at listed
                  obtain ⟨path, walk, rfl⟩ := ih others
                  exact ⟨_, .further found around walk, (Except.ok.inj listed).symm⟩

theorem supplyWithin_walk {room distance : Nat} {found : Option Supply} (walk : g.Walk scope path)
    (supplied : g.supplyWithin fault name room distance scope = .ok found) :
    found = supplyAlong name distance path := by
  induction walk generalizing room distance with
  | missing absent =>
      cases room with
      | zero => cases supplied
      | succ room =>
          rw [supplyWithin, absent] at supplied
          exact (Except.ok.inj supplied).symm
  | @outermost scope frame present last =>
      cases room with
      | zero => cases supplied
      | succ room =>
          rw [supplyWithin, present] at supplied
          dsimp only at supplied
          rw [supplyAlong]
          cases bound : frame.bindings.get? name with
          | some binding =>
              rw [bound] at supplied
              exact (Except.ok.inj supplied).symm
          | none =>
              rw [bound, last] at supplied
              exact (Except.ok.inj supplied).symm
  | @further scope parent frame path present around rest ih =>
      cases room with
      | zero => cases supplied
      | succ room =>
          rw [supplyWithin, present] at supplied
          dsimp only at supplied
          rw [supplyAlong]
          cases bound : frame.bindings.get? name with
          | some binding =>
              rw [bound] at supplied
              exact (Except.ok.inj supplied).symm
          | none =>
              rw [bound, around] at supplied
              exact ih supplied

/-- The supply found along a walk is the first frame of it that binds the name. -/
theorem supplyAlong_eq_some {distance : Nat} {supply : Supply}
    (found : supplyAlong name distance path = some supply) :
    ∃ frame binding, distance ≤ supply.distance ∧
      path[supply.distance - distance]? = some (supply.scope, frame) ∧
      frame.kind = supply.kind ∧ frame.bindings.get? name = some binding ∧
      binding.node = supply.binding ∧ lookupAlong name path = some (supply.scope, binding) ∧
      ∀ i < supply.distance - distance, ∀ entry, path[i]? = some entry →
        entry.2.bindings.get? name = none := by
  induction path generalizing distance with
  | nil => cases found
  | cons entry path ih =>
      obtain ⟨scope, frame⟩ := entry
      unfold supplyAlong at found
      split at found
      · rename_i binding bound
        obtain rfl := Option.some.inj found
        refine ⟨frame, binding, Nat.le_refl _, by simp, rfl, bound, rfl, by simp [lookupAlong, bound], ?_⟩
        intro i less
        exact absurd less (by simp)
      · rename_i free
        obtain ⟨frame', binding, passed, here, kind, bound, node, answer, before⟩ := ih found
        have position : supply.distance - distance = (supply.distance - (distance + 1)) + 1 := by omega
        refine ⟨frame', binding, by omega, ?_, kind, bound, node, ?_, ?_⟩
        · rw [position, List.getElem?_cons_succ]
          exact here
        · rw [← answer]
          simp [lookupAlong, free]
        · intro i less entry position'
          cases i with
          | zero =>
              obtain rfl := Option.some.inj position'
              exact free
          | succ i => exact before i (by omega) entry position'

theorem supplyAlong_eq_none {distance : Nat} (found : supplyAlong name distance path = none) :
    (∀ entry ∈ path, entry.2.bindings.get? name = none) ∧ lookupAlong name path = none := by
  induction path generalizing distance with
  | nil => exact ⟨fun _ member => (nomatch member), rfl⟩
  | cons entry path ih =>
      obtain ⟨scope, frame⟩ := entry
      unfold supplyAlong at found
      split at found
      · cases found
      · rename_i free
        obtain ⟨rest, answer⟩ := ih found
        refine ⟨List.forall_mem_cons.mpr ⟨free, rest⟩, ?_⟩
        rw [← answer]
        simp [lookupAlong, free]

theorem lookupLocal_of_frame? {frame : Frame} (present : g.frame? scope = some frame) :
    g.lookupLocal scope name = frame.bindings.get? name := by
  rw [lookupLocal, present]
  rfl

theorem parent?_of_frame? {frame : Frame} (present : g.frame? scope = some frame) :
    g.parent? scope = frame.parent := by
  rw [parent?, present]
  rfl

namespace Walk

/-- A look-up is the search along the walk. -/
theorem lookup (walk : g.Walk scope path) (nested : g.Nested) (standing : scope.index < g.size) :
    g.lookup scope name = lookupAlong name path := by
  induction walk with
  | missing absent =>
      have beyond := frame?_eq_none_iff.mp absent
      omega
  | @outermost scope frame present last =>
      rw [lookup_eq nested standing, lookupLocal_of_frame? present, parent?_of_frame? present, last]
      cases bound : frame.bindings.get? name <;> simp [lookupAlong, bound]
  | @further scope parent frame path present around rest ih =>
      have up : g.parent? scope = some parent := (parent?_of_frame? present).trans around
      have smaller := nested.lt up
      rw [lookup_eq nested standing, lookupLocal_of_frame? present, up, Option.bind_some,
        ih (by omega)]
      cases bound : frame.bindings.get? name <;> simp [lookupAlong, bound]

/-- The frames of a walk are those around its start. -/
theorem mem_iff_inside (walk : g.Walk scope path) (nested : g.Nested)
    (standing : scope.index < g.size) :
    (∃ frame, (ancestor, frame) ∈ path) ↔ g.Inside scope ancestor := by
  induction walk with
  | missing absent =>
      have beyond := frame?_eq_none_iff.mp absent
      omega
  | @outermost scope frame present last =>
      constructor
      · rintro ⟨found, member⟩
        obtain ⟨rfl, -⟩ := Prod.mk.inj (List.mem_singleton.mp member)
        exact .here _
      · intro inside
        cases inside with
        | here _ => exact ⟨frame, List.mem_singleton_self _⟩
        | further up _ =>
            rw [parent?_of_frame? present, last] at up
            cases up
  | @further scope parent frame path present around rest ih =>
      have up : g.parent? scope = some parent := (parent?_of_frame? present).trans around
      have smaller := nested.lt up
      constructor
      · rintro ⟨found, member⟩
        rcases List.mem_cons.mp member with here | later
        · obtain ⟨rfl, -⟩ := Prod.mk.inj here
          exact .here _
        · exact .further up ((ih (by omega)).mp ⟨found, later⟩)
      · intro inside
        by_cases same : scope = ancestor
        · exact ⟨frame, same ▸ List.mem_cons_self⟩
        · obtain ⟨found, member⟩ := (ih (by omega)).mpr (inside.of_ne same up)
          exact ⟨found, List.mem_cons_of_mem _ member⟩

/-- Every frame of a walk stands in the graph. -/
theorem frame?_of_mem (walk : g.Walk scope path) {entry : ScopeId × Frame} (member : entry ∈ path) :
    g.frame? entry.1 = some entry.2 := by
  induction walk with
  | missing _ => cases member
  | outermost present _ =>
      obtain rfl := List.mem_singleton.mp member
      exact present
  | further present _ _ ih =>
      rcases List.mem_cons.mp member with rfl | later
      · exact present
      · exact ih later

end Walk

/-! ## The two results that reports rest on -/

/-- The supply of a name, read off the list of frames around. -/
def Listed (chain : List FrameSummary) (name : String) : Option Supply → Prop
  | some supply =>
    (∃ summary, chain[supply.distance]? = some summary ∧ summary.scope = supply.scope ∧
      summary.kind = supply.kind ∧ name ∈ summary.symbols) ∧
    ∀ i < supply.distance, ∀ summary, chain[i]? = some summary → name ∉ summary.symbols
  | none => ∀ summary ∈ chain, name ∉ summary.symbols

/-- The walk for a supply and the list of frames agree. -/
theorem supply_listed {maxDepth : Nat} {site : Address} {chain : List FrameSummary}
    {found : Option Supply} (listed : g.summaries maxDepth site scope = .ok chain)
    (supplied : g.supply maxDepth site scope name = .ok found) : Listed chain name found := by
  obtain ⟨path, walk, rfl⟩ := summariesWithin_walk listed
  obtain rfl := supplyWithin_walk walk supplied
  have symbols : ∀ entry : ScopeId × Frame, name ∈ (summarize entry).symbols ↔
      (entry.2.bindings.get? name).isSome = true :=
    fun entry => entry.2.bindings.mem_keys_iff name
  cases search : supplyAlong name 0 path with
  | none =>
      intro summary member
      obtain ⟨entry, inPath, rfl⟩ := List.mem_map.mp member
      rw [symbols, (supplyAlong_eq_none search).1 entry inPath]
      exact Bool.false_ne_true
  | some supply =>
      obtain ⟨frame, binding, -, here, kind, bound, -, -, before⟩ := supplyAlong_eq_some search
      refine ⟨⟨summarize (supply.scope, frame), ?_, rfl, kind, ?_⟩, ?_⟩
      · rw [List.getElem?_map, ← Nat.sub_zero supply.distance, here]
        rfl
      · rw [symbols, bound]
        rfl
      · intro i less summary position
        rw [List.getElem?_map] at position
        obtain ⟨entry, inPath, rfl⟩ := Option.map_eq_some_iff.mp position
        rw [symbols, before i (by omega) entry inPath]
        exact Bool.false_ne_true

/-- A supply is what a look-up answers. -/
theorem supply_lookup {maxDepth : Nat} {site : Address} {found : Option Supply}
    {chain : List FrameSummary} (nested : g.Nested) (standing : scope.index < g.size)
    (listed : g.summaries maxDepth site scope = .ok chain)
    (supplied : g.supply maxDepth site scope name = .ok found) :
    (found.map fun supply => (supply.scope, supply.binding)) =
        ((g.lookup scope name).map fun answer => (answer.1, answer.2.node)) ∧
      ∀ supply, found = some supply → g.kind? supply.scope = some supply.kind := by
  obtain ⟨path, walk, rfl⟩ := summariesWithin_walk listed
  obtain rfl := supplyWithin_walk walk supplied
  rw [walk.lookup nested standing]
  cases search : supplyAlong name 0 path with
  | none =>
      rw [(supplyAlong_eq_none search).2]
      exact ⟨rfl, fun _ absurd => (nomatch absurd)⟩
  | some supply =>
      obtain ⟨frame, binding, -, here, kind, bound, node, answer, -⟩ := supplyAlong_eq_some search
      rw [answer]
      refine ⟨by simp [node], ?_⟩
      rintro _ ⟨⟩
      have present := walk.frame?_of_mem (List.mem_of_getElem? here)
      rw [kind?, present]
      exact congrArg some kind

/-- A supply names a binding of its frame. -/
theorem supply_bound {maxDepth : Nat} {site : Address} {supply : Supply}
    {chain : List FrameSummary} (listed : g.summaries maxDepth site scope = .ok chain)
    (supplied : g.supply maxDepth site scope name = .ok (some supply)) :
    ∃ frame binding, g.frame? supply.scope = some frame ∧
      frame.bindings.get? name = some binding ∧ binding.node = supply.binding := by
  obtain ⟨path, walk, rfl⟩ := summariesWithin_walk listed
  obtain ⟨frame, binding, -, here, -, bound, node, -⟩ :=
    supplyAlong_eq_some (supplyWithin_walk walk supplied).symm
  exact ⟨frame, binding, walk.frame?_of_mem (List.mem_of_getElem? here), bound, node⟩

/-- The list holds exactly the frames around. -/
theorem mem_summaries_iff {maxDepth : Nat} {site : Address} {chain : List FrameSummary}
    (nested : g.Nested) (standing : scope.index < g.size)
    (listed : g.summaries maxDepth site scope = .ok chain) :
    ancestor ∈ chain.map (·.scope) ↔ g.Inside scope ancestor := by
  obtain ⟨path, walk, rfl⟩ := summariesWithin_walk listed
  rw [← walk.mem_iff_inside nested standing, List.map_map]
  constructor
  · intro member
    obtain ⟨⟨scope, frame⟩, inPath, rfl⟩ := List.mem_map.mp member
    exact ⟨frame, inPath⟩
  · rintro ⟨frame, inPath⟩
    exact List.mem_map.mpr ⟨(ancestor, frame), inPath, rfl⟩

end Scopes

end SyntaxGraph
