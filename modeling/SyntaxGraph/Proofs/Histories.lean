import SyntaxGraph.Proofs.Passages
import SyntaxGraph.Proofs.Tally
import SyntaxGraph.Proofs.Twins

/-!
# Scope graphs and their histories

A graph of frames starts with the module frame. Frames are opened inside of ones that stand, and
bindings are recorded in between. `Reached` follows such a history and keeps a log of what was
recorded, so that the binding a frame has for a name is the last one of the log.

Frames that are opened this way form a tree with the module frame at its root. Every walk outwards
then meets the frames of one row. The walks without a bound end by themselves, and those with a
bound fail exactly if the row, or the part of it up to the frame that binds the name, does not fit
into the bound.
-/

namespace SyntaxGraph

namespace Scopes

/-- The graphs that a history leads to, with the bindings it recorded, the latest one first. A
binding for a frame that does not stand is not recorded anywhere. -/
inductive Reached : Scopes → List (ScopeId × Binding) → Prop where
  | new : Reached initial []
  | add {g : Scopes} {log : List (ScopeId × Binding)} {parent : ScopeId} (kind : ScopeKind)
      (before : Reached g log) (inside : parent.index < g.size) : Reached (g.add parent kind) log
  | bind {g : Scopes} {log : List (ScopeId × Binding)} {scope : ScopeId} (binding : Binding)
      (before : Reached g log) (standing : scope.index < g.size) :
      Reached (g.bind scope binding) ((scope, binding) :: log)
  | miss {g : Scopes} {log : List (ScopeId × Binding)} {scope : ScopeId} (binding : Binding)
      (before : Reached g log) (absent : g.size ≤ scope.index) : Reached (g.bind scope binding) log

/-- The binding that was recorded last for a name in a frame. -/
def lastRecorded (log : List (ScopeId × Binding)) (scope : ScopeId) (name : String) : Option Binding :=
  (log.find? fun entry => entry.1 == scope && entry.2.name == name).map (·.2)

variable {g : Scopes} {log : List (ScopeId × Binding)} {scope parent ancestor : ScopeId}
  {kind : ScopeKind} {name : String} {binding : Binding} {fault : Fault}
  {path : List (ScopeId × Frame)} {room distance fuel maxDepth : Nat} {site : Address}

/-! ## What a history keeps -/

/-- A binding for a frame that does not stand changes nothing. -/
theorem bind_of_absent (absent : g.size ≤ scope.index) : g.bind scope binding = g := by
  refine congrArg Scopes.mk (Array.ext_getElem? fun position => ?_)
  rw [Array.getElem?_modify]
  split
  · rename_i here
    have missing : g.frames[scope.index]? = none := frame?_eq_none_iff.mpr absent
    rw [← here, missing]
    rfl
  · rfl

theorem lookupLocal_add :
    (g.add parent kind).lookupLocal scope name = g.lookupLocal scope name := by
  rw [lookupLocal, lookupLocal, frame?_add]
  split
  · rename_i last
    rw [frame?_eq_none_iff.mpr (by omega)]
    rfl
  · rfl

theorem lastRecorded_cons : lastRecorded ((scope, binding) :: log) ancestor name =
    if scope = ancestor ∧ binding.name = name then some binding else lastRecorded log ancestor name := by
  rw [lastRecorded, List.find?_cons]
  by_cases same : scope = ancestor ∧ binding.name = name
  · simp [same]
  · have other : (scope == ancestor && binding.name == name) = false := by simpa using same
    simp only [other, if_neg same, lastRecorded]

namespace Reached

/-- Every frame is opened inside one of a smaller number. -/
theorem nested (reached : g.Reached log) : g.Nested := by
  induction reached with
  | new => exact initial_nested
  | add kind before inside ih => exact ih.add inside
  | bind binding before standing ih => exact ih.bind
  | miss binding before absent ih => exact ih.bind

/-- Only the module frame stands in no other. -/
theorem rooted (reached : g.Reached log) (standing : scope.index < g.size)
    (outermost : g.parent? scope = none) : scope = .root := by
  induction reached with
  | new =>
      obtain ⟨index⟩ := scope
      obtain rfl : index = 0 := Nat.lt_one_iff.mp standing
      rfl
  | @add g log parent kind before inside ih =>
      rw [parent?, frame?_add] at outermost
      rw [size_add] at standing
      split at outermost
      · cases outermost
      · exact ih (by omega) outermost
  | bind binding before present ih =>
      rw [parent?_bind] at outermost
      rw [size_bind] at standing
      exact ih standing outermost
  | miss binding before absent ih =>
      rw [parent?_bind] at outermost
      rw [size_bind] at standing
      exact ih standing outermost

/-- A frame binds a name to what was recorded there last. -/
theorem lookupLocal_eq (reached : g.Reached log) (scope : ScopeId) (name : String) :
    g.lookupLocal scope name = lastRecorded log scope name := by
  induction reached with
  | new =>
      obtain ⟨index⟩ := scope
      cases index with
      | zero => rfl
      | succ index => simp [lookupLocal, frame?, initial, lastRecorded]
  | add kind before inside ih => rw [lookupLocal_add, ih]
  | @bind g log target binding before standing ih =>
      rw [lastRecorded_cons, ← ih]
      split
      · rename_i same
        obtain ⟨rfl, rfl⟩ := same
        exact lookupLocal_bind standing
      · rename_i other
        by_cases named : name = binding.name
        · have elsewhere : scope ≠ target := fun here => other ⟨here.symm, named.symm⟩
          rw [lookupLocal, frame?_bind_of_ne elsewhere, lookupLocal]
        · exact lookupLocal_bind_of_ne named
  | miss binding before absent ih => rw [bind_of_absent absent, ih]

end Reached

/-! ## What each walk comes to -/

namespace Walk

/-- With one unit of fuel for every frame below, a walk is not cut short. -/
theorem walk_eq (walk : g.Walk scope path) (nested : g.Nested) (standing : scope.index < g.size)
    (enough : scope.index < fuel) : g.walk fuel scope = path.map (·.1) := by
  induction walk generalizing fuel with
  | missing absent =>
      have beyond := frame?_eq_none_iff.mp absent
      omega
  | outermost present last =>
      obtain ⟨fuel, rfl⟩ := Nat.exists_eq_succ_of_ne_zero (by omega : fuel ≠ 0)
      rw [Scopes.walk, parent?_of_frame? present, last]
      rfl
  | @further scope parent frame path present around rest ih =>
      have up : g.parent? scope = some parent := (parent?_of_frame? present).trans around
      have smaller := nested.lt up
      obtain ⟨fuel, rfl⟩ := Nat.exists_eq_succ_of_ne_zero (by omega : fuel ≠ 0)
      rw [Scopes.walk, up]
      exact congrArg (scope :: ·) (ih (by omega) (by omega))

theorem chain_eq (walk : g.Walk scope path) (nested : g.Nested) (standing : scope.index < g.size) :
    g.chain scope = path.map (·.1) :=
  walk.walk_eq nested standing (by omega)

/-- The list of frames is complete if they all fit into the bound, and fails otherwise. -/
theorem summariesWithin_eq (walk : g.Walk scope path) (nested : g.Nested)
    (standing : scope.index < g.size) : g.summariesWithin fault room scope =
      if path.length ≤ room then .ok (path.map summarize) else .error fault := by
  induction walk generalizing room with
  | missing absent =>
      have beyond := frame?_eq_none_iff.mp absent
      omega
  | outermost present last =>
      cases room with
      | zero => rfl
      | succ room =>
          rw [summariesWithin, present]
          simp only [last]
          exact (if_pos (by simp)).symm
  | @further scope parent frame path present around rest ih =>
      have smaller := nested.lt ((parent?_of_frame? present).trans around)
      cases room with
      | zero => rfl
      | succ room =>
          rw [summariesWithin, present]
          simp only [around, List.length_cons, Nat.add_le_add_iff_right]
          rw [ih (by omega)]
          split <;> rfl

/-- A supply is found if its frame is within the bound. That there is none is known if all frames
are. -/
theorem supplyWithin_eq (walk : g.Walk scope path) (nested : g.Nested)
    (standing : scope.index < g.size) : g.supplyWithin fault name room distance scope =
      match supplyAlong name distance path with
      | some supply => if supply.distance < distance + room then .ok (some supply) else .error fault
      | none => if path.length ≤ room then .ok none else .error fault := by
  induction walk generalizing room distance with
  | missing absent =>
      have beyond := frame?_eq_none_iff.mp absent
      omega
  | @outermost scope frame present last =>
      cases bound : frame.bindings.get? name <;> cases room with
      | zero => simp [supplyWithin, supplyAlong, bound]
      | succ room => simp [supplyWithin, supplyAlong, present, bound, last]
  | @further scope parent frame path present around rest ih =>
      have smaller := nested.lt ((parent?_of_frame? present).trans around)
      have onward : parent.index < g.size := by omega
      cases room with
      | zero =>
          rw [supplyWithin]
          split
          · rename_i supply found
            have passed := (supplyAlong_eq_some found).choose_spec.choose_spec.1
            rw [if_neg (by omega)]
          · simp
      | succ room =>
          cases bound : frame.bindings.get? name with
          | some binding => simp [supplyWithin, supplyAlong, present, bound]
          | none =>
              simp only [supplyWithin, supplyAlong, present, bound, around, ih onward,
                List.length_cons, Nat.add_le_add_iff_right]
              rw [show distance + 1 + room = distance + (room + 1) by omega]

/-- The frames of a walk stand one inside the next. -/
theorem isChain (walk : g.Walk scope path) :
    (path.map (·.1)).IsChain fun inner outer => g.parent? inner = some outer := by
  induction walk with
  | missing _ => exact .nil
  | outermost _ _ => exact .singleton _
  | @further scope parent frame path present around rest ih =>
      cases path with
      | nil => exact .singleton _
      | cons entry path =>
          have up : g.parent? scope = some entry.1 := by
            rw [parent?_of_frame? present, around, rest.head_eq]
          exact .cons_cons up ih

/-- The numbers of the frames fall along a walk. -/
theorem falling (walk : g.Walk scope path) (nested : g.Nested) :
    (path.map (·.1)).Pairwise fun inner outer => outer.index < inner.index := by
  have outwards : IsTrans ScopeId fun inner outer => outer.index < inner.index :=
    ⟨fun _ _ _ first second => second.trans first⟩
  exact List.isChain_iff_pairwise.mp (walk.isChain.imp fun _ _ => nested.lt)

theorem head?_eq (walk : g.Walk scope path) (standing : scope.index < g.size) :
    (path.map (·.1)).head? = some scope := by
  cases walk with
  | missing absent =>
      have beyond := frame?_eq_none_iff.mp absent
      omega
  | outermost _ _ => rfl
  | further _ _ _ => rfl

/-- A walk ends at the module frame if no other frame is outermost. -/
theorem getLast?_eq (walk : g.Walk scope path) (nested : g.Nested) (standing : scope.index < g.size)
    (rooted : ∀ outer : ScopeId, outer.index < g.size → g.parent? outer = none → outer = .root) :
    (path.map (·.1)).getLast? = some .root := by
  induction walk with
  | missing absent =>
      have beyond := frame?_eq_none_iff.mp absent
      omega
  | outermost present last =>
      rw [rooted _ standing ((parent?_of_frame? present).trans last)]
      rfl
  | further present around rest ih =>
      have smaller := nested.lt ((parent?_of_frame? present).trans around)
      have inner := ih (by omega)
      rw [List.map_cons, List.getLast?_cons, inner]
      rfl

theorem lookupAlong_eq (walk : g.Walk scope path) : lookupAlong name path =
    (path.map (·.1)).findSome? fun frame => (g.lookupLocal frame name).map (frame, ·) := by
  induction walk with
  | missing _ => rfl
  | outermost present _ => simp [lookupAlong, lookupLocal_of_frame? present]
  | @further scope parent frame path present around rest ih =>
      rw [lookupAlong] at ih ⊢
      rw [List.findSome?_cons, ih, List.map_cons, List.findSome?_cons, lookupLocal_of_frame? present]

/-- The search for a supply reports the frame that the look-up finds, at its place in the row of
frames. -/
theorem supply_eq (walk : g.Walk scope path) (nested : g.Nested) (standing : scope.index < g.size) :
    match lookupAlong name path with
    | some (found, binding) => ∃ kind, g.kind? found = some kind ∧
        g.supply maxDepth site scope name = if (path.map (·.1)).idxOf found < maxDepth then
          .ok (some ⟨found, kind, (path.map (·.1)).idxOf found, binding.node⟩)
        else .error (.depthExceeded site maxDepth)
    | none => g.supply maxDepth site scope name = if (path.map (·.1)).length ≤ maxDepth then .ok none
        else .error (.depthExceeded site maxDepth) := by
  rw [supply, walk.supplyWithin_eq nested standing]
  cases search : supplyAlong name 0 path with
  | none => rw [(supplyAlong_eq_none search).2, List.length_map]
  | some supply =>
      obtain ⟨frame, binding, -, here, kind, bound, node, answer, -⟩ := supplyAlong_eq_some search
      have position : (path.map (·.1))[supply.distance]? = some supply.scope := by
        rw [List.getElem?_map, ← Nat.sub_zero supply.distance, here]
        rfl
      obtain ⟨inside, there⟩ := List.getElem?_eq_some_iff.mp position
      have index : (path.map (·.1)).idxOf supply.scope = supply.distance := by
        rw [← there]
        exact (walk.nodup nested standing).idxOf_getElem _ inside
      have present : g.frame? supply.scope = some frame :=
        walk.frame?_of_mem (List.mem_of_getElem? here)
      rw [answer]
      refine ⟨supply.kind, ?_, ?_⟩
      · rw [kind?, present]
        exact congrArg some kind
      · simp only [index, node, Nat.zero_add]

end Walk

/-! ## All walks from a frame of a reached graph -/

/-- How a frame is listed: with its kind and, in rising order, the names recorded in it. -/
structure ListedAs (g : Scopes) (log : List (ScopeId × Binding)) (frame : ScopeId)
    (summary : FrameSummary) : Prop where
  scope : summary.scope = frame
  kind : g.kind? frame = some summary.kind
  rising : summary.symbols.Pairwise (· < ·)
  recorded : ∀ name, name ∈ summary.symbols ↔ (lastRecorded log frame name).isSome = true

theorem Reached.listedAs (reached : g.Reached log) (walk : g.Walk scope path) :
    List.Forall₂ (ListedAs g log) (path.map (·.1)) (path.map summarize) := by
  refine List.forall₂_map_left_iff.mpr (List.forall₂_map_right_iff.mpr ?_)
  refine List.forall₂_same.mpr fun entry member => ?_
  have present := walk.frame?_of_mem member
  refine ⟨rfl, ?_, ?_, fun name => ?_⟩
  · rw [kind?, present]
    rfl
  · exact entry.2.bindings.keys_rising
  · rw [← reached.lookupLocal_eq, lookupLocal_of_frame? present]
    exact entry.2.bindings.mem_keys_iff name

/-- The walks from a frame of a reached graph all meet the frames of its chain. The chain leads
from the frame to the module frame, each frame opened in the next and of a larger number, so that
any fuel above the number of the frame gives the walks their full length. What stands around a
frame is what its chain holds, a look-up answers with the first frame of it that binds the name and
the binding recorded there last, and the bounded walks list the frames and find the supply of the
name exactly if what they have to look at fits into the bound. -/
theorem Reached.walks_agree (reached : g.Reached log) (standing : scope.index < g.size)
    (name : String) (maxDepth : Nat) (site : Address) :
    let chain := g.chain scope
    let cut := Fault.depthExceeded site maxDepth
    (∀ frame parent, g.parent? frame = some parent → parent.index < frame.index) ∧
      (∀ fuel > scope.index, g.walk fuel scope = chain ∧
        g.lookupWithin name fuel scope = g.lookup scope name ∧
        ∀ ancestor, g.reaches ancestor fuel scope = g.isWithin scope ancestor) ∧
      (chain.head? = some scope ∧ chain.getLast? = some .root ∧
        chain.IsChain (fun inner outer => g.parent? inner = some outer) ∧
        chain.Pairwise fun inner outer => outer.index < inner.index) ∧
      (∀ ancestor, g.isWithin scope ancestor = true ↔ ancestor ∈ chain) ∧
      g.lookup scope name =
        (chain.findSome? fun frame => (lastRecorded log frame name).map (frame, ·)) ∧
      (∃ summaries, List.Forall₂ (ListedAs g log) chain summaries ∧
        g.summaries maxDepth site scope =
          if chain.length ≤ maxDepth then .ok summaries else .error cut) ∧
      match g.lookup scope name with
      | some (found, binding) => ∃ kind, g.kind? found = some kind ∧
          g.supply maxDepth site scope name = if chain.idxOf found < maxDepth then
            .ok (some ⟨found, kind, chain.idxOf found, binding.node⟩) else .error cut
      | none => g.supply maxDepth site scope name =
          if chain.length ≤ maxDepth then .ok none else .error cut := by
  have nested := reached.nested
  obtain ⟨path, walk⟩ := Walk.exists_of_nested nested scope
  have chain : g.chain scope = path.map (·.1) := walk.chain_eq nested standing
  intro row cut
  simp only [row, chain]
  refine ⟨fun _ _ => nested.lt, fun fuel enough => ⟨?_, ?_, fun ancestor => ?_⟩,
    ⟨walk.head?_eq standing, ?_, walk.isChain, ?_⟩, fun ancestor => ?_, ?_,
    ⟨path.map summarize, reached.listedAs walk, ?_⟩, ?_⟩
  · exact walk.walk_eq nested standing enough
  · exact lookupWithin_eq nested enough (by omega)
  · rw [Bool.eq_iff_iff, reaches_iff nested enough, isWithin_iff_inside nested standing]
  · exact walk.getLast?_eq nested standing fun outer => reached.rooted
  · exact walk.falling nested
  · rw [isWithin_iff_inside nested standing, ← walk.mem_iff_inside nested standing]
    simp
  · rw [walk.lookup nested standing, walk.lookupAlong_eq]
    simp only [reached.lookupLocal_eq]
  · rw [summaries, walk.summariesWithin_eq nested standing, List.length_map]
  · rw [walk.lookup nested standing]
    exact walk.supply_eq nested standing

/-- A closure in a function that binds `x` once more after the closure was opened. -/
def rebound : Scopes :=
  (((initial.add .root .function).bind ⟨1⟩ ⟨"x", none, none⟩).add ⟨1⟩ .closure).bind ⟨1⟩
    ⟨"x", some ⟨"pattern/0"⟩, none⟩

/-- Two frames may be looked at, of three. The binding of `x` is in the second one and is found; the
list of all frames, and the search for a name that none of them binds, are cut. -/
theorem Reached.walks_agree_rebound :
    rebound.Reached [(⟨1⟩, ⟨"x", some ⟨"pattern/0"⟩, none⟩), (⟨1⟩, ⟨"x", none, none⟩)] ∧
      ScopeId.index ⟨2⟩ < rebound.size ∧ rebound.chain ⟨2⟩ = [⟨2⟩, ⟨1⟩, .root] ∧
      (∀ site, rebound.supply 2 site ⟨2⟩ "x" =
        .ok (some ⟨⟨1⟩, .function, 1, some ⟨"pattern/0"⟩⟩)) ∧
      (∀ site, rebound.supply 2 site ⟨2⟩ "y" = .error (.depthExceeded site 2)) ∧
      ∀ site, rebound.summaries 2 site ⟨2⟩ = .error (.depthExceeded site 2) := by
  have reached : rebound.Reached [(⟨1⟩, ⟨"x", some ⟨"pattern/0"⟩, none⟩), (⟨1⟩, ⟨"x", none, none⟩)] :=
    .bind _ (.add _ (.bind _ (.add _ .new (by decide)) (by decide)) (by decide)) (by decide)
  have standing : ScopeId.index ⟨2⟩ < rebound.size := by decide
  have chain : rebound.chain ⟨2⟩ = [⟨2⟩, ⟨1⟩, .root] := by decide
  have answer : rebound.lookup ⟨2⟩ "x" = some (⟨1⟩, ⟨"x", some ⟨"pattern/0"⟩, none⟩) := by decide
  have nowhere : rebound.lookup ⟨2⟩ "y" = none := by decide
  refine ⟨reached, standing, chain, fun site => ?_, fun site => ?_, fun site => ?_⟩
  · obtain ⟨-, -, -, -, -, -, supplied⟩ := Reached.walks_agree reached standing "x" 2 site
    rw [answer, chain] at supplied
    obtain ⟨kind, opened, supplied⟩ := supplied
    obtain rfl : ScopeKind.function = kind := Option.some.inj opened
    exact supplied
  · obtain ⟨-, -, -, -, -, -, supplied⟩ := Reached.walks_agree reached standing "y" 2 site
    rw [nowhere, chain] at supplied
    exact supplied
  · obtain ⟨-, -, -, -, -, ⟨summaries, -, listed⟩, -⟩ := Reached.walks_agree reached standing "x" 2 site
    rw [chain] at listed
    exact listed

end Scopes

end SyntaxGraph
