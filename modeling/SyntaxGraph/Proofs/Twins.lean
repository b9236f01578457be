import Mathlib.Data.List.Nodup
import SyntaxGraph.Proofs.Brackets

/-!
# Frames under other numbers

Two builds that went different ways for a while have opened different numbers of frames, so a
frame opened later has another number in each. What a look-up answers does not depend on the
numbers: two rows of frames that bind the same, one frame after the other, answer alike, tell
alike whether a name is local to a closure, and supply the same symbols. A closure that noted the
same uses in both builds then has the same nodes for its captures.
-/

namespace SyntaxGraph

/-- Three lists whose members are related one by one. -/
inductive Along {α β γ : Type} (r : γ → α → β → Prop) : List γ → List α → List β → Prop where
  | nil : Along r [] [] []
  | cons {c a b cs as bs} (first : r c a b) (rest : Along r cs as bs) :
      Along r (c :: cs) (a :: as) (b :: bs)

namespace Along

variable {α β γ : Type} {r q : γ → α → β → Prop} {cs : List γ} {as as' : List α} {bs bs' : List β}

theorem and (first : Along r cs as bs) (second : Along q cs as bs) :
    Along (fun c a b => r c a b ∧ q c a b) cs as bs := by
  induction first with
  | nil => exact .nil
  | cons here _ ih =>
      cases second with
      | cons here' rest' => exact .cons ⟨here, here'⟩ (ih rest')

theorem imp (along : Along r cs as bs) (weaken : ∀ c a b, r c a b → q c a b) : Along q cs as bs := by
  induction along with
  | nil => exact .nil
  | cons here _ ih => exact .cons (weaken _ _ _ here) ih

/-- The first members and the others, where there is one. -/
theorem uncons {c : γ} (along : Along r (c :: cs) as bs) (a : α) (b : β) :
    r c (as.head?.getD a) (bs.head?.getD b) ∧ Along r cs as.tail bs.tail := by
  cases along with
  | cons first rest => exact ⟨first, rest⟩

/-- The related lists may change member by member. -/
theorem step {p : α → α → Prop} {p' : β → β → Prop} (along : Along r cs as bs)
    (left : List.Forall₂ p as as') (right : List.Forall₂ p' bs bs')
    (next : ∀ c ∈ cs, ∀ a b a' b', r c a b → p a a' → p' b b' → q c a' b') :
    Along q cs as' bs' := by
  induction along generalizing as' bs' with
  | nil =>
      cases left
      cases right
      exact .nil
  | cons first _ ih =>
      cases left with
      | cons one others =>
          cases right with
          | cons one' others' =>
              exact .cons (next _ List.mem_cons_self _ _ _ _ first one one')
                (ih others others' fun c member => next c (List.mem_cons_of_mem _ member))

theorem map {f : α → α} {g : β → β} (along : Along r cs as bs)
    (next : ∀ c ∈ cs, ∀ a b, r c a b → q c (f a) (g b)) : Along q cs (as.map f) (bs.map g) := by
  induction along with
  | nil => exact .nil
  | cons first _ ih =>
      exact .cons (next _ List.mem_cons_self _ _ first)
        (ih fun c member => next c (List.mem_cons_of_mem _ member))

theorem modifyHead {f : α → α} {g : β → β} (along : Along r cs as bs)
    (next : ∀ c a b, r c a b → r c (f a) (g b)) : Along r cs (as.modifyHead f) (bs.modifyHead g) := by
  cases along with
  | nil => exact .nil
  | cons first rest => exact .cons (next _ _ _ first) rest

end Along

namespace Scopes

variable {g h g' : Scopes} {name : String} {scope scope' inner inner' : ScopeId}
  {path path' : List (ScopeId × Frame)} {ids : List (ScopeId × ScopeId)}

/-! ## More about walks -/

namespace Walk

/-- Walks from frames that stand are there. -/
theorem exists_of_nested (nested : g.Nested) (scope : ScopeId) : ∃ path, g.Walk scope path := by
  induction scope using nested.outwards with
  | step scope ih =>
      cases present : g.frame? scope with
      | none => exact ⟨[], .missing present⟩
      | some frame =>
          cases around : frame.parent with
          | none => exact ⟨_, .outermost present around⟩
          | some parent =>
              obtain ⟨path, rest⟩ := ih parent ((parent?_of_frame? present).trans around)
              exact ⟨_, .further present around rest⟩

theorem head_eq {entry : ScopeId × Frame} (walk : g.Walk scope (entry :: path)) :
    entry.1 = scope := by
  cases walk with
  | outermost _ _ => rfl
  | further _ _ _ => rfl

/-- A walk goes on from its second frame. -/
theorem tail {entry next : ScopeId × Frame} (walk : g.Walk scope (entry :: next :: path)) :
    g.Walk next.1 (next :: path) := by
  cases walk with
  | further _ _ rest => exact rest.head_eq ▸ rest

/-- Walks only meet frames of smaller numbers. -/
theorem agrees {n : Nat} (walk : g.Walk scope path) (agree : AgreesBelow n g h) (nested : g.Nested)
    (below : scope.index < n) : h.Walk scope path := by
  induction walk with
  | missing absent => exact .missing ((agree _ below).symm.trans absent)
  | outermost present last => exact .outermost ((agree _ below).symm.trans present) last
  | further present around _ ih =>
      have smaller := nested.lt ((parent?_of_frame? present).trans around)
      exact .further ((agree _ below).symm.trans present) around (ih (by omega))

/-- No frame is met twice. -/
theorem nodup (walk : g.Walk scope path) (nested : g.Nested) (standing : scope.index < g.size) :
    (path.map (·.1)).Nodup := by
  induction walk with
  | missing _ => exact List.nodup_nil
  | outermost _ _ => exact List.pairwise_singleton _ _
  | @further scope parent frame path present around rest ih =>
      have smaller := nested.lt ((parent?_of_frame? present).trans around)
      refine List.nodup_cons.mpr ⟨fun member => ?_, ih (by omega)⟩
      obtain ⟨⟨found, frame'⟩, inPath, same⟩ := List.mem_map.mp member
      obtain rfl : found = scope := same
      have inside := (rest.mem_iff_inside nested (by omega)).mp ⟨frame', inPath⟩
      have := inside.index_le nested
      omega

/-- A walk from a new frame goes on from the frame it was opened in. -/
theorem add (walk : g.Walk scope path) (nested : g.Nested) (standing : scope.index < g.size)
    (kind : ScopeKind) :
    (g.add scope kind).Walk ⟨g.size⟩ ((⟨g.size⟩, ⟨kind, some scope, ∅⟩) :: path) := by
  have old : AgreesBelow g.size g (g.add scope kind) :=
    fun other below => (frame?_add_of_lt below).symm
  exact .further (frame?_add.trans (if_pos rfl)) rfl (walk.agrees old nested standing)

/-- A binding in the frame a walk starts from changes that frame and no other. -/
theorem bind {frame : Frame} (walk : g.Walk scope ((scope, frame) :: path)) (nested : g.Nested)
    (binding : Binding) :
    (g.bind scope binding).Walk scope
      ((scope, { frame with bindings := frame.bindings.insert binding.name binding }) :: path) := by
  have here : ∀ {frame : Frame}, g.frame? scope = some frame →
      (g.bind scope binding).frame? scope =
        some { frame with bindings := frame.bindings.insert binding.name binding } := by
    intro frame present
    rw [frame?_bind, if_pos rfl, present]
    rfl
  cases walk with
  | outermost present last => exact .outermost (here present) last
  | further present around rest =>
      have smaller := nested.lt ((parent?_of_frame? present).trans around)
      refine .further (here present) around (rest.agrees (n := scope.index) ?_ nested smaller)
      intro other below
      rw [frame?_bind_of_ne]
      rintro rfl
      exact Nat.lt_irrefl _ below

end Walk

/-- Whether the first frame along a row that binds a name lies at a given frame or inside of it. -/
def answersWithin (name : String) (inner : ScopeId) : List (ScopeId × Frame) → Bool
  | [] => false
  | entry :: path =>
    if (entry.2.bindings.get? name).isSome then (entry :: path).any (·.1 == inner)
    else answersWithin name inner path

/-- Whether a name is local to a frame can be read off the row of frames. -/
theorem Walk.answersWithin (walk : g.Walk scope path) (nested : g.Nested)
    (standing : scope.index < g.size) (name : String) (inner : ScopeId) :
    (match (g.lookup scope name).map (·.1) with
      | some defining => g.isWithin defining inner
      | none => false) = Scopes.answersWithin name inner path := by
  -- Frames around a frame are those its own walk meets, so what is left of the row tells.
  have within : ∀ {scope path}, g.Walk scope path → scope.index < g.size →
      g.isWithin scope inner = path.any (·.1 == inner) := by
    intro scope path walk standing
    rw [Bool.eq_iff_iff, isWithin_iff_inside nested standing, ← walk.mem_iff_inside nested standing,
      List.any_eq_true]
    constructor
    · rintro ⟨frame, member⟩
      exact ⟨_, member, beq_self_eq_true _⟩
    · rintro ⟨⟨found, frame⟩, member, same⟩
      exact ⟨frame, beq_iff_eq.mp same ▸ member⟩
  induction walk with
  | missing absent =>
      have beyond := frame?_eq_none_iff.mp absent
      omega
  | @outermost scope frame present last =>
      unfold Scopes.answersWithin
      cases bound : frame.bindings.get? name with
      | some binding =>
          rw [lookup_of_local nested standing ((lookupLocal_of_frame? present).trans bound)]
          exact within (.outermost present last) standing
      | none =>
          rw [lookup_eq nested standing, lookupLocal_of_frame? present, bound,
            parent?_of_frame? present, last]
          rfl
  | @further scope parent frame path present around rest ih =>
      have up : g.parent? scope = some parent := (parent?_of_frame? present).trans around
      have smaller := nested.lt up
      unfold Scopes.answersWithin
      cases bound : frame.bindings.get? name with
      | some binding =>
          rw [lookup_of_local nested standing ((lookupLocal_of_frame? present).trans bound)]
          exact within (.further present around rest) standing
      | none =>
          rw [lookup_of_parent nested standing ((lookupLocal_of_frame? present).trans bound) up]
          exact ih (by omega)

/-! ## Rows that bind the same names -/

/-- Two frames under the given numbers that bind the same names. -/
structure FrameAlike (ids : ScopeId × ScopeId) (entry entry' : ScopeId × Frame) : Prop where
  first : entry.1 = ids.1
  second : entry'.1 = ids.2
  names : ∀ name, (entry.2.bindings.get? name).isSome = (entry'.2.bindings.get? name).isSome

/-- Two numbers that stand for each other in a row. -/
def Paired (ids : List (ScopeId × ScopeId)) (inner inner' : ScopeId) : Prop :=
  ∀ p ∈ ids, p.1 = inner ↔ p.2 = inner'

namespace FrameAlike

theorem ids_eq (alike : Along FrameAlike ids path path') :
    ids.map (·.1) = path.map (·.1) ∧ ids.map (·.2) = path'.map (·.1) := by
  induction alike with
  | nil => exact ⟨rfl, rfl⟩
  | cons here _ ih =>
      exact ⟨congrArg₂ List.cons here.first.symm ih.1, congrArg₂ List.cons here.second.symm ih.2⟩

/-- Members of rows that meet no frame twice stand for each other. -/
theorem paired (alike : Along FrameAlike ids path path') (distinct : (path.map (·.1)).Nodup)
    (distinct' : (path'.map (·.1)).Nodup) (member : (inner, inner') ∈ ids) :
    Paired ids inner inner' := by
  -- Neither component of the row repeats, so each determines the other.
  obtain ⟨first, second⟩ := ids_eq alike
  rw [← first] at distinct
  rw [← second] at distinct'
  intro p inside
  constructor
  · intro same
    rw [List.inj_on_of_nodup_map distinct inside member same]
  · intro same
    rw [List.inj_on_of_nodup_map distinct' inside member same]

theorem answersWithin (alike : Along FrameAlike ids path path') (paired : Paired ids inner inner') :
    Scopes.answersWithin name inner path = Scopes.answersWithin name inner' path' := by
  have among : ∀ {ids path path'}, Along FrameAlike ids path path' → Paired ids inner inner' →
      path.any (·.1 == inner) = path'.any (·.1 == inner') := by
    intro ids path path' alike paired
    induction alike with
    | nil => rfl
    | cons here _ ih =>
        rw [List.any_cons, List.any_cons, ih fun p member => paired p (List.mem_cons_of_mem _ member),
          here.first, here.second]
        congr 1
        rw [Bool.eq_iff_iff, beq_iff_eq, beq_iff_eq]
        exact paired _ List.mem_cons_self
  induction alike with
  | nil => rfl
  | cons here rest ih =>
      unfold Scopes.answersWithin
      rw [here.names, among (.cons here rest) paired,
        ih fun p member => paired p (List.mem_cons_of_mem _ member)]

/-- Look-ups in rows that bind the same names find a name in both or in none. -/
theorem lookupAlong (alike : Along FrameAlike ids path path') :
    (Scopes.lookupAlong name path).isSome = (Scopes.lookupAlong name path').isSome := by
  induction alike with
  | nil => rfl
  | @cons _ entry entry' _ _ _ here _ ih =>
      unfold Scopes.lookupAlong at ih ⊢
      rw [List.findSome?_cons, List.findSome?_cons]
      have names := here.names name
      cases bound : entry.2.bindings.get? name with
      | some binding =>
          rw [bound] at names
          obtain ⟨other, bound'⟩ := Option.isSome_iff_exists.mp names.symm
          rw [bound']
          rfl
      | none =>
          rw [bound] at names
          rw [Option.isNone_iff_eq_none.mp (Option.isSome_eq_false_iff.mp names.symm)]
          exact ih

end FrameAlike

/-! ## Rows that bind the same -/

/-- Two frames under the given numbers that bind the same. -/
structure FrameTwins (ids : ScopeId × ScopeId) (entry entry' : ScopeId × Frame) : Prop where
  first : entry.1 = ids.1
  second : entry'.1 = ids.2
  kind : entry.2.kind = entry'.2.kind
  bindings : entry.2.bindings = entry'.2.bindings

/-- The rows of frames from two frames outwards bind the same. -/
def Twins (ids : List (ScopeId × ScopeId)) (g g' : Scopes) (scope scope' : ScopeId) : Prop :=
  ∃ path path', g.Walk scope path ∧ g'.Walk scope' path' ∧ Along FrameTwins ids path path'

theorem FrameTwins.alike (twins : Along FrameTwins ids path path') : Along FrameAlike ids path path' :=
  twins.imp fun _ _ _ here =>
    ⟨here.first, here.second, fun name => congrArg (fun bindings => (bindings.get? name).isSome) here.bindings⟩

theorem Twins.paired (twins : Twins ids g g' scope scope') (nested : g.Nested) (nested' : g'.Nested)
    (standing : scope.index < g.size) (standing' : scope'.index < g'.size)
    (member : (inner, inner') ∈ ids) : Paired ids inner inner' := by
  obtain ⟨path, path', walk, walk', along⟩ := twins
  exact FrameAlike.paired (FrameTwins.alike along) (walk.nodup nested standing)
    (walk'.nodup nested' standing') member

/-- Supplies that say the same but for the numbers of their frames. -/
structure SupplyTwins (a a' : Supply) : Prop where
  kind : a.kind = a'.kind
  distance : a.distance = a'.distance
  binding : a.binding = a'.binding

theorem FrameTwins.supplyAlong (twins : Along FrameTwins ids path path') (distance : Nat) :
    Option.Rel SupplyTwins (Scopes.supplyAlong name distance path)
      (Scopes.supplyAlong name distance path') := by
  induction twins generalizing distance with
  | nil => exact .none
  | @cons _ entry entry' _ _ _ here _ ih =>
      obtain ⟨scope, frame⟩ := entry
      obtain ⟨scope', frame'⟩ := entry'
      have same : frame.bindings = frame'.bindings := here.bindings
      unfold Scopes.supplyAlong
      rw [same]
      cases frame'.bindings.get? name with
      | some binding => exact .some ⟨here.kind, rfl, rfl⟩
      | none => exact ih _

/-! ## Rows after each change -/

theorem Twins.agrees {h h' : Scopes} {n n' : Nat} (twins : Twins ids g g' scope scope')
    (nested : g.Nested) (nested' : g'.Nested) (agree : AgreesBelow n g h)
    (agree' : AgreesBelow n' g' h') (below : scope.index < n) (below' : scope'.index < n') :
    Twins ids h h' scope scope' := by
  obtain ⟨path, path', walk, walk', along⟩ := twins
  exact ⟨path, path', walk.agrees agree nested below, walk'.agrees agree' nested' below', along⟩

/-- A frame opened inside of both. -/
theorem Twins.add (twins : Twins ids g g' scope scope') (nested : g.Nested) (nested' : g'.Nested)
    (standing : scope.index < g.size) (standing' : scope'.index < g'.size) (kind : ScopeKind) :
    Twins ((⟨g.size⟩, ⟨g'.size⟩) :: ids) (g.add scope kind) (g'.add scope' kind) ⟨g.size⟩
      ⟨g'.size⟩ := by
  obtain ⟨path, path', walk, walk', along⟩ := twins
  exact ⟨_, _, walk.add nested standing kind, walk'.add nested' standing' kind,
    .cons ⟨rfl, rfl, rfl, rfl⟩ along⟩

/-- Back in the frames around. -/
theorem Twins.tail {p q : ScopeId × ScopeId} (twins : Twins (p :: q :: ids) g g' scope scope') :
    Twins (q :: ids) g g' q.1 q.2 := by
  obtain ⟨path, path', walk, walk', along⟩ := twins
  cases along with
  | cons _ rest =>
      cases rest with
      | cons here others =>
          refine ⟨_, _, ?_, ?_, .cons here others⟩
          · exact here.first ▸ walk.tail
          · exact here.second ▸ walk'.tail

theorem Twins.bind {p : ScopeId × ScopeId} (twins : Twins (p :: ids) g g' scope scope')
    (nested : g.Nested) (nested' : g'.Nested) (binding : Binding) :
    Twins (p :: ids) (g.bind scope binding) (g'.bind scope' binding) scope scope' := by
  obtain ⟨path, path', walk, walk', along⟩ := twins
  cases along with
  | @cons _ entry entry' _ rest rest' here others =>
      obtain ⟨found, frame⟩ := entry
      obtain ⟨found', frame'⟩ := entry'
      obtain rfl : found = scope := walk.head_eq
      obtain rfl : found' = scope' := walk'.head_eq
      refine ⟨_, _, walk.bind nested binding, walk'.bind nested' binding, .cons ?_ others⟩
      exact ⟨here.first, here.second, here.kind, congrArg (·.insert binding.name binding) here.bindings⟩

/-- The frames a row starts from stand. -/
theorem Twins.standing {p : ScopeId × ScopeId} (twins : Twins (p :: ids) g g' scope scope') :
    scope.index < g.size ∧ scope'.index < g'.size := by
  obtain ⟨path, path', walk, walk', along⟩ := twins
  cases along with
  | cons _ _ =>
      have first := lt_size_of_frame? (walk.frame?_of_mem List.mem_cons_self)
      have second := lt_size_of_frame? (walk'.frame?_of_mem List.mem_cons_self)
      exact ⟨walk.head_eq ▸ first, walk'.head_eq ▸ second⟩

theorem Twins.diagonal (nested : g.Nested) (scope : ScopeId) :
    ∃ path, g.Walk scope path ∧ Twins (path.map fun entry => (entry.1, entry.1)) g g scope scope := by
  obtain ⟨path, walk⟩ := Walk.exists_of_nested nested scope
  refine ⟨path, walk, path, path, walk, walk, ?_⟩
  clear walk
  induction path with
  | nil => exact .nil
  | cons entry path ih => exact .cons ⟨rfl, rfl, rfl, rfl⟩ ih

end Scopes

/-! ## Reports on twins -/

/-- Captures that their nodes cannot tell apart. -/
structure CaptureTwins (c c' : Capture) : Prop where
  name : c.name = c'.name
  references : c.references = c'.references
  mutation : c.mutation = c'.mutation
  supply : Option.Rel Scopes.SupplyTwins c.supply c'.supply

/-- Lists that one list is related to, member by member. -/
theorem forall₂_across {α β γ : Type} {r : α → β → Prop} {q : α → γ → Prop} {xs : List α}
    {ys : List β} {zs : List γ} (first : List.Forall₂ r xs ys) (second : List.Forall₂ q xs zs) :
    List.Forall₂ (fun y z => ∃ x, r x y ∧ q x z) ys zs := by
  induction first generalizing zs with
  | nil =>
      cases second
      exact .nil
  | cons here _ ih =>
      cases second with
      | cons here' rest' => exact .cons ⟨_, here, here'⟩ (ih rest')

theorem mapIdx_eq_of_forall₂ {α β γ : Type} {r : α → β → Prop} {f : Nat → α → γ} {g : Nat → β → γ}
    {xs : List α} {ys : List β} (alike : List.Forall₂ r xs ys)
    (same : ∀ index x y, r x y → f index x = g index y) : xs.mapIdx f = ys.mapIdx g := by
  induction alike generalizing f g with
  | nil => rfl
  | cons here _ ih =>
      rw [List.mapIdx_cons, List.mapIdx_cons, same 0 _ _ here,
        ih fun index x y related => same (index + 1) x y related]

theorem CaptureTwins.node_eq {c c' : Capture} (twins : CaptureTwins c c') {r r' : ClosureReport}
    (closure : r.closure = r'.closure) (index : Nat) : r.captureNode index c = r'.captureNode index c' := by
  obtain ⟨name, positions, references, supply, mutation⟩ := c
  obtain ⟨name', positions', references', supply', mutation'⟩ := c'
  obtain ⟨rfl, rfl, rfl, supplies⟩ := twins
  unfold ClosureReport.captureNode Capture.referenceCount
  rw [closure]
  cases supplies with
  | none => rfl
  | some alike =>
      dsimp only
      rw [alike.kind, alike.distance, alike.binding]
      rfl

namespace Tracker

variable {t t' : Tracker} {g g' : Scopes} {enclosing enclosing' : ScopeId} {limits : Limits}
  {report report' : ClosureReport} {ids : List (ScopeId × ScopeId)}

theorem capture_twins (twins : Scopes.Twins ids g g' enclosing enclosing')
    {entry : String × FreeUse} {c c' : Capture}
    (made : t.capture g enclosing limits entry = .ok c)
    (made' : t'.capture g' enclosing' limits entry = .ok c') : CaptureTwins c c' := by
  obtain ⟨path, path', walk, walk', along⟩ := twins
  obtain ⟨supply, supplied, rfl⟩ := except_map_eq_ok made
  obtain ⟨supply', supplied', rfl⟩ := except_map_eq_ok made'
  refine ⟨rfl, rfl, rfl, ?_⟩
  dsimp only
  rw [Scopes.supplyWithin_walk walk supplied, Scopes.supplyWithin_walk walk' supplied']
  exact Scopes.FrameTwins.supplyAlong along 0

/-- Closures with the same notes, in rows of frames that bind the same, have the same nodes for
their captures. -/
theorem captureNodes_eq (closure : t.closure = t'.closure) (free : t.free = t'.free)
    (twins : Scopes.Twins ids g g' enclosing enclosing')
    (reported : t.report g enclosing limits = .ok report)
    (reported' : t'.report g' enclosing' limits = .ok report') :
    report.captureNodes = report'.captureNodes := by
  obtain ⟨named, -, resolved⟩ := report_cases reported
  obtain ⟨named', -, resolved'⟩ := report_cases reported'
  rw [← free] at resolved'
  refine mapIdx_eq_of_forall₂ (forall₂_across (forall₂_of_mapM resolved) (forall₂_of_mapM resolved')) ?_
  rintro index c c' ⟨entry, made, made'⟩
  exact (capture_twins twins made made').node_eq (named.trans (closure.trans named'.symm)) index

end Tracker

end SyntaxGraph
