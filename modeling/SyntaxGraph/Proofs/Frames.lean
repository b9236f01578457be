import Mathlib.Tactic.ByContra
import SyntaxGraph.Scope.Resolution

/-!
# Walks over scope frames

A frame is opened inside one that is there already, so the frame around it has a smaller
number. Walks outwards then end by themselves and the number of steps they may take plays
no part: a look-up is the local binding or the look-up one frame further out. What a walk
finds depends only on the frames it can meet, and these all have smaller numbers.
-/

namespace SyntaxGraph

theorem OrderedMap.mem_keys_iff {κ α : Type} [Ord κ] [Std.LawfulEqOrd κ] (m : OrderedMap κ α)
    (key : κ) : key ∈ m.keys ↔ (m.get? key).isSome = true := by
  constructor
  · intro member
    obtain ⟨⟨key, value⟩, entry, rfl⟩ := List.mem_map.mp member
    rw [(m.get?_eq_some_iff key value).mpr entry]
    rfl
  · intro found
    obtain ⟨value, found⟩ := Option.isSome_iff_exists.mp found
    exact List.mem_map.mpr ⟨(key, value), (m.get?_eq_some_iff key value).mp found, rfl⟩

namespace Scopes

variable {g h : Scopes} {scope parent ancestor : ScopeId} {kind : ScopeKind} {name : String}
  {binding : Binding}

/-! ## Frames after each change -/

@[simp] theorem size_add : (g.add parent kind).size = g.size + 1 := by
  simp [size, add]

@[simp] theorem size_bind : (g.bind scope binding).size = g.size := by
  simp [size, Scopes.bind]

theorem frame?_eq_none_iff : g.frame? scope = none ↔ g.size ≤ scope.index := by
  simp [frame?, size]

theorem lt_size_of_frame? {frame : Frame} (present : g.frame? scope = some frame) :
    scope.index < g.size := by
  by_contra beyond
  rw [frame?_eq_none_iff.mpr (by omega)] at present
  cases present

/-- A new frame stands behind all others, with nothing in it. -/
theorem frame?_add : (g.add parent kind).frame? scope =
    if scope.index = g.size then some ⟨kind, some parent, ∅⟩ else g.frame? scope := by
  unfold frame? add size
  rw [Array.getElem?_push]

theorem frame?_add_of_lt (old : scope.index < g.size) :
    (g.add parent kind).frame? scope = g.frame? scope := by
  rw [frame?_add, if_neg (by omega)]

/-- A binding changes the frame it goes to and no other. -/
theorem frame?_bind (other : ScopeId) : (g.bind scope binding).frame? other =
    if other = scope then (g.frame? other).map fun frame =>
      { frame with bindings := frame.bindings.insert binding.name binding }
    else g.frame? other := by
  have same : scope.index = other.index ↔ other = scope := by
    cases scope
    cases other
    simp [eq_comm]
  simp [frame?, Scopes.bind, Array.getElem?_modify, same]

theorem frame?_bind_of_ne {other : ScopeId} (ne : other ≠ scope) :
    (g.bind scope binding).frame? other = g.frame? other := by
  rw [frame?_bind, if_neg ne]

@[simp] theorem parent?_bind (other : ScopeId) :
    (g.bind scope binding).parent? other = g.parent? other := by
  unfold parent?
  rw [frame?_bind]
  split
  · cases g.frame? other <;> rfl
  · rfl

/-! ## Nested frames -/

/-- Every frame is opened inside one of a smaller number. -/
def Nested (g : Scopes) : Prop :=
  ∀ scope parent : ScopeId, g.parent? scope = some parent → parent.index < scope.index

theorem Nested.lt (nested : g.Nested) (up : g.parent? scope = some parent) :
    parent.index < scope.index := nested scope parent up

theorem initial_nested : initial.Nested := by
  intro scope parent up
  obtain ⟨index⟩ := scope
  cases index with
  | zero => cases up
  | succ n => simp [parent?, frame?, initial] at up

theorem Nested.add (nested : g.Nested) (inside : parent.index < g.size) :
    (g.add parent kind).Nested := by
  intro scope found up
  rw [parent?, frame?_add] at up
  split at up
  · obtain rfl := Option.some.inj up
    omega
  · exact nested.lt up

theorem Nested.bind (nested : g.Nested) : (g.bind scope binding).Nested := by
  intro other found up
  rw [parent?_bind] at up
  exact nested.lt up

/-- Going outwards ends, so what holds of a frame once it holds of the frame around it holds of
all. -/
theorem Nested.outwards {motive : ScopeId → Prop} (nested : g.Nested)
    (step : ∀ scope, (∀ parent, g.parent? scope = some parent → motive parent) → motive scope)
    (scope : ScopeId) : motive scope :=
  step scope fun parent up =>
    have _smaller : parent.index < scope.index := nested.lt up
    Nested.outwards nested step parent
termination_by scope.index

/-- One frame is another or lies inside of it. -/
inductive Inside (g : Scopes) : ScopeId → ScopeId → Prop where
  | here (scope : ScopeId) : Inside g scope scope
  | further {scope parent ancestor : ScopeId} (up : g.parent? scope = some parent)
      (rest : Inside g parent ancestor) : Inside g scope ancestor

namespace Inside

theorem trans {a b c : ScopeId} (first : g.Inside a b) (second : g.Inside b c) : g.Inside a c := by
  induction first with
  | here _ => exact second
  | further up _ ih => exact .further up (ih second)

theorem index_le (nested : g.Nested) (inside : g.Inside scope ancestor) :
    ancestor.index ≤ scope.index := by
  induction inside with
  | here _ => exact Nat.le_refl _
  | further up _ ih => exact Nat.le_trans ih (Nat.le_of_lt (nested.lt up))

/-- What is around a frame and not that frame is around the frame it was opened in. -/
theorem of_ne (inside : g.Inside scope ancestor) (ne : scope ≠ ancestor)
    (up : g.parent? scope = some parent) : g.Inside parent ancestor := by
  cases inside with
  | here _ => exact absurd rfl ne
  | further up' rest =>
      obtain rfl := Option.some.inj (up.symm.trans up')
      exact rest

/-- Frames around a closure's frame do not lie inside of it. -/
theorem not_inside_of_parent (nested : g.Nested) (up : g.parent? scope = some parent)
    (inside : g.Inside parent ancestor) : ¬ g.Inside ancestor scope := by
  intro back
  have first := inside.index_le nested
  have second := back.index_le nested
  have third := nested.lt up
  omega

end Inside

theorem reaches_iff (nested : g.Nested) {fuel : Nat} (enough : scope.index < fuel) :
    g.reaches ancestor fuel scope = true ↔ g.Inside scope ancestor := by
  induction fuel generalizing scope with
  | zero => omega
  | succ fuel ih =>
      unfold reaches
      constructor
      · intro found
        rcases Bool.or_eq_true_iff.mp found with here | later
        · rw [beq_iff_eq.mp here]
          exact .here _
        · split at later
          · rename_i parent up
            have smaller := nested.lt up
            exact .further up ((ih (by omega)).mp later)
          · cases later
      · intro inside
        refine Bool.or_eq_true_iff.mpr ?_
        cases inside with
        | here _ => exact .inl (beq_self_eq_true _)
        | further up rest =>
            have smaller := nested.lt up
            rw [up]
            exact .inr ((ih (by omega)).mpr rest)

/-- The bounded search for a frame finds it exactly if it is around. -/
theorem isWithin_iff_inside (nested : g.Nested) (standing : scope.index < g.size) :
    g.isWithin scope ancestor = true ↔ g.Inside scope ancestor :=
  reaches_iff nested (by omega)

/-! ## Look-ups -/

theorem lookupWithin_eq (nested : g.Nested) {fuel more : Nat} (enough : scope.index < fuel)
    (enough' : scope.index < more) : g.lookupWithin name fuel scope = g.lookupWithin name more scope := by
  induction fuel generalizing scope more with
  | zero => omega
  | succ fuel ih =>
      cases more with
      | zero => omega
      | succ more =>
          unfold lookupWithin
          split
          · rfl
          · split
            · rename_i parent up
              have smaller := nested.lt up
              exact ih (by omega) (by omega)
            · rfl

/-- A look-up answers with the local binding, or as the frame around does. -/
theorem lookup_eq (nested : g.Nested) (standing : scope.index < g.size) :
    g.lookup scope name = match g.lookupLocal scope name with
      | some binding => some (scope, binding)
      | none => (g.parent? scope).bind fun parent => g.lookup parent name := by
  have unfolded : g.lookup scope name = g.lookupWithin name (g.size + 1) scope := rfl
  rw [unfolded, lookupWithin]
  cases g.lookupLocal scope name with
  | some binding => rfl
  | none =>
      cases up : g.parent? scope with
      | none => rfl
      | some parent =>
          have smaller := nested.lt up
          exact lookupWithin_eq nested (by omega) (by omega)

theorem lookup_of_local {found : Binding} (nested : g.Nested) (standing : scope.index < g.size)
    (here : g.lookupLocal scope name = some found) : g.lookup scope name = some (scope, found) := by
  rw [lookup_eq nested standing, here]

theorem lookup_of_parent (nested : g.Nested) (standing : scope.index < g.size)
    (absent : g.lookupLocal scope name = none) (up : g.parent? scope = some parent) :
    g.lookup scope name = g.lookup parent name := by
  rw [lookup_eq nested standing, absent, up]
  rfl

/-- A look-up finds a frame around, with the binding it has there. -/
theorem inside_of_lookup (nested : g.Nested) (standing : scope.index < g.size)
    {found : ScopeId × Binding} (answer : g.lookup scope name = some found) :
    g.Inside scope found.1 ∧ g.lookupLocal found.1 name = some found.2 := by
  induction scope using nested.outwards with
  | step scope ih =>
      cases here : g.lookupLocal scope name with
      | some binding =>
          rw [lookup_of_local nested standing here] at answer
          obtain rfl := Option.some.inj answer
          exact ⟨.here _, here⟩
      | none =>
          cases up : g.parent? scope with
          | none =>
              rw [lookup_eq nested standing, here, up] at answer
              cases answer
          | some parent =>
              rw [lookup_of_parent nested standing here up] at answer
              have smaller := nested.lt up
              obtain ⟨inside, found⟩ := ih parent up (by omega) answer
              exact ⟨.further up inside, found⟩

/-- Seen from inside of a frame, a name is bound inside of it, or its look-up answers as it does
around the frame. -/
theorem lookup_inside_or (nested : g.Nested) (standing : scope.index < g.size)
    (inside : g.Inside scope ancestor) (up : g.parent? ancestor = some parent) :
    (∃ found, g.lookup scope name = some found ∧ g.Inside found.1 ancestor) ∨
      g.lookup scope name = g.lookup parent name := by
  induction inside with
  | here scope =>
      cases here : g.lookupLocal scope name with
      | some binding => exact .inl ⟨_, lookup_of_local nested standing here, .here _⟩
      | none => exact .inr (lookup_of_parent nested standing here up)
  | @further scope around ancestor up' rest ih =>
      cases here : g.lookupLocal scope name with
      | some binding => exact .inl ⟨_, lookup_of_local nested standing here, .further up' rest⟩
      | none =>
          have smaller := nested.lt up'
          rw [lookup_of_parent nested standing here up']
          exact ih (by omega) up

/-- What is found from inside of a frame but not inside of it is found around it as well. -/
theorem lookup_eq_of_outside (nested : g.Nested) (standing : scope.index < g.size)
    (inside : g.Inside scope ancestor) (up : g.parent? ancestor = some parent)
    (outside : ∀ found, g.lookup scope name = some found → ¬ g.Inside found.1 ancestor) :
    g.lookup scope name = g.lookup parent name := by
  rcases lookup_inside_or nested standing inside up with ⟨found, answer, within⟩ | same
  · exact absurd within (outside found answer)
  · exact same

/-! ## Frames that agree -/

/-- The frames below a number are the same. -/
def AgreesBelow (n : Nat) (g h : Scopes) : Prop :=
  ∀ scope : ScopeId, scope.index < n → g.frame? scope = h.frame? scope

theorem AgreesBelow.parent? {n : Nat} (agrees : AgreesBelow n g h) (below : scope.index < n) :
    g.parent? scope = h.parent? scope := by
  unfold Scopes.parent?
  rw [agrees scope below]

theorem AgreesBelow.lookupLocal {n : Nat} (agrees : AgreesBelow n g h) (below : scope.index < n) :
    g.lookupLocal scope name = h.lookupLocal scope name := by
  unfold Scopes.lookupLocal
  rw [agrees scope below]

/-- Walks only meet frames of smaller numbers. -/
theorem AgreesBelow.lookup {n : Nat} (agrees : AgreesBelow n g h) (nested : g.Nested)
    (nested' : h.Nested) (fits : n ≤ g.size) (fits' : n ≤ h.size) (below : scope.index < n) :
    g.lookup scope name = h.lookup scope name := by
  induction scope using nested.outwards with
  | step scope ih =>
      rw [lookup_eq nested (by omega), lookup_eq nested' (by omega),
        ← agrees.lookupLocal below, ← agrees.parent? below]
      split
      · rfl
      · cases up : g.parent? scope with
        | none => rfl
        | some parent =>
            have smaller := nested.lt up
            exact ih parent up (by omega)

theorem AgreesBelow.inside {n : Nat} (agrees : AgreesBelow n g h) (nested : g.Nested)
    (below : scope.index < n) (inside : g.Inside scope ancestor) : h.Inside scope ancestor := by
  induction inside with
  | here _ => exact .here _
  | further up _ ih =>
      have smaller := nested.lt up
      rw [agrees.parent? below] at up
      exact .further up (ih (by omega))

end Scopes

end SyntaxGraph
