import SyntaxGraph.Proofs.Captures
import SyntaxGraph.Proofs.Terms

/-!
# Names in view while a build passes

From inside of a closure's frame, the names that count as local are those bound at the
frame or inside of it. `Session.Sees` lists them, and `Passage` says how a stretch of a
build changes the list and which free uses it offers to the open closures. Passages
follow each other; a frame of its own gives back the names it started from.
-/

namespace SyntaxGraph

open Session

namespace Scopes

variable {g : Scopes} {scope ancestor other : ScopeId} {name : String} {binding : Binding}

theorem lookupLocal_bind_of_ne (ne : name ≠ binding.name) :
    (g.bind scope binding).lookupLocal other name = g.lookupLocal other name := by
  rw [lookupLocal, lookupLocal, frame?_bind]
  split
  · cases g.frame? other with
    | none => rfl
    | some frame =>
        simp only [Option.map_some, Option.bind_some, OrderedMap.get?_insert,
          Std.LawfulEqOrd.compare_eq_iff_eq, ne, if_false]
  · rfl

theorem lookupLocal_bind (standing : scope.index < g.size) :
    (g.bind scope binding).lookupLocal scope binding.name = some binding := by
  have present : g.frame? scope ≠ none := by
    rw [Ne, frame?_eq_none_iff]
    omega
  obtain ⟨frame, found⟩ := Option.ne_none_iff_exists'.mp present
  rw [lookupLocal, frame?_bind, if_pos rfl, found]
  simp

/-- A binding changes no look-up of another name. -/
theorem lookup_bind_of_ne (ne : name ≠ binding.name) :
    (g.bind scope binding).lookup other name = g.lookup other name := by
  rw [lookup, lookup, size_bind]
  generalize g.size + 1 = fuel
  induction fuel generalizing other with
  | zero => rfl
  | succ fuel ih =>
      rw [lookupWithin, lookupWithin, lookupLocal_bind_of_ne ne, parent?_bind]
      cases g.lookupLocal other name with
      | some found => rfl
      | none =>
          cases g.parent? other with
          | none => rfl
          | some parent => exact ih

theorem inside_bind_iff : (g.bind scope binding).Inside other ancestor ↔ g.Inside other ancestor := by
  constructor
  · intro inside
    induction inside with
    | here _ => exact .here _
    | further up _ ih =>
        rw [parent?_bind] at up
        exact .further up ih
  · intro inside
    induction inside with
    | here _ => exact .here _
    | further up _ ih =>
        refine .further ?_ ih
        rw [parent?_bind]
        exact up

end Scopes

/-! ## Names in view -/

namespace Session

variable {s t u : Session} {scope : ScopeId} {env after : List String} {name : String}

/-- A name is bound at a frame or inside of it, seen from the current frame. -/
def Binds (s : Session) (scope : ScopeId) (name : String) : Prop :=
  ∃ answer, s.scopes.lookup s.current name = some answer ∧ s.scopes.Inside answer.1 scope

/-- The build stands inside of a frame, and a list holds the names bound there. -/
structure Sees (s : Session) (scope : ScopeId) (env : List String) : Prop where
  placed : s.Placed
  inside : s.scopes.Inside s.current scope
  bound : ∀ name, name ∈ env ↔ s.Binds scope name

namespace Sees

/-- The order of the names plays no part. -/
theorem congr_env (sees : s.Sees scope env) (same : ∀ name, name ∈ env ↔ name ∈ after) :
    s.Sees scope after :=
  ⟨sees.placed, sees.inside, fun name => (same name).symm.trans (sees.bound name)⟩

/-- What matters is how the frames look from the current one. -/
theorem of_agrees (sees : s.Sees scope env)
    (agrees : Scopes.AgreesBelow s.scopes.size u.scopes s.scopes) (nested : u.scopes.Nested)
    (grown : s.scopes.size ≤ u.scopes.size) (current : u.current = s.current) :
    u.Sees scope env := by
  have standing := sees.placed.standing
  have back : Scopes.AgreesBelow s.scopes.size s.scopes u.scopes :=
    fun scope old => (agrees scope old).symm
  have lookup : ∀ name, u.scopes.lookup u.current name = s.scopes.lookup s.current name := by
    intro name
    rw [current]
    exact agrees.lookup nested sees.placed.nested grown (Nat.le_refl _) standing
  refine ⟨⟨nested, by rw [current]; omega⟩, ?_, ?_⟩
  · rw [current]
    exact back.inside sees.placed.nested standing sees.inside
  · intro name
    rw [sees.bound name, Binds, Binds, lookup name]
    apply exists_congr
    intro answer
    apply and_congr_right
    intro found
    obtain ⟨around, -⟩ := Scopes.inside_of_lookup sees.placed.nested standing found
    have old := Nat.lt_of_le_of_lt (around.index_le sees.placed.nested) standing
    exact ⟨back.inside sees.placed.nested old, agrees.inside nested old⟩

theorem congr (sees : s.Sees scope env) (scopes : u.scopes = s.scopes)
    (current : u.current = s.current) : u.Sees scope env := by
  refine sees.of_agrees ?_ ?_ ?_ current
  · intro scope _
    rw [scopes]
  · rw [scopes]
    exact sees.placed.nested
  · rw [scopes]

/-- A new frame is empty, so the same names are in view from inside of it. -/
theorem enter (sees : s.Sees scope env) (small : s.scopes.size < 2 ^ 32) (kind : ScopeKind) :
    (s.enter kind).Sees scope env := by
  have entered := Onward.enter sees.placed small kind
  have agrees := (Onward.refl entered.placed).agrees_of_enter small
  have around := sees.of_agrees (u := { s.enter kind with current := s.current }) agrees
    entered.placed.nested entered.size_le rfl
  have current : (s.enter kind).current = ⟨s.scopes.size⟩ := Scopes.next_eq small
  have frame : (s.enter kind).scopes.frame? (s.enter kind).current =
      some ⟨kind, some s.current, ∅⟩ := by
    rw [current]
    show (s.scopes.add s.current kind).frame? _ = _
    rw [Scopes.frame?_add, if_pos rfl]
  have up : (s.enter kind).scopes.parent? (s.enter kind).current = some s.current := by
    rw [Scopes.parent?, frame]
    rfl
  refine ⟨entered.placed, .further up around.inside, ?_⟩
  intro name
  have absent : (s.enter kind).scopes.lookupLocal (s.enter kind).current name = none := by
    rw [Scopes.lookupLocal, frame]
    rfl
  rw [around.bound name, Binds, Binds,
    Scopes.lookup_of_parent entered.placed.nested entered.placed.standing absent up]

/-- A binding brings its name into view. -/
theorem bind (sees : s.Sees scope env) (reads : Option (OrderedSet String)) (binding : Binding) :
    (s.bindSymbol reads binding).Sees scope (binding.name :: env) := by
  have standing := sees.placed.standing
  have scopes : (s.bindSymbol reads binding).scopes = s.scopes.bind s.current binding := rfl
  have onward := Onward.bind sees.placed reads binding
  refine ⟨onward.placed, ?_, ?_⟩
  · exact Scopes.inside_bind_iff.mpr sees.inside
  · intro name
    by_cases same : name = binding.name
    · subst same
      refine ⟨fun _ => ⟨(s.current, binding), ?_, ?_⟩, fun _ => List.mem_cons_self⟩
      · exact Scopes.lookup_of_local onward.placed.nested onward.placed.standing
          (Scopes.lookupLocal_bind standing)
      · exact Scopes.inside_bind_iff.mpr sees.inside
    · rw [List.mem_cons, or_iff_right same, sees.bound name, Binds, Binds]
      apply exists_congr
      intro answer
      rw [scopes, Scopes.inside_bind_iff]
      apply and_congr_left
      intro _
      show _ ↔ (s.scopes.bind s.current binding).lookup s.current name = _
      rw [Scopes.lookup_bind_of_ne same]

/-- Local are the names in view. -/
theorem isLocal_iff (sees : s.Sees scope env) {use : NameUse} :
    (Moment.mk s use).isLocal scope = true ↔ use.name ∈ env := by
  rw [Moment.isLocal_iff sees.placed, sees.bound use.name]
  exact Iff.rfl

end Sees

end Session

/-! ## Passages -/

/-- The use that a moment offers to a closure with the given frame, if it is a read of a name that
is not local. -/
def Moment.freeUse? (m : Moment) (scope : ScopeId) : Option Occurrence :=
  match m.use with
  | .read name _ position => if m.isLocal scope then none else some ⟨name, position⟩
  | .rebind _ _ => none

/-- The free uses among moments, in order. -/
def freeUses (moments : List Moment) (scope : ScopeId) : List Occurrence :=
  moments.filterMap (·.freeUse? scope)

def Occurrence.ofName (name : String) (uses : List Occurrence) : List Occurrence :=
  uses.filter fun use => use.name = name

/-- A tracker notes one read per free use, and the positions of those that have one. -/
theorem Tracker.use_followAll {tracker : Tracker} {moments : List Moment} (name : String) :
    ((tracker.followAll moments).use name).references.length =
        (tracker.use name).references.length +
          (Occurrence.ofName name (freeUses moments tracker.scope)).length ∧
      ((tracker.followAll moments).use name).positions =
        (tracker.use name).positions ++
          (Occurrence.ofName name (freeUses moments tracker.scope)).filterMap (·.position) := by
  induction moments generalizing tracker with
  | nil => simp [freeUses, Occurrence.ofName]
  | cons m moments ih =>
      have step : tracker.followAll (m :: moments) = (tracker.follow m).followAll moments := rfl
      obtain ⟨count, positions⟩ := @ih (tracker.follow m)
      rw [step, count, positions, use_follow, follow_scope]
      obtain ⟨session, use⟩ := m
      cases use with
      | rebind bound readsSelf =>
          have skipped : freeUses (⟨session, .rebind bound readsSelf⟩ :: moments) tracker.scope =
              freeUses moments tracker.scope := rfl
          rw [skipped]
          split <;> exact ⟨rfl, rfl⟩
      | read read reference position =>
          cases here : (Moment.mk session (.read read reference position)).isLocal tracker.scope with
          | true => simp [freeUses, Moment.freeUse?, heeds, here]
          | false =>
              have noted : freeUses (⟨session, .read read reference position⟩ :: moments) tracker.scope =
                  ⟨read, position⟩ :: freeUses moments tracker.scope := by
                simp [freeUses, Moment.freeUse?, here]
              rw [noted]
              by_cases same : read = name
              · subst same
                rw [if_pos ⟨by simp [heeds, here], rfl⟩]
                constructor
                · simp only [FreeUse.grow, Occurrence.ofName, List.length_append, List.length_cons,
                    List.length_nil, List.filter_cons_of_pos, decide_true]
                  omega
                · cases position <;> simp [FreeUse.grow, Occurrence.ofName]
              · rw [if_neg fun both => same both.2]
                simp [Occurrence.ofName, same]

theorem Tracker.use_start_followAll (closure : Address) (scope : ScopeId) (moments : List Moment)
    (name : String) :
    (((start closure scope).followAll moments).use name).references.length =
        (Occurrence.ofName name (freeUses moments scope)).length ∧
      (((start closure scope).followAll moments).use name).positions =
        (Occurrence.ofName name (freeUses moments scope)).filterMap (·.position) := by
  obtain ⟨count, positions⟩ := use_followAll name
  exact ⟨count.trans (Nat.zero_add _), positions⟩

/-- A stretch that is passed inside of a frame: it starts with the names of `env` in view and ends
with those of `after`, and `found` are its free uses. -/
structure Passage (scope : ScopeId) (env after : List String) (found : List Occurrence)
    (s t : Session) : Prop where
  size_le : s.scopes.size ≤ t.scopes.size
  passed : ∃ moments, List.Forall₂ (OpenClosure.Follows moments) s.closures t.closures ∧
    (t.scopes.size ≤ 2 ^ 32 → s.Sees scope env →
      Onward s t ∧ t.current = s.current ∧ t.Sees scope after ∧ freeUses moments scope = found)

namespace Passage

variable {scope : ScopeId} {env between after : List String} {found more : List Occurrence}
  {s t u : Session}

theorem trans (first : Passage scope env between found s t)
    (second : Passage scope between after more t u) :
    Passage scope env after (found ++ more) s u := by
  obtain ⟨moments, follows, run⟩ := first.passed
  obtain ⟨moments', follows', run'⟩ := second.passed
  have grown := second.size_le
  refine ⟨Nat.le_trans first.size_le grown, moments ++ moments',
    forall₂_follows_trans follows follows', ?_⟩
  intro small sees
  obtain ⟨onward, current, middle, free⟩ := run (by omega) sees
  obtain ⟨onward', current', last, free'⟩ := run' small middle
  refine ⟨onward.trans sees.placed onward', current'.trans current, last, ?_⟩
  rw [freeUses, List.filterMap_append, ← free, ← free']
  rfl

/-- What touches neither frames nor trackers passes without a trace. -/
theorem quiet (scopes : t.scopes = s.scopes) (current : t.current = s.current)
    (follows : List.Forall₂ (OpenClosure.Follows []) s.closures t.closures) :
    Passage scope env env [] s t := by
  refine ⟨by rw [scopes], [], follows, ?_⟩
  intro _ sees
  exact ⟨(Onward.refl sees.placed).congr scopes current, current, sees.congr scopes current, rfl⟩

theorem refl (s : Session) : Passage scope env env [] s s :=
  quiet rfl rfl (forall₂_follows_refl _)

theorem emit (passage : Passage scope env after found s t) (node : Node) :
    Passage scope env after found s (t.emit node) := by
  have whole := passage.trans (u := t.emit node) (quiet rfl rfl (forall₂_follows_refl _))
  rwa [List.append_nil] at whole

theorem congr_env (passage : Passage scope env between found s t)
    (same : ∀ name, name ∈ between ↔ name ∈ after) : Passage scope env after found s t := by
  obtain ⟨moments, follows, run⟩ := passage.passed
  refine ⟨passage.size_le, moments, follows, ?_⟩
  intro small sees
  obtain ⟨onward, current, last, free⟩ := run small sees
  exact ⟨onward, current, last.congr_env same, free⟩

/-- A read is free exactly if its name is not in view. -/
theorem read (name : String) (reference : Address) (position : Option Position) :
    Passage scope env env (Occurrence.free env [⟨name, position⟩]) s
      (s.readSymbol name reference position) := by
  refine ⟨Nat.le_refl _, _, s.readSymbol_follows name reference position, ?_⟩
  intro _ sees
  refine ⟨(Onward.refl sees.placed).congr rfl rfl, rfl, sees.congr rfl rfl, ?_⟩
  have isLocal : (Moment.mk s (.read name reference position)).isLocal scope = true ↔ name ∈ env :=
    sees.isLocal_iff
  by_cases bound : name ∈ env
  · simp [freeUses, Moment.freeUse?, Occurrence.free, bound, isLocal.mpr bound]
  · have outer := mt isLocal.mp bound
    simp [freeUses, Moment.freeUse?, Occurrence.free, bound, outer]

theorem bind (reads : Option (OrderedSet String)) (binding : Binding) :
    Passage scope env (binding.name :: env) [] s (s.bindSymbol reads binding) := by
  refine ⟨Nat.le_of_eq Scopes.size_bind.symm, _, s.bindSymbol_follows reads binding, ?_⟩
  intro _ sees
  refine ⟨.bind sees.placed reads binding, rfl, sees.bind reads binding, ?_⟩
  cases reads with
  | none => rfl
  | some names => rfl

theorem bindAll {bindings : Bindings} {bound : List String} (names : bindings.names = bound)
    (reads : Option (OrderedSet String)) :
    Passage scope env (bound ++ env) [] s
      (bindings.foldl (fun s binding => s.bindSymbol reads binding) s) := by
  subst names
  induction bindings generalizing s env with
  | nil => exact refl s
  | cons binding bindings ih =>
      refine ((bind reads binding).trans ih).congr_env ?_
      intro name
      simp only [Bindings.names, List.map_cons, List.mem_append, List.mem_cons, List.cons_append]
      exact or_left_comm

/-- What a frame of its own brings into view is gone at its end. The frame may be that of a closure
which is open inside only. -/
theorem inFrame {entered : Session} {kind : ScopeKind}
    (inner : Passage scope env after found entered t)
    (opened : entered.scopes = (s.enter kind).scopes ∧ entered.current = (s.enter kind).current)
    (scopes : u.scopes = t.scopes) (current : u.current = s.current)
    (closures : ∀ moments, List.Forall₂ (OpenClosure.Follows moments) entered.closures t.closures →
      List.Forall₂ (OpenClosure.Follows moments) s.closures u.closures) :
    Passage scope env env found s u := by
  obtain ⟨moments, follows, run⟩ := inner.passed
  have grown := inner.size_le
  have size : (s.enter kind).scopes.size = s.scopes.size + 1 := Scopes.size_add
  rw [opened.1, size] at grown
  refine ⟨by rw [scopes]; omega, moments, closures moments follows, ?_⟩
  rw [scopes]
  intro small sees
  obtain ⟨onward, -, -, free⟩ := run small ((sees.enter (by omega) kind).congr opened.1 opened.2)
  have inside : Onward (s.enter kind) t := onward.start opened.1 opened.2
  have whole := ((Onward.enter sees.placed (by omega) kind).trans sees.placed inside).leave
    sees.placed scopes current
  refine ⟨whole, current, sees.of_agrees ?_ whole.placed.nested whole.size_le current, free⟩
  rw [scopes]
  exact inside.agrees_of_enter (by omega)

theorem framed {kind : ScopeKind} (inner : Passage scope env after found (s.enter kind) t) :
    Passage scope env env found s { t with current := s.current } :=
  inner.inFrame ⟨rfl, rfl⟩ rfl rfl fun _ follows => follows

/-- A closure that is closed again leaves the others to go on. -/
theorem closed {site : Address} {opened : OpenClosure} {others : List OpenClosure}
    (inner : Passage scope env after found (s.openClosure site) t)
    (top : t.closures = opened :: others) (scopes : u.scopes = t.scopes)
    (current : u.current = s.current) (closures : u.closures = others) :
    Passage scope env env found s u := by
  refine inner.inFrame (show _ = (s.enter .closure).scopes ∧ _ from ⟨rfl, rfl⟩) scopes current ?_
  intro moments follows
  rw [top] at follows
  rw [closures]
  cases follows with
  | cons _ others => exact others

end Passage

end SyntaxGraph
