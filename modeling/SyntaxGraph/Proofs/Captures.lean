import SyntaxGraph.Proofs.Brackets

/-!
# What a closure captures is what was looked up

Inside a bracket the frames around the closure stand still. A read that the tracker notes
was not answered inside of the closure, so its look-up went on to the frame around it and
was answered there as it would have been when the closure was opened, and as it is when the
closure is reported on. This is why frames and bindings may be recorded once, at the end.
-/

namespace SyntaxGraph

open Session

/-! ## Inside a bracket -/

/-- A session inside a bracket: the frames from before are the same, and the current frame lies
inside the frame of the closure. -/
structure Within (before u : Session) : Prop where
  placed : u.Placed
  size_lt : before.scopes.size < u.scopes.size
  agrees : Scopes.AgreesBelow before.scopes.size u.scopes before.scopes
  up : u.scopes.parent? before.scopes.next = some before.current
  inside : u.scopes.Inside u.current before.scopes.next

namespace Within

variable {before u : Session} {scope : ScopeId} {name : String}

theorem ofOnward (small : before.scopes.size < 2 ^ 32) {closure : Address}
    (onward : Onward (before.openClosure closure) u) : Within before u := by
  have scopes : (before.openClosure closure).scopes = before.scopes.add before.current .closure := rfl
  have next := Scopes.next_eq small
  have current : (before.openClosure closure).current = before.scopes.next := rfl
  have size : (before.openClosure closure).scopes.size = before.scopes.size + 1 := Scopes.size_add
  refine ⟨onward.placed, ?_, ?_, ?_, ?_⟩
  · have grown := onward.size_le
    omega
  · have entered : Onward (before.enter .closure) u := onward.start rfl rfl
    exact entered.agrees_of_enter small
  · rw [← current, onward.parent, scopes, current, next, Scopes.parent?, Scopes.frame?_add,
      if_pos rfl]
    rfl
  · rw [← current]
    exact onward.inside

/-- Seen from the frame around the closure, every look-up answers as before. -/
theorem lookup (within : Within before u) (placed : before.Placed) :
    u.scopes.lookup before.current name = before.scopes.lookup before.current name :=
  within.agrees.lookup within.placed.nested placed.nested (Nat.le_of_lt within.size_lt)
    (Nat.le_refl _) placed.standing

/-- Frames around a closure lie outside of it, however far the build has come. -/
theorem not_inside_of_around (within : Within before u) (placed : before.Placed)
    (around : before.scopes.Inside before.current scope) :
    ¬ u.scopes.Inside scope before.scopes.next := by
  have agrees : Scopes.AgreesBelow before.scopes.size before.scopes u.scopes :=
    fun scope old => (within.agrees scope old).symm
  have still := agrees.inside placed.nested placed.standing around
  exact still.not_inside_of_parent within.placed.nested within.up

end Within

namespace Moment

variable {m : Moment} {scope : ScopeId}

/-- Local means found inside of a frame. -/
theorem isLocal_iff (placed : m.session.Placed) :
    m.isLocal scope = true ↔
      ∃ answer, m.found = some answer ∧ m.session.scopes.Inside answer.1 scope := by
  have found : m.session.definingScope? m.name = m.found.map (·.1) := rfl
  unfold isLocal
  rw [found]
  cases answer : m.found with
  | none => simp
  | some answer' =>
      obtain ⟨inside, -⟩ := Scopes.inside_of_lookup placed.nested placed.standing answer
      have standing := Nat.lt_of_le_of_lt (inside.index_le placed.nested) placed.standing
      rw [Option.map_some]
      simp only [Option.some.injEq, exists_eq_left']
      exact Scopes.isWithin_iff_inside placed.nested standing

/-- What is not local to a closure was looked up around it, with the answer it had there from the
start. -/
theorem found_eq {before : Session} (placed : before.Placed) (within : Within before m.session)
    (outer : m.isLocal before.scopes.next = false) :
    m.found = before.scopes.lookup before.current m.name := by
  have outside : ∀ answer, m.found = some answer →
      ¬ m.session.scopes.Inside answer.1 before.scopes.next := by
    intro answer found inside
    have here := (isLocal_iff within.placed).mpr ⟨answer, found, inside⟩
    rw [outer] at here
    cases here
  rw [← within.lookup placed]
  exact Scopes.lookup_eq_of_outside within.placed.nested within.placed.standing within.inside
    within.up outside

end Moment

/-! ## What a bracket records -/

/-- The notes on a closure at the end of its bracket. -/
def bracketTracker (before : Session) (inner : Gain) (closure : Address) : Tracker :=
  (Tracker.start closure before.scopes.next).followAll inner.moments

namespace Bracket

variable {limits : Limits} {before after : Session} {inner : Gain} {report : ClosureReport}

theorem size_lt (bracket : Bracket limits before inner after report) :
    before.scopes.size < after.scopes.size := by
  obtain ⟨slots, course⟩ := bracket.course
  have grown := course.size_le
  have size : (before.openClosure report.closure).scopes.size = before.scopes.size + 1 :=
    Scopes.size_add
  omega

/-- The end of a bracket and all its moments lie inside of it. -/
theorem within (bracket : Bracket limits before inner after report) (placed : before.Placed)
    (small : after.scopes.size ≤ 2 ^ 32) :
    Within before after ∧ ∀ m ∈ inner.moments, Within before m.session := by
  have less := bracket.size_lt
  obtain ⟨slots, course⟩ := bracket.course
  have opened := Onward.openClosure placed (by omega) report.closure
  obtain ⟨onward, moments⟩ := course.onward opened.placed small
  exact ⟨.ofOnward (by omega) onward, fun m member => .ofOnward (by omega) (moments m member)⟩

/-- The frames around, listed from the frame the closure was opened in. -/
theorem listed (bracket : Bracket limits before inner after report) :
    after.scopes.summaries limits.maxDepth report.closure before.current = .ok report.scopeChain := by
  obtain ⟨slots, course⟩ := bracket.course
  obtain ⟨opened, others, top, reported⟩ := bracket.reported
  obtain ⟨closure, listed, -⟩ := Tracker.report_cases reported
  have enclosing : opened.enclosing = before.current := (course.opened_follows top).1
  rwa [enclosing, ← closure] at listed

theorem records (bracket : Bracket limits before inner after report) {capture : Capture}
    (member : capture ∈ report.captures) :
    (bracketTracker before inner report.closure).Records after.scopes before.current limits capture := by
  obtain ⟨slots, course⟩ := bracket.course
  obtain ⟨opened, others, top, reported⟩ := bracket.reported
  have follows := course.opened_follows top
  have records := Tracker.report_records reported member
  have use := follows.use capture.name
  refine ⟨?_, ?_, ?_, ?_, ?_⟩
  · exact (follows.captures capture.name).symm.trans records.noted
  · exact records.positions.trans (congrArg FreeUse.positions use)
  · exact records.references.trans (congrArg FreeUse.references use)
  · exact records.mutation.trans (congrArg (fun use => Mutation.classify use.rebinds) use)
  · have supplied := records.supplied
    rw [follows.closure, follows.1] at supplied
    rw [bracketTracker, Tracker.followAll_closure]
    exact supplied

theorem complete (bracket : Bracket limits before inner after report) {name : String}
    (noted : (bracketTracker before inner report.closure).captures name = true) :
    ∃ capture ∈ report.captures, capture.name = name := by
  obtain ⟨slots, course⟩ := bracket.course
  obtain ⟨opened, others, top, reported⟩ := bracket.reported
  exact Tracker.report_complete reported (((course.opened_follows top).captures name).trans noted)

/-- A supply is the answer that the name had around the closure when it was opened. -/
theorem supply_eq (bracket : Bracket limits before inner after report) (placed : before.Placed)
    (small : after.scopes.size ≤ 2 ^ 32) {capture : Capture} (member : capture ∈ report.captures) :
    (capture.supply.map fun supply => (supply.scope, supply.binding)) =
        ((before.scopes.lookup before.current capture.name).map fun answer =>
          (answer.1, answer.2.node)) ∧
      ∀ supply, capture.supply = some supply →
        before.scopes.kind? supply.scope = some supply.kind := by
  obtain ⟨within, -⟩ := bracket.within placed small
  have standing := Nat.lt_trans placed.standing within.size_lt
  have supplied := (bracket.records member).supplied
  rw [bracketTracker, Tracker.followAll_closure] at supplied
  obtain ⟨answer, kind⟩ := Scopes.supply_lookup within.placed.nested standing bracket.listed supplied
  rw [within.lookup placed] at answer
  refine ⟨answer, ?_⟩
  intro supply same
  rw [same, Option.map_some] at answer
  obtain ⟨found, lookup, pair⟩ := Option.map_eq_some_iff.mp answer.symm
  obtain ⟨inside, -⟩ := Scopes.inside_of_lookup placed.nested placed.standing lookup
  have old := inside.index_le placed.nested
  rw [(Prod.mk.inj pair).1] at old
  have known := kind supply same
  rwa [Scopes.kind?, within.agrees _ (Nat.lt_of_le_of_lt old placed.standing)] at known

/-- Every noted read was answered as the supply says. -/
theorem read_answer (bracket : Bracket limits before inner after report) (placed : before.Placed)
    (small : after.scopes.size ≤ 2 ^ 32) {capture : Capture} (member : capture ∈ report.captures)
    {m : Moment} (inMoments : m ∈ inner.moments) (named : m.name = capture.name)
    (outer : m.isLocal before.scopes.next = false) :
    (m.found.map fun answer => (answer.1, answer.2.node)) =
      capture.supply.map fun supply => (supply.scope, supply.binding) := by
  obtain ⟨-, moments⟩ := bracket.within placed small
  rw [m.found_eq placed (moments m inMoments) outer, named]
  exact (bracket.supply_eq placed small member).1.symm

end Bracket

end SyntaxGraph
