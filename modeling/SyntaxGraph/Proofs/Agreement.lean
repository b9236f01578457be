import SyntaxGraph.Proofs.Consistency

/-!
# Nested closures agree on what they share

Every use of a name inside of a closure is offered to all closures that are open, and each
decides by its own frame whether the name is local. What an inner closure takes from
outside of an outer one is not local to the outer one either, so the outer tracker heeds
whatever the inner one heeds and notes at least as much about the name. What the inner
closure takes from inside the outer one is local there and never noted.
-/

namespace SyntaxGraph

open Session

/-! ## Two trackers that follow the same moments -/

/-- One tracker has noted no more about a name than another. -/
structure Tracker.Weaker (inner outer : Tracker) (name : String) : Prop where
  captures : inner.captures name = true → outer.captures name = true
  references : (inner.use name).references.Sublist (outer.use name).references
  rebinds : (inner.use name).rebinds.Sublist (outer.use name).rebinds

namespace Tracker.Weaker

variable {inner outer : Tracker} {name : String} {m : Moment} {moments : List Moment}

theorem start (closure : Address) (scope : ScopeId) : (Tracker.start closure scope).Weaker outer name :=
  ⟨fun noted => (nomatch noted), List.nil_sublist _, List.nil_sublist _⟩

/-- The outer tracker may go on by itself. -/
theorem outerFollow (weaker : inner.Weaker outer name) : inner.Weaker (outer.follow m) name := by
  refine ⟨fun noted => (outer.captures_follow name).mpr (.inr (weaker.captures noted)), ?_, ?_⟩
  · rw [references_follow]
    exact weaker.references.trans (List.sublist_append_left _ _)
  · rw [use_follow]
    split
    · refine weaker.rebinds.trans ?_
      cases m.use with
      | read _ _ _ => exact List.Sublist.refl _
      | rebind _ _ => exact List.sublist_append_left _ _
    · exact weaker.rebinds

theorem outerFollowAll (weaker : inner.Weaker outer name) :
    inner.Weaker (outer.followAll moments) name := by
  induction moments generalizing outer with
  | nil => exact weaker
  | cons m moments ih => exact ih weaker.outerFollow

/-- What the inner tracker heeds, the outer one heeds as well. -/
theorem heeds (weaker : inner.Weaker outer name) (named : m.name = name)
    (shared : m.isLocal inner.scope = false → m.isLocal outer.scope = false)
    (heeded : inner.heeds m = true) : outer.heeds m = true := by
  obtain ⟨session, use⟩ := m
  simp only [Tracker.heeds, Bool.and_eq_true, Bool.not_eq_true'] at heeded ⊢
  refine ⟨shared heeded.1, ?_⟩
  cases use with
  | read _ _ _ => rfl
  | rebind bound readsSelf =>
      obtain rfl : bound = name := named
      simp only [Bool.or_eq_true] at heeded ⊢
      cases heeded.2 with
      | inl defined => exact .inl defined
      | inr noted => exact .inr (weaker.captures noted)

theorem follow (weaker : inner.Weaker outer name)
    (shared : m.name = name → m.isLocal inner.scope = false → m.isLocal outer.scope = false) :
    (inner.follow m).Weaker (outer.follow m) name := by
  by_cases heeded : inner.heeds m = true ∧ m.name = name
  · obtain ⟨heeded, named⟩ := heeded
    have both := weaker.heeds named (shared named) heeded
    refine ⟨fun _ => (outer.captures_follow name).mpr (.inl ⟨both, named⟩), ?_, ?_⟩
    · rw [use_follow, use_follow, if_pos ⟨heeded, named⟩, if_pos ⟨both, named⟩]
      cases m.use with
      | read _ reference _ => exact weaker.references.append_right _
      | rebind _ _ => exact weaker.references
    · rw [use_follow, use_follow, if_pos ⟨heeded, named⟩, if_pos ⟨both, named⟩]
      cases m.use with
      | read _ _ _ => exact weaker.rebinds
      | rebind _ readsSelf => exact weaker.rebinds.append_right _
  · -- The inner notes stay as they are, whatever the outer tracker does.
    have onward := weaker.outerFollow (m := m)
    have use : (inner.follow m).use name = inner.use name := by
      rw [use_follow, if_neg heeded]
    refine ⟨fun noted => ?_, by rw [use]; exact onward.references, by rw [use]; exact onward.rebinds⟩
    cases (inner.captures_follow name).mp noted with
    | inl now => exact absurd now heeded
    | inr before => exact onward.captures before

theorem followAll (weaker : inner.Weaker outer name)
    (shared : ∀ m ∈ moments, m.name = name → m.isLocal inner.scope = false →
      m.isLocal outer.scope = false) :
    (inner.followAll moments).Weaker (outer.followAll moments) name := by
  induction moments generalizing inner outer with
  | nil => exact weaker
  | cons m moments ih =>
      refine ih (weaker.follow (shared m List.mem_cons_self)) ?_
      intro m' member
      rw [follow_scope, follow_scope]
      exact shared m' (List.mem_cons_of_mem _ member)

end Tracker.Weaker

/-- More places that bind a name again never weaken its class. -/
theorem Mutation.classify_mono {few many : List Bool} (sublist : few.Sublist many) :
    (classify few = .rebind → classify many = .rebind) ∧
      (classify few = .shadow → classify many = .shadow ∨ classify many = .rebind) := by
  unfold classify
  have any : few.any id = true → many.any id = true := by
    intro some
    obtain ⟨flag, member, set⟩ := List.any_eq_true.mp some
    exact List.any_eq_true.mpr ⟨flag, sublist.subset member, set⟩
  have occupied : many.isEmpty = true → few.isEmpty = true := by
    intro none
    rw [List.isEmpty_iff] at none ⊢
    rw [none] at sublist
    exact List.sublist_nil.mp sublist
  constructor
  · intro rebind
    split at rebind
    · rename_i set
      rw [if_pos (any set)]
    · split at rebind <;> cases rebind
  · intro shadow
    split at shadow
    · cases shadow
    · split at shadow
      · cases shadow
      · rename_i some
        by_cases set : many.any id = true
        · exact .inr (if_pos set)
        · rw [if_neg set, if_neg (fun none => some (occupied none))]
          exact .inl rfl

/-! ## Frames around both closures -/

namespace Within

variable {before u : Session} {name : String}

/-- What answers from the frames around a closure answers as it did when the closure was opened. -/
theorem lookup_eq_of_around (within : Within before u) (placed : before.Placed)
    (around : ∀ answer, u.scopes.lookup u.current name = some answer →
      before.scopes.Inside before.current answer.1) :
    u.scopes.lookup u.current name = before.scopes.lookup before.current name := by
  rw [← within.lookup placed]
  refine Scopes.lookup_eq_of_outside within.placed.nested within.placed.standing within.inside
    within.up ?_
  intro answer found
  exact within.not_inside_of_around placed (around answer found)

end Within

/-- A report lists the frames that were around the closure when it was opened. -/
theorem Bracket.mem_scopeChain_iff {limits : Limits} {before after : Session} {inner : Gain}
    {report : ClosureReport} {scope : ScopeId} (bracket : Bracket limits before inner after report)
    (placed : before.Placed) (small : after.scopes.size ≤ 2 ^ 32) :
    scope ∈ report.scopeChain.map (·.scope) ↔ before.scopes.Inside before.current scope := by
  obtain ⟨within, -⟩ := bracket.within placed small
  have standing := Nat.lt_trans placed.standing within.size_lt
  rw [Scopes.mem_summaries_iff within.placed.nested standing bracket.listed]
  constructor
  · exact within.agrees.inside within.placed.nested placed.standing
  · intro around
    refine Scopes.AgreesBelow.inside ?_ placed.nested placed.standing around
    exact fun scope old => (within.agrees scope old).symm

/-! ## One bracket inside of another -/

/-- What a capture says about its supply, apart from how far out the frame is. -/
def Capture.source (capture : Capture) : Option (ScopeId × ScopeKind × Option Address) :=
  capture.supply.map fun supply => (supply.scope, supply.kind, supply.binding)

/-- What the frames say about a name that is looked up now. -/
def Session.source (s : Session) (name : String) : Option (ScopeId × ScopeKind × Option Address) :=
  (s.scopes.lookup s.current name).bind fun answer =>
    (s.scopes.kind? answer.1).map fun kind => (answer.1, kind, answer.2.node)

theorem Bracket.source_eq {limits : Limits} {before after : Session} {inner : Gain}
    {report : ClosureReport} {capture : Capture}
    (bracket : Bracket limits before inner after report) (placed : before.Placed)
    (small : after.scopes.size ≤ 2 ^ 32) (member : capture ∈ report.captures) :
    capture.source = before.source capture.name := by
  obtain ⟨answer, kind⟩ := bracket.supply_eq placed small member
  unfold Capture.source Session.source
  cases supplied : capture.supply with
  | none =>
      rw [supplied, Option.map_none] at answer
      rw [Option.map_eq_none_iff.mp answer.symm]
      rfl
  | some supply =>
      rw [supplied, Option.map_some] at answer
      obtain ⟨found, lookup, pair⟩ := Option.map_eq_some_iff.mp answer.symm
      obtain ⟨scope, node⟩ := Prod.mk.inj pair
      rw [lookup, Option.bind_some, scope, kind supply supplied, node]
      rfl

/-- The supply of a capture is unknown or stands in a frame around another closure. -/
def Capture.IsAround (capture : Capture) (outer : ClosureReport) : Prop :=
  ∀ supply, capture.supply = some supply → supply.scope ∈ outer.scopeChain.map (·.scope)

/-- A bracket inside of another, in a build that numbers all its frames. -/
structure Nests (limits : Limits) (start : Session) (gain : Gain) (last : Session)
    (outer : ClosureReport) (before : Session) (inner : Gain) (after : Session)
    (report : ClosureReport) : Prop where
  placed : start.Placed
  small : last.scopes.size ≤ 2 ^ 32
  bracket : Bracket limits start gain last outer
  encloses : Encloses limits (start.openClosure outer.closure) gain last before inner after report

namespace Nests

variable {limits : Limits} {start last before after : Session} {gain inner : Gain}
  {outer report : ClosureReport} {capture other : Capture}

theorem innerSmall (nests : Nests limits start gain last outer before inner after report) :
    after.scopes.size ≤ 2 ^ 32 :=
  Nat.le_trans nests.encloses.size_le nests.small

theorem within (nests : Nests limits start gain last outer before inner after report) :
    Within start before :=
  .ofOnward (Nat.lt_of_lt_of_le nests.bracket.size_lt nests.small) nests.encloses.onward

/-- The inner look-up of a name that is supplied around the outer closure ends there. -/
theorem answer_around (nests : Nests limits start gain last outer before inner after report)
    (member : capture ∈ report.captures) (around : capture.IsAround outer)
    {answer : ScopeId × Binding}
    (found : before.scopes.lookup before.current capture.name = some answer) :
    start.scopes.Inside start.current answer.1 := by
  have same := (nests.encloses.bracket.supply_eq nests.encloses.onward.placed nests.innerSmall
    member).1
  rw [found] at same
  obtain ⟨supply, supplied, pair⟩ := Option.map_eq_some_iff.mp same
  rw [← (Prod.mk.inj pair).1]
  exact (nests.bracket.mem_scopeChain_iff nests.placed nests.small).mp (around supply supplied)

/-- Both closures see such a name in the same frame. -/
theorem source_eq (nests : Nests limits start gain last outer before inner after report)
    (member : capture ∈ report.captures) (around : capture.IsAround outer) :
    capture.source = start.source capture.name := by
  have placed := nests.placed
  have within := nests.within
  have lookup := within.lookup_eq_of_around placed fun _ found =>
    nests.answer_around member around found
  rw [nests.encloses.bracket.source_eq nests.encloses.onward.placed nests.innerSmall member,
    Session.source, Session.source, lookup]
  cases found : start.scopes.lookup start.current capture.name with
  | none => rfl
  | some answer =>
      obtain ⟨inside, -⟩ := Scopes.inside_of_lookup placed.nested placed.standing found
      have old := Nat.lt_of_le_of_lt (inside.index_le placed.nested) placed.standing
      rw [Option.bind_some, Option.bind_some, Scopes.kind?, Scopes.kind?, within.agrees _ old]

/-- What is not local to the inner closure is not local to the outer one. -/
theorem not_local (nests : Nests limits start gain last outer before inner after report)
    (member : capture ∈ report.captures) (around : capture.IsAround outer) {m : Moment}
    (inMoments : m ∈ inner.moments) (named : m.name = capture.name)
    (notInner : m.isLocal before.scopes.next = false) : m.isLocal start.scopes.next = false := by
  have placed := nests.encloses.onward.placed
  have innerMoments := (nests.encloses.bracket.within placed nests.innerSmall).2
  have outerMoments := (nests.bracket.within nests.placed nests.small).2
  have within := outerMoments m (nests.encloses.moments.subset inMoments)
  have found := m.found_eq placed (innerMoments m inMoments) notInner
  by_contra isLocal
  rw [Bool.not_eq_false, Moment.isLocal_iff within.placed] at isLocal
  obtain ⟨answer, answered, inside⟩ := isLocal
  rw [found, named] at answered
  exact within.not_inside_of_around nests.placed (nests.answer_around member around answered) inside

/-- The outer tracker has noted at least as much about such a name. -/
theorem weaker (nests : Nests limits start gain last outer before inner after report)
    (member : capture ∈ report.captures) (around : capture.IsAround outer) :
    (bracketTracker before inner report.closure).Weaker
      (bracketTracker start gain outer.closure) capture.name := by
  obtain ⟨earlier, later, split⟩ := nests.encloses.moments
  rw [bracketTracker, bracketTracker, ← split, Tracker.followAll_append, Tracker.followAll_append]
  apply Tracker.Weaker.outerFollowAll
  apply Tracker.Weaker.followAll (.start _ _)
  intro m inMoments named notInner
  rw [Tracker.followAll_scope]
  exact nests.not_local member around inMoments named notInner

/-- What is supplied between the two closures is local to the outer one. -/
theorem isLocal_of_between (nests : Nests limits start gain last outer before inner after report)
    (member : capture ∈ report.captures) (between : ¬ capture.IsAround outer) {m : Moment}
    (inMoments : m ∈ inner.moments) (named : m.name = capture.name)
    (notInner : m.isLocal before.scopes.next = false) : m.isLocal start.scopes.next = true := by
  have outerMoments := (nests.bracket.within nests.placed nests.small).2
  have within := outerMoments m (nests.encloses.moments.subset inMoments)
  by_contra notLocal
  rw [Bool.not_eq_true] at notLocal
  apply between
  intro supply supplied
  have answer := nests.encloses.bracket.read_answer nests.encloses.onward.placed nests.innerSmall
    member inMoments named notInner
  rw [m.found_eq nests.placed within notLocal, supplied, Option.map_some] at answer
  obtain ⟨found, lookup, pair⟩ := Option.map_eq_some_iff.mp answer
  rw [nests.bracket.mem_scopeChain_iff nests.placed nests.small, ← (Prod.mk.inj pair).1]
  exact (Scopes.inside_of_lookup nests.placed.nested nests.placed.standing lookup).1

end Nests

/-! ## Agreement -/

/-- A capture of an outer closure that stands for one of an inner closure as well. -/
structure Capture.Covers (other capture : Capture) : Prop where
  name : other.name = capture.name
  /-- The same frame and the same binding, or none known to either. -/
  source : other.source = capture.source
  /-- The reads of the inner closure are among those of the outer one, in order. -/
  references : capture.references.Sublist other.references
  rebind : capture.mutation = .rebind → other.mutation = .rebind
  shadow : capture.mutation = .shadow → other.mutation = .shadow ∨ other.mutation = .rebind

namespace Nests

variable {limits : Limits} {start last before after : Session} {gain inner : Gain}
  {outer report : ClosureReport} {capture other : Capture}

theorem exists_covers (nests : Nests limits start gain last outer before inner after report)
    (member : capture ∈ report.captures) (around : capture.IsAround outer) :
    ∃ other ∈ outer.captures, other.Covers capture := by
  have weaker := nests.weaker member around
  have records := nests.encloses.bracket.records member
  obtain ⟨other, found, named⟩ := nests.bracket.complete (weaker.captures records.noted)
  have noted := nests.bracket.records found
  have mutation := Mutation.classify_mono weaker.rebinds
  rw [← records.mutation, ← named, ← noted.mutation] at mutation
  refine ⟨other, found, named, ?_, ?_, mutation.1, mutation.2⟩
  · rw [nests.bracket.source_eq nests.placed nests.small found, named,
      nests.source_eq member around]
  · rw [records.references, noted.references, named]
    exact weaker.references

/-- Each node reads one name once, so a read that is local to the outer closure is noted nowhere
in its report. -/
theorem references_disjoint (nests : Nests limits start gain last outer before inner after report)
    (member : capture ∈ report.captures) (between : ¬ capture.IsAround outer)
    (found : other ∈ outer.captures) {site : Address} (recorded : site ∈ capture.references) :
    site ∉ other.references := by
  intro shared
  rw [(nests.encloses.bracket.records member).references] at recorded
  rw [(nests.bracket.records found).references] at shared
  obtain ⟨m, inMoments, reads, named, notInner⟩ := Tracker.moment_of_mem_references recorded
  obtain ⟨m', inGain, reads', -, notOuter⟩ := Tracker.moment_of_mem_references shared
  obtain ⟨slots, course⟩ := nests.bracket.course
  obtain rfl : m = m' := eq_of_nodup_filterMap course.references_nodup
    (nests.encloses.moments.subset inMoments) inGain reads reads'
  rw [nests.isLocal_of_between member between inMoments named notInner] at notOuter
  cases notOuter

end Nests

/-- Two reports of which one closure lies inside of the other have nested brackets. -/
theorem Compiler.Traces.nests {c : Compiler} {k : Construct} {compiled : Compiled} {gain : Gain}
    (traces : c.Traces k compiled gain) (few : c.openedFrames k < 2 ^ 32)
    {inner outer : ClosureReport} (hinner : inner ∈ compiled.closures)
    (houter : outer ∈ compiled.closures) (within : inner.closure.isWithin outer.closure = true)
    (strict : inner.closure ≠ outer.closure) :
    ∃ start g last before g' after, Nests c.limits start g last outer before g' after inner := by
  obtain ⟨t, -, -, course, small, placed⟩ := traces.small few
  obtain ⟨start, g, last, e⟩ := course.bracket placed small (traces.report_mem.mp houter)
  have lastSmall := Nat.le_trans e.size_le small
  obtain ⟨slots, body⟩ := e.bracket.course
  have startSmall := Nat.lt_of_lt_of_le e.bracket.size_lt lastSmall
  have opened := Onward.openClosure e.onward.placed startSmall outer.closure
  obtain ⟨before, g', after, e'⟩ := body.bracket opened.placed lastSmall
    (e.reports inner (traces.report_mem.mp hinner) within strict)
  exact ⟨start, g, last, before, g', after, e.onward.placed, lastSmall, e.bracket, e'⟩

/-- Nested closures agree on the captures they share. -/
theorem Compiler.construct_agreement {c : Compiler} {k : Construct} {compiled : Compiled}
    (h : c.construct k = .ok compiled) (few : c.openedFrames k < 2 ^ 32)
    {inner outer : ClosureReport} (hinner : inner ∈ compiled.closures)
    (houter : outer ∈ compiled.closures) (within : inner.closure.isWithin outer.closure = true)
    (strict : inner.closure ≠ outer.closure) {capture : Capture}
    (member : capture ∈ inner.captures) :
    (capture.IsAround outer → ∃ other ∈ outer.captures, other.Covers capture) ∧
      (¬ capture.IsAround outer → ∀ other ∈ outer.captures, ∀ site ∈ capture.references,
        site ∉ other.references) := by
  obtain ⟨gain, traces⟩ := exists_traces h
  obtain ⟨_, _, _, _, _, _, nests⟩ := traces.nests few hinner houter within strict
  refine ⟨nests.exists_covers member, ?_⟩
  intro between other found site recorded
  exact nests.references_disjoint member between found recorded

/-- `x = 1; fn a -> fn b -> x + a + b end end`, where the inner closure takes `x` from around both
closures and `a` from between them. -/
def captureThrough : Construct :=
  .expression ⟨"expr/0"⟩ (.block [
    .binary "=" (.symbol "x" .empty) (.integer 1),
    .closure [.clause [.symbol "a" .empty]
      (.closure [.clause [.symbol "b" .empty]
        (.binary "+" (.binary "+" (.symbol "x" .empty) (.symbol "a" .empty))
          (.symbol "b" .empty))])]])

theorem Compiler.construct_agreement_captureThrough :
    ∃ compiled inner outer, Compiler.construct ⟨.standard, []⟩ captureThrough = .ok compiled ∧
      compiled.closures = [inner, outer] ∧
      inner.captures.map (·.name) = ["a", "x"] ∧ outer.captures.map (·.name) = ["x"] ∧
      ∀ capture ∈ inner.captures,
        (capture.IsAround outer → ∃ other ∈ outer.captures, other.Covers capture) ∧
          (¬ capture.IsAround outer → ∀ other ∈ outer.captures, ∀ site ∈ capture.references,
            site ∉ other.references) := by
  have overview : ((Compiler.construct ⟨.standard, []⟩ captureThrough).toOption.map fun compiled =>
      compiled.closures.map fun report => (report.closure, report.captures.map (·.name))) =
      some [(⟨"expr/0/statement/1/clause/0/body"⟩, ["a", "x"]), (⟨"expr/0/statement/1"⟩, ["x"])] := by
    decide +kernel
  have few : Compiler.openedFrames ⟨.standard, []⟩ captureThrough < 2 ^ 32 := by decide +kernel
  cases success : Compiler.construct ⟨.standard, []⟩ captureThrough with
  | error fault =>
      rw [success] at overview
      cases overview
  | ok compiled =>
      rw [success] at overview
      obtain ⟨inner, rest, closures, inPair, rest'⟩ :=
        List.map_eq_cons_iff.mp (Option.some.inj overview)
      obtain ⟨outer, none, rfl, outPair, last⟩ := List.map_eq_cons_iff.mp rest'
      obtain rfl := List.map_eq_nil_iff.mp last
      obtain ⟨inSite, inNames⟩ := Prod.mk.inj inPair
      obtain ⟨outSite, outNames⟩ := Prod.mk.inj outPair
      refine ⟨compiled, inner, outer, rfl, closures, inNames, outNames, ?_⟩
      intro capture member
      refine Compiler.construct_agreement success few ?_ ?_ ?_ ?_ member
      · rw [closures]
        exact List.mem_cons_self
      · rw [closures]
        exact List.mem_cons_of_mem _ List.mem_cons_self
      · rw [inSite, outSite]
        decide +kernel
      · rw [inSite, outSite]
        decide +kernel

end SyntaxGraph
