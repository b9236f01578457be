import SyntaxGraph.Proofs.Captures

/-!
# Reports are consistent

Every capture of a compiled construct names a supplying frame that can be read off the
frames listed in its report, and a binding that stands outside of the closure. The frame and
the binding are those that the look-up answered with at each of the reads recorded for the
capture, although they are recorded only when the closure is reported on.
-/

namespace SyntaxGraph

open Session

namespace Compiler

/-- How many frames are opened around a construct and while it is built, the module frame apart. -/
def openedFrames (c : Compiler) (k : Construct) : Nat :=
  match ((k.build c).run c.limits).run c.session with
  | .ok (_, t) => t.scopes.size - 1
  | .error _ => 0

/-- A course that leads to what a construct is compiled to. -/
def Traces (c : Compiler) (k : Construct) (compiled : Compiled) (gain : Gain) : Prop :=
  ∃ t, (k.build c).Yields c.limits c.session () t ∧ compiled = finish k.root t ∧
    Course c.limits [k.root] gain c.session t

variable {c : Compiler} {k : Construct} {compiled : Compiled} {gain : Gain}

theorem exists_traces (h : c.construct k = .ok compiled) : ∃ gain, c.Traces k compiled gain := by
  obtain ⟨t, success, finished⟩ := construct_eq_ok h
  obtain ⟨gain, course⟩ := construct_built success
  exact ⟨gain, t, success, finished, course⟩

/-! ## The session a construct starts from -/

theorem size_foldl_bind (names : List String) (scopes : Scopes) (scope : ScopeId) :
    (names.foldl (fun scopes name => scopes.bind scope ⟨name, none, none⟩) scopes).size =
      scopes.size := by
  induction names generalizing scopes with
  | nil => rfl
  | cons name names ih => exact (ih _).trans Scopes.size_bind

theorem nested_foldl_bind (names : List String) {scopes : Scopes} (scope : ScopeId)
    (nested : scopes.Nested) :
    (names.foldl (fun scopes name => scopes.bind scope ⟨name, none, none⟩) scopes).Nested := by
  induction names generalizing scopes with
  | nil => exact nested
  | cons name names ih => exact ih nested.bind

theorem openFrames_size_le (frames : List (ScopeKind × List String)) (scopes : Scopes)
    (current : ScopeId) : scopes.size ≤ (openFrames frames scopes current).1.size := by
  induction frames generalizing scopes current with
  | nil => exact Nat.le_refl _
  | cons first rest ih =>
      refine Nat.le_trans ?_ (ih _ _)
      rw [size_foldl_bind, Scopes.size_add]
      exact Nat.le_succ _

/-- Frames around a construct are nested as long as their numbers suffice. -/
theorem openFrames_placed (frames : List (ScopeKind × List String)) {scopes : Scopes}
    {current : ScopeId} (nested : scopes.Nested) (standing : current.index < scopes.size)
    (small : (openFrames frames scopes current).1.size ≤ 2 ^ 32) :
    (openFrames frames scopes current).1.Nested ∧
      (openFrames frames scopes current).2.index < (openFrames frames scopes current).1.size := by
  induction frames generalizing scopes current with
  | nil => exact ⟨nested, standing⟩
  | cons first rest ih =>
      obtain ⟨kind, names⟩ := first
      have grown := openFrames_size_le rest
        (names.foldl (fun scopes' name => scopes'.bind scopes.next ⟨name, none, none⟩)
          (scopes.add current kind)) scopes.next
      rw [size_foldl_bind, Scopes.size_add] at grown
      refine ih (nested_foldl_bind names _ (nested.add standing)) ?_ small
      rw [size_foldl_bind, Scopes.size_add]
      replace small := Nat.le_trans grown small
      rw [Scopes.next_eq (by omega)]
      exact Nat.lt_succ_self _

theorem session_placed (small : c.session.scopes.size ≤ 2 ^ 32) : c.session.Placed := by
  obtain ⟨nested, standing⟩ := openFrames_placed c.frames Scopes.initial_nested
    (show ScopeId.root.index < Scopes.initial.size from Nat.zero_lt_one) small
  exact ⟨nested, standing⟩

/-- A course of a construct that opens few frames. -/
theorem Traces.small (traces : c.Traces k compiled gain) (few : c.openedFrames k < 2 ^ 32) :
    ∃ t, (k.build c).Yields c.limits c.session () t ∧ compiled = finish k.root t ∧
      Course c.limits [k.root] gain c.session t ∧ t.scopes.size ≤ 2 ^ 32 ∧ c.session.Placed := by
  obtain ⟨t, success, finished, course⟩ := traces
  have size : t.scopes.size ≤ 2 ^ 32 := by
    unfold openedFrames at few
    rw [show ((k.build c).run c.limits).run c.session = .ok ((), t) from success] at few
    dsimp only at few
    omega
  exact ⟨t, success, finished, course, size, session_placed (Nat.le_trans course.size_le size)⟩

theorem Traces.report_mem (traces : c.Traces k compiled gain) {report : ClosureReport} :
    report ∈ compiled.closures ↔ report ∈ gain.reports := by
  obtain ⟨t, -, rfl, course⟩ := traces
  rw [show (finish k.root t).closures = t.reports.toList from rfl, course.reports_eq]
  exact Iff.rfl

/-- Closure analysis answers with the report on the root. -/
theorem closure_of_report {root : Address} {source : Source} {report : ClosureReport}
    (h : c.construct (.expression root source) = .ok compiled) (member : report ∈ compiled.closures)
    (here : report.closure = root) : c.closure root source = .ok report := by
  obtain ⟨gain, t, -, rfl, course⟩ := exists_traces h
  have distinct : ((finish root t).closures.map (·.closure)).Nodup := by
    rw [show (finish root t).closures = gain.reports from course.reports_eq]
    exact course.closures_nodup
  have found := Compiled.closure?_of_nodup distinct member
  rw [here] at found
  rw [closure, show c.expression root source = .ok (finish root t) from h]
  show Except.ok (((finish root t).closure? root).getD (.empty root)) = .ok report
  rw [found, Option.getD_some]

/-- Closure analysis of an anonymous function answers with what its tracker reports once all clauses
are built. -/
theorem closure_answer {root : Address} {source : Source} {items : List Source}
    (isClosure : source.expression = .closure items)
    (h : c.construct (.expression root source) = .ok compiled)
    (few : c.openedFrames (.expression root source) < 2 ^ 32) :
    ∃ clauses addresses v opened others report,
      List.Forall₂ (fun item clause => Clause.ofSource? item = some clause) items clauses ∧
      (Build.eachPart root .clause (Build.closureClause (.ofRoom (c.limits.maxDepth - 1))) clauses).Yields
        c.limits (c.session.openClosure root) addresses v ∧
      v.closures = opened :: others ∧
      opened.tracker.report v.scopes opened.enclosing c.limits = .ok report ∧
      c.closure root source = .ok report ∧ v.nodes.toList ⊆ compiled.nodes ∧
      v.scopes.size ≤ 2 ^ 32 ∧ c.session.Placed := by
  obtain ⟨gain, traces⟩ := exists_traces h
  obtain ⟨t, success, rfl, -, small, placed⟩ := traces.small few
  have step := Level.yields_expression success
  rw [Build.expressionStep, isClosure] at step
  obtain ⟨clauses, arity, addresses, v, w, final, each, -, parts, closed, rfl⟩ :=
    Build.yields_anonymousFunction step
  obtain ⟨-, built⟩ := Build.eachPart_built
    (fun _ _ _ _ _ part => (Build.closureClause_framed (Level.ofRoom_sound _) part).built) parts
  obtain ⟨opened, others, top, here⟩ := Build.opened_closure built
  obtain ⟨report, reported, -, rfl⟩ := Build.yields_closeClosure top closed
  refine ⟨clauses, addresses, v, opened, others, report, each, parts, top, reported, ?_, ?_, small,
    placed⟩
  · refine closure_of_report h ?_ ((Tracker.report_closure reported).trans here)
    show report ∈ (v.reports.push report).toList
    simp
  · intro n member
    refine (sortNodes_perm _).mem_iff.mpr ?_
    show n ∈ ((v.close opened.enclosing others report).emit final).nodes.toList
    rw [Session.emit_nodes, Session.close_nodes]
    exact List.mem_append_left _ (List.mem_append_left _ member)

end Compiler

/-- If no two members give the same value, a member is known by its value. -/
theorem eq_of_nodup_filterMap {α β : Type} {f : α → Option β} {xs : List α}
    (distinct : (xs.filterMap f).Nodup) {x y : α} (hx : x ∈ xs) (hy : y ∈ xs) {b : β}
    (fx : f x = some b) (fy : f y = some b) : x = y := by
  induction xs with
  | nil => exact (nomatch hx)
  | cons z zs ih =>
      have rest := ((List.sublist_cons_self z zs).filterMap f).nodup distinct
      cases List.mem_cons.mp hx with
      | inl xHere =>
          subst xHere
          rw [List.filterMap_cons_some fx] at distinct
          cases List.mem_cons.mp hy with
          | inl yHere => exact yHere.symm
          | inr yLater =>
              exact absurd (List.mem_filterMap.mpr ⟨y, yLater, fy⟩) (List.nodup_cons.mp distinct).1
      | inr xLater =>
          cases List.mem_cons.mp hy with
          | inl yHere =>
              subst yHere
              rw [List.filterMap_cons_some fy] at distinct
              exact absurd (List.mem_filterMap.mpr ⟨x, xLater, fx⟩) (List.nodup_cons.mp distinct).1
          | inr yLater => exact ih rest xLater yLater

/-- What a report says about a capture, compared with the frames it lists, with the nodes and with
the moments of the build. -/
structure Capture.Consistent (capture : Capture) (report : ClosureReport) (nodes : List Node)
    (moments : List Moment) : Prop where
  /-- The supply is the first listed frame that binds the name, if there is one. -/
  listed : Scopes.Listed report.scopeChain capture.name capture.supply
  /-- A binding is a pattern of that name outside of the closure. -/
  bound : ∀ supply site, capture.supply = some supply → supply.binding = some site →
    site.isWithin report.closure = false ∧ ∃ node ∈ nodes, node.address = site ∧
      node.kind = .variablePattern ∧ node.text? "name" = some capture.name
  /-- Every recorded read was made at some moment. -/
  read : ∀ site ∈ capture.references, ∃ m ∈ moments, m.reference? = some site
  /-- Whenever a recorded read was made, the look-up answered with that frame and binding. -/
  answered : ∀ m ∈ moments, ∀ site ∈ capture.references, m.reference? = some site →
    m.name = capture.name ∧ (m.found.map fun answer => (answer.1, answer.2.node)) =
      capture.supply.map fun supply => (supply.scope, supply.binding)

theorem Encloses.consistent {limits : Limits} {roots : List Address} {s t before after : Session}
    {gain inner : Gain} {report : ClosureReport} {capture : Capture}
    (course : Course limits roots gain s t) (e : Encloses limits s gain t before inner after report)
    (small : t.scopes.size ≤ 2 ^ 32) (settled : s.Settled) (empty : s.nodes = #[])
    (member : capture ∈ report.captures) :
    capture.Consistent report t.nodes.toList gain.moments := by
  have placed := e.onward.placed
  replace small := Nat.le_trans e.size_le small
  have records := e.bracket.records member
  have reads : ∀ site ∈ capture.references, ∃ m ∈ inner.moments, m.reference? = some site ∧
      m.name = capture.name ∧ m.isLocal before.scopes.next = false := by
    intro site recorded
    rw [records.references] at recorded
    exact Tracker.moment_of_mem_references recorded
  refine ⟨?_, ?_, ?_, ?_⟩
  · have supplied := records.supplied
    rw [bracketTracker, Tracker.followAll_closure] at supplied
    exact Scopes.supply_listed e.bracket.listed supplied
  · intro supply site supplied bound
    have answer := (e.bracket.supply_eq placed small member).1
    rw [supplied, Option.map_some, bound] at answer
    obtain ⟨⟨scope, binding⟩, found, same⟩ := Option.map_eq_some_iff.mp answer.symm
    obtain ⟨rfl, node⟩ := Prod.mk.inj same
    obtain ⟨-, here⟩ := Scopes.inside_of_lookup placed.nested placed.standing found
    obtain ⟨frame, present, get⟩ := Option.bind_eq_some_iff.mp here
    obtain ⟨named, introduced⟩ := (e.settled settled).origin present get
    obtain ⟨pattern, standing, address, kind, text⟩ := introduced site node
    obtain ⟨nodes, earlier, elsewhere⟩ := e.earlier
    rw [empty] at earlier
    have same : pattern.address = site := Option.some.inj (address.symm.trans node)
    refine ⟨?_, pattern, e.nodes standing, same, kind, by rw [text, named]⟩
    rw [earlier] at standing
    rw [← same]
    exact elsewhere pattern standing
  · intro site recorded
    obtain ⟨m, inMoments, reference, -⟩ := reads site recorded
    exact ⟨m, e.moments.subset inMoments, reference⟩
  · intro m inMoments site recorded reference
    obtain ⟨m', inInner, reference', named, outer⟩ := reads site recorded
    obtain rfl : m = m' := eq_of_nodup_filterMap course.references_nodup inMoments
      (e.moments.subset inInner) reference reference'
    exact ⟨named, e.bracket.read_answer placed small member inInner named outer⟩

/-- Every report is consistent and points at the right bindings. -/
theorem Compiler.construct_consistent {c : Compiler} {k : Construct} {compiled : Compiled}
    (h : c.construct k = .ok compiled) (few : c.openedFrames k < 2 ^ 32) :
    (∃ gain, c.Traces k compiled gain) ∧ ∀ gain, c.Traces k compiled gain →
      ∀ report ∈ compiled.closures, ∀ capture ∈ report.captures,
        capture.Consistent report compiled.nodes gain.moments := by
  refine ⟨exists_traces h, ?_⟩
  intro gain traces report reported capture member
  obtain ⟨t, -, finished, course, small, placed⟩ := traces.small few
  obtain ⟨before, inner, after, e⟩ :=
    course.bracket placed small (traces.report_mem.mp reported)
  have consistent := e.consistent course small c.session_settled rfl member
  refine ⟨consistent.listed, ?_, consistent.read, consistent.answered⟩
  intro supply site supplied bound
  obtain ⟨elsewhere, node, standing, known⟩ := consistent.bound supply site supplied bound
  refine ⟨elsewhere, node, ?_, known⟩
  rw [finished]
  exact (sortNodes_perm t.nodes.toList).mem_iff.mpr standing

/-- In `x = 1; fn y -> x + y end` the closure captures `x`, which the match binds. -/
theorem Compiler.construct_consistent_captureAcross :
    ∃ compiled, Compiler.construct ⟨.standard, []⟩ captureAcross = .ok compiled ∧
      Compiler.openedFrames ⟨.standard, []⟩ captureAcross < 2 ^ 32 ∧
      (compiled.closures.map fun report => report.captures.map (·.name)) = [["x"]] ∧
      (∃ gain, Compiler.Traces ⟨.standard, []⟩ captureAcross compiled gain) ∧
      ∀ gain, Compiler.Traces ⟨.standard, []⟩ captureAcross compiled gain →
        ∀ report ∈ compiled.closures, ∀ capture ∈ report.captures,
          capture.Consistent report compiled.nodes gain.moments := by
  obtain ⟨compiled, success, captured⟩ :
      ∃ compiled, Compiler.construct ⟨.standard, []⟩ captureAcross = .ok compiled ∧
        (compiled.closures.map fun report => report.captures.map (·.name)) = [["x"]] :=
    ⟨_, rfl, rfl⟩
  have few : Compiler.openedFrames ⟨.standard, []⟩ captureAcross < 2 ^ 32 := by decide
  exact ⟨compiled, success, few, captured, Compiler.construct_consistent success few⟩

end SyntaxGraph
