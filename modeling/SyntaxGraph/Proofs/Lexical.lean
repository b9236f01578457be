import Mathlib.Data.List.Nodup
import SyntaxGraph.Proofs.Consistency
import SyntaxGraph.Proofs.FreeNames

/-!
# Captures are the lexical free variables

The report on an anonymous function is made from a tracker that was offered every use of a
name in its clauses. Seen from the frame of the closure nothing is bound when it opens, so
the uses it notes are those that the recursion over the term finds free, name by name and
in order. Which frames stand around the closure, and what they bind, plays no part.
-/

namespace SyntaxGraph

open Session

/-- Nothing is bound inside of a closure that has just been opened. -/
theorem Session.Sees.opened {s : Session} (placed : s.Placed) (small : s.scopes.size < 2 ^ 32)
    (site : Address) : (s.openClosure site).Sees s.scopes.next [] := by
  have entered := Onward.openClosure placed small site
  have within := Within.ofOnward small (Onward.refl entered.placed)
  have absent : ∀ name, (s.openClosure site).scopes.lookupLocal s.scopes.next name = none := by
    intro name
    rw [Scopes.next_eq small, Scopes.lookupLocal]
    show ((s.scopes.add s.current .closure).frame? _).bind _ = _
    rw [Scopes.frame?_add, if_pos rfl]
    rfl
  refine ⟨within.placed, within.inside, ?_⟩
  intro name
  refine ⟨fun bound => absurd bound List.not_mem_nil, ?_⟩
  rintro ⟨answer, found, inside⟩
  rw [Scopes.lookup_of_parent within.placed.nested within.placed.standing (absent name) within.up,
    within.lookup placed] at found
  obtain ⟨around, -⟩ := Scopes.inside_of_lookup placed.nested placed.standing found
  exact absurd inside (within.not_inside_of_around placed around)

/-- What is built at a level is built from a level below it. -/
theorem Level.expression_cases {room : Nat} {site : Address} {source : Source} {limits : Limits}
    {s t : Session} {u : Unit} (h : ((ofRoom room).expression site source).Yields limits s u t) :
    ∃ level inner : Level, level.Lexical ∧
      (Build.expressionStep level inner site source).Yields limits s u t :=
  ⟨_, _, ofRoom_lexical _, yields_expression h⟩

/-- A report compared with the free uses of names in a term. -/
structure ClosureReport.IsLexical (report : ClosureReport) (uses : List Occurrence) : Prop where
  /-- A name is read from outside exactly if it has a free use. -/
  names : ∀ name, (∃ capture ∈ report.captures, capture.name = name ∧ 1 ≤ capture.referenceCount) ↔
    ∃ use ∈ uses, use.name = name
  /-- No name is captured twice. -/
  distinct : (report.captures.map (·.name)).Nodup
  /-- Every capture is read as often as its name has free uses. -/
  counts : ∀ capture ∈ report.captures,
    capture.referenceCount = (Occurrence.ofName capture.name uses).length
  /-- The positions of the free uses are kept in order. -/
  positions : ∀ capture ∈ report.captures,
    capture.positions = (Occurrence.ofName capture.name uses).filterMap (·.position)

theorem Tracker.report_isLexical {tracker : Tracker} {scopes : Scopes} {enclosing : ScopeId}
    {limits : Limits} {report : ClosureReport} {uses : List Occurrence}
    (h : tracker.report scopes enclosing limits = .ok report)
    (counts : ∀ name, (tracker.use name).references.length = (Occurrence.ofName name uses).length)
    (positions : ∀ name,
      (tracker.use name).positions = (Occurrence.ofName name uses).filterMap (·.position)) :
    report.IsLexical uses := by
  have counted : ∀ capture ∈ report.captures,
      capture.referenceCount = (Occurrence.ofName capture.name uses).length := by
    intro capture member
    rw [Capture.referenceCount, (report_records h member).references, counts]
  refine ⟨?_, report_names_nodup h, counted, ?_⟩
  · intro name
    constructor
    · rintro ⟨capture, member, rfl, once⟩
      rw [counted capture member] at once
      obtain ⟨use, found⟩ := List.exists_mem_of_length_pos once
      obtain ⟨inUses, named⟩ := List.mem_filter.mp found
      exact ⟨use, inUses, of_decide_eq_true named⟩
    · rintro ⟨use, inUses, rfl⟩
      have some : 0 < (Occurrence.ofName use.name uses).length :=
        List.length_pos_of_mem (List.mem_filter.mpr ⟨inUses, decide_eq_true rfl⟩)
      have read : 0 < (tracker.use use.name).references.length := by
        rw [counts]
        exact some
      obtain ⟨reference, recorded⟩ := List.exists_mem_of_length_pos read
      obtain ⟨capture, member, named⟩ := report_complete h (captures_of_mem_references recorded)
      refine ⟨capture, member, named, ?_⟩
      rw [counted capture member, named]
      exact some
  · intro capture member
    rw [(report_records h member).positions, positions]

/-- The report on an anonymous function that stands by itself. -/
theorem Build.anonymousFunction_isLexical {level : Level} {limits : Limits} {site : Address}
    {source : Source} {items : List Source} {terms : List ClauseTerm} {s t : Session} {u : Unit}
    (lexical : level.Lexical) (each : List.Forall₂ Source.DenotesClause items terms)
    (placed : s.Placed) (small : t.scopes.size ≤ 2 ^ 32)
    (h : (anonymousFunction level site source items).Yields limits s u t) :
    ∃ report ∈ t.reports.toList, report.closure = site ∧
      report.IsLexical (Term.closure terms).free := by
  obtain ⟨v, opened, others, report, final, passage, top, -, reported, rfl⟩ :=
    anonymousFunction_clauses lexical each h
  have passed := passage s.scopes.next []
  obtain ⟨moments, follows, run⟩ := passed.passed
  replace small : v.scopes.size ≤ 2 ^ 32 := small
  have grown : s.scopes.size + 1 ≤ v.scopes.size :=
    Nat.le_trans (Nat.le_of_eq Scopes.size_add.symm) passed.size_le
  obtain ⟨-, -, -, free⟩ := run small (.opened placed (by omega) site)
  rw [top] at follows
  cases follows with
  | cons head _ =>
      refine ⟨report, ?_, ?_, ?_⟩
      · show report ∈ (v.reports.push report).toList
        simp
      · exact (Tracker.report_closure reported).trans head.closure
      · have use : ∀ name, opened.tracker.use name =
            ((Tracker.start site s.scopes.next).followAll moments).use name := head.use
        have uses : freeUses moments s.scopes.next = (Term.closure terms).free := free
        rw [← uses]
        refine Tracker.report_isLexical reported ?_ ?_
        · intro name
          rw [use]
          exact (Tracker.use_start_followAll site s.scopes.next moments name).1
        · intro name
          rw [use]
          exact (Tracker.use_start_followAll site s.scopes.next moments name).2

/-- Closure analysis computes the lexical free variables of an anonymous function. -/
theorem Compiler.closure_isLexical {c : Compiler} {root : Address} {source : Source}
    {clauses : List ClauseTerm} {report : ClosureReport}
    (denotes : source.Denotes (.closure clauses)) (h : c.closure root source = .ok report)
    (few : c.openedFrames (.expression root source) < 2 ^ 32) :
    report.IsLexical (Term.closure clauses).free := by
  obtain ⟨compiled, built, chosen⟩ := except_map_eq_ok h
  obtain ⟨gain, traces⟩ := exists_traces (k := .expression root source) built
  obtain ⟨t, success, rfl, course, small, placed⟩ := traces.small few
  obtain ⟨level, inner, lexical, step⟩ := Level.expression_cases success
  cases denotes with
  | closure each =>
      rw [Build.expressionStep, Source.expression_of_closure] at step
      obtain ⟨own, member, here, isLexical⟩ :=
        Build.anonymousFunction_isLexical lexical each placed small step
      have distinct : ((finish root t).closures.map (·.closure)).Nodup := by
        show (t.reports.toList.map (·.closure)).Nodup
        rw [course.reports_eq]
        exact course.closures_nodup
      have found := Compiled.closure?_of_nodup distinct member
      rw [here] at found
      replace chosen : ((finish root t).closure? root).getD (.empty root) = report := chosen
      rw [found, Option.getD_some] at chosen
      rw [← chosen]
      exact isLexical

/-- `fn a when a > b -> w = x + a; case x do ^a -> w end; fn y -> [y | z] end end` -/
def freeThroughout : Source :=
  .closure [.clause
    [.form "when" .empty [.symbol "a" .empty, .binary ">" (.symbol "a" .empty) (.symbol "b" .empty)]]
    (.block [
      .binary "=" (.symbol "w" .empty) (.binary "+" (.symbol "x" .empty) (.symbol "a" .empty)),
      .form "case" .empty [.symbol "x" .empty,
        .keywords [("do", .list [.clause [.form "^" .empty [.symbol "a" .empty]] (.symbol "w" .empty)])]],
      .closure [.clause [.symbol "y" .empty]
        (.list [.form "|" .empty [.symbol "y" .empty, .symbol "z" .empty]])]])]

/-- The term that `freeThroughout` is written for. -/
def freeThroughoutTerm : List ClauseTerm :=
  [.mk [.symbol "a"] [.parts [.symbol "a" none, .symbol "b" none],
    .parts [
      .matching (.symbol "w") (.parts [.symbol "x" none, .symbol "a" none]),
      .select (.symbol "x" none) [.mk [.pin "a" none] [.symbol "w" none]],
      .closure [.mk [.symbol "y"] [.parts [.symbol "y" none, .symbol "z" none]]]]]]

theorem freeThroughout_denotes : freeThroughout.Denotes (.closure freeThroughoutTerm) := by
  have name : ∀ {name}, name ∉ Source.reservedNames →
      (Source.symbol name .empty).Denotes (.symbol name none) := fun ordinary => .symbol ordinary
  have guard : (Source.binary ">" (.symbol "a" .empty) (.symbol "b" .empty)).Denotes
      (.parts [.symbol "a" none, .symbol "b" none]) :=
    .binary rfl (by decide) (.cons (name (by decide)) (.cons (name (by decide)) .nil))
  have value : (Source.binary "+" (.symbol "x" .empty) (.symbol "a" .empty)).Denotes
      (.parts [.symbol "x" none, .symbol "a" none]) :=
    .binary rfl (by decide) (.cons (name (by decide)) (.cons (name (by decide)) .nil))
  have items : (Source.list ([] ++ [.form "|" .empty [.symbol "y" .empty, .symbol "z" .empty]])).Denotes
      (.parts ([.symbol "y" none] ++ [.symbol "z" none])) :=
    .cons (.cons (name (by decide)) .nil) (name (by decide))
  have pinned : (Source.clause [.form "^" .empty [.symbol "a" .empty]]
      (.symbol "w" .empty)).DenotesClause (.mk [.pin "a" none] [.symbol "w" none]) :=
    .plain (.cons (.pin (by decide)) .nil) (.cons (name (by decide)) .nil)
  have params : List.Forall₂ Source.DenotesPattern [.symbol "a" .empty] [.symbol "a"] :=
    .cons (.symbol (by decide) (by decide)) .nil
  refine .closure (.cons (.guarded params (.cons guard (.cons (.block ?_) .nil))) .nil)
  refine .cons (.matching (.symbol (by decide) (by decide)) value) (.cons ?_ (.cons ?_ .nil))
  · exact .select (name (by decide)) rfl (.cons pinned .nil)
  · exact .closure (.cons (.plain (.cons (.symbol (by decide) (by decide)) .nil)
      (.cons items .nil)) .nil)

/-- Around the closure `w` and `x` are bound; `w` is bound again inside and never read from outside. -/
theorem Compiler.closure_isLexical_freeThroughout :
    ∃ report, Compiler.closure ⟨.standard, [(.block, ["w", "x"])]⟩ ⟨"expr/0"⟩ freeThroughout =
        .ok report ∧
      report.captures.map (fun capture => (capture.name, capture.referenceCount)) =
        [("b", 1), ("w", 0), ("x", 2), ("z", 1)] ∧
      report.IsLexical (Term.closure freeThroughoutTerm).free := by
  have overview : ((Compiler.closure ⟨.standard, [(.block, ["w", "x"])]⟩ ⟨"expr/0"⟩
      freeThroughout).toOption.map fun report =>
        report.captures.map fun capture => (capture.name, capture.referenceCount)) =
      some [("b", 1), ("w", 0), ("x", 2), ("z", 1)] := by
    decide +kernel
  have few : Compiler.openedFrames ⟨.standard, [(.block, ["w", "x"])]⟩
      (.expression ⟨"expr/0"⟩ freeThroughout) < 2 ^ 32 := by
    decide +kernel
  cases success : Compiler.closure ⟨.standard, [(.block, ["w", "x"])]⟩ ⟨"expr/0"⟩ freeThroughout with
  | error fault =>
      rw [success] at overview
      cases overview
  | ok report =>
      rw [success] at overview
      exact ⟨report, rfl, Option.some.inj overview,
        Compiler.closure_isLexical freeThroughout_denotes success few⟩

end SyntaxGraph
