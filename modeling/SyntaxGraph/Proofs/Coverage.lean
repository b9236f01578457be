import SyntaxGraph.Proofs.Walks
import SyntaxGraph.Proofs.Watching

/-!
# No evaluated variable is lost

A build visits all that is met in its tree, whatever is nested in it, and a closure that is followed
meanwhile hears of every name on the way. So a name which is read anywhere in an anonymous function
and introduced by none of its patterns is among the free names of the report.

What counts as evaluated is what a build goes into, so names are lost where it goes into nothing:
in what a module attribute is set to, under options that a construct does not know, and in the
specification of a segment. Of the words of a specification only the last variable in a `size(...)` is
read; the names in any other expression there, in `unit(n)` or in `n * 8` are not.
`closure_misses_sizeExpression` has one that the function evaluates when it runs and that is not free
in it.
-/

namespace SyntaxGraph

/-- A name that an anonymous function reads anywhere and that none of its patterns introduces is free in
it. -/
theorem Compiler.closure_collects {c : Compiler} {root : Address} {source : Source}
    {items : List Source} {compiled : Compiled} {name : String}
    (isClosure : source.expression = .closure items)
    (h : c.construct (.expression root source) = .ok compiled)
    (few : c.openedFrames (.expression root source) < 2 ^ 32)
    (reads : (Part.expression source).Reads name) (free : ¬ Introduces compiled.nodes name) :
    ∃ report, c.closure root source = .ok report ∧ name ∈ report.freeNames := by
  obtain ⟨clauses, addresses, v, opened, others, report, each, parts, top, reported, answer, nodes,
    small, placed⟩ := closure_answer isClosure h few
  refine ⟨report, answer, ?_⟩
  have visits : Visits c.limits [] (Part.expressionAt root source) (c.session.openClosure root) v := by
    rw [Part.expressionAt, isClosure]
    dsimp only
    rw [Part.clausesAt, Build.filterMap_of_forall₂ each]
    exact Build.eachPart_visits (fun part => Build.closureClause_visits (Level.ofRoom_visits _) part) parts
  have size : (c.session.openClosure root).scopes.size = c.session.scopes.size + 1 := Scopes.size_add
  have grown := visits.goes.size_le
  have grounds := Watch.opened placed (by omega) root
  obtain ⟨site, reaches⟩ := reads.reaches
  cases reaches with
  | inside met further =>
      rcases visits.told small grounds (fun _ none => absurd none List.not_mem_nil) met further with introduced | ⟨d, last, noted⟩
      · exact absurd (introduced.mono (List.Subset.trans (List.drop_subset _ _) nodes)) free
      · -- No other closure is open, so the one that has noted the name is the one reported on.
        obtain ⟨moments, follows⟩ := visits.goes.follows
        rw [top] at follows
        cases follows with
        | cons _ none =>
            cases none
            rw [Watch.closure?, top] at last
            obtain rfl := Option.some.inj last
            exact (Tracker.mem_freeNames reported name).mpr (Tracker.captures_of_mem_references noted)

/-- `fn b -> <<b::size(...)>> end` -/
def sizedBy (size : Source) : Source :=
  .closure [.clause [.symbol "b" .empty] (.form "<<>>" .empty
    [.form "::" .empty [.symbol "b" .empty, .form "size" .empty [size]]])]

/-- The order of the nodes does not matter to what they introduce. -/
theorem Compiler.not_introduces {c : Compiler} {k : Construct} {compiled : Compiled} {name : String}
    (h : c.construct k = .ok compiled) (emitted : ¬ Introduces (c.emitted k) name) :
    ¬ Introduces compiled.nodes name := fun introduces =>
  emitted (introduces.mono fun _ => (mem_emitted h).mpr)

/-- A variable that gives a size is collected. -/
theorem Compiler.closure_collects_size :
    ∃ compiled report, Compiler.construct ⟨.standard, []⟩ (.expression ⟨"expr/0"⟩
        (sizedBy (.symbol "n" .empty))) = .ok compiled ∧
      (Part.expression (sizedBy (.symbol "n" .empty))).Reads "n" ∧ ¬ Introduces compiled.nodes "n" ∧
      Compiler.closure ⟨.standard, []⟩ ⟨"expr/0"⟩ (sizedBy (.symbol "n" .empty)) = .ok report ∧
      "n" ∈ report.freeNames := by
  have reads : (Part.expression (sizedBy (.symbol "n" .empty))).Reads "n" :=
    .inside (q := .expression (.form "<<>>" .empty [.form "::" .empty
        [.symbol "b" .empty, .form "size" .empty [.symbol "n" .empty]]])) (.tail _ (.head _))
      (.inside (.tail _ (.head _)) .here)
  have few : Compiler.openedFrames ⟨.standard, []⟩ (.expression ⟨"expr/0"⟩
    (sizedBy (.symbol "n" .empty))) < 2 ^ 32 := by decide +kernel
  have succeeds : (Compiler.construct ⟨.standard, []⟩ (.expression ⟨"expr/0"⟩
    (sizedBy (.symbol "n" .empty)))).isOk = true := by decide +kernel
  cases success : Compiler.construct ⟨.standard, []⟩ (.expression ⟨"expr/0"⟩
      (sizedBy (.symbol "n" .empty))) with
  | error fault => exact nomatch success ▸ succeeds
  | ok compiled =>
      have free : ¬ Introduces compiled.nodes "n" := Compiler.not_introduces success (by decide +kernel)
      obtain ⟨report, answer, collected⟩ := Compiler.closure_collects rfl success few reads free
      exact ⟨compiled, report, rfl, reads, free, answer, collected⟩

/-- A variable in an expression that gives a size is lost: nothing introduces it, nothing is diagnosed,
and it is not free. -/
theorem Compiler.closure_misses_sizeExpression :
    ∃ compiled report, Compiler.construct ⟨.standard, []⟩ (.expression ⟨"expr/0"⟩
        (sizedBy (.binary "+" (.symbol "n" .empty) (.integer 1)))) = .ok compiled ∧
      compiled.diagnostics = [] ∧ ¬ Introduces compiled.nodes "n" ∧
      Compiler.closure ⟨.standard, []⟩ ⟨"expr/0"⟩
        (sizedBy (.binary "+" (.symbol "n" .empty) (.integer 1))) = .ok report ∧
      report.freeNames = [] := by
  have quiet : ((Compiler.construct ⟨.standard, []⟩ (.expression ⟨"expr/0"⟩
      (sizedBy (.binary "+" (.symbol "n" .empty) (.integer 1))))).toOption.map (·.diagnostics)) =
        some [] := by decide +kernel
  have names : ((Compiler.closure ⟨.standard, []⟩ ⟨"expr/0"⟩
      (sizedBy (.binary "+" (.symbol "n" .empty) (.integer 1)))).toOption.map (·.freeNames)) =
        some [] := by decide +kernel
  cases success : Compiler.construct ⟨.standard, []⟩ (.expression ⟨"expr/0"⟩
      (sizedBy (.binary "+" (.symbol "n" .empty) (.integer 1)))) with
  | error fault => exact nomatch success ▸ quiet
  | ok compiled =>
      cases answer : Compiler.closure ⟨.standard, []⟩ ⟨"expr/0"⟩
          (sizedBy (.binary "+" (.symbol "n" .empty) (.integer 1))) with
      | error fault => exact nomatch answer ▸ names
      | ok report =>
          rw [success] at quiet
          rw [answer] at names
          exact ⟨compiled, report, rfl, Option.some.inj quiet,
            Compiler.not_introduces success (by decide +kernel), rfl, Option.some.inj names⟩

end SyntaxGraph
