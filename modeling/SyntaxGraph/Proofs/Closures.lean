import SyntaxGraph.Proofs.Brackets
import SyntaxGraph.Proofs.Fittings

/-!
# Closures and their reports

Every closure among the nodes of a construct has one report, and every captured variable
belongs to one. Reports are made when closures close, so inner closures come first. What
the analysis of a closure answers can therefore be read off the node at the root.
-/

namespace SyntaxGraph

/-- Reports that match the nodes: one for every closure, and one node for every capture. -/
structure Compiled.Matched (compiled : Compiled) : Prop where
  distinct : (compiled.closures.map (·.closure)).Nodup
  closures : (compiled.closures.map (·.closure)).Perm
    ((compiled.nodes.filter (·.kind.isClosure)).map (·.address))
  /-- The report on a closure inside of another comes earlier. -/
  innerFirst : ∀ (i j : Nat) (inner outer : ClosureReport), compiled.closures[i]? = some inner →
    compiled.closures[j]? = some outer → inner.closure.isWithin outer.closure = true →
    inner.closure ≠ outer.closure → i < j
  /-- Names are listed in order, none of them twice. -/
  rising : ∀ report ∈ compiled.closures,
    report.bound.Pairwise (· < ·) ∧ (report.captures.map (·.name)).Pairwise (· < ·)
  /-- A closure points at its captures, one after the other. -/
  pointed : ∀ report ∈ compiled.closures, ∀ n ∈ compiled.nodes, n.address = report.closure →
    n.related .captures = (List.range report.captures.length).map (report.closure.indexed "capture")
  numbered : ∀ report ∈ compiled.closures, report.captureNodes.map (·.address) =
    (List.range report.captures.length).map (report.closure.indexed "capture")
  /-- The nodes of captures are those of the reports. -/
  captured : (compiled.ofKind .capturedVariable).Perm (compiled.closures.flatMap (·.captureNodes))

namespace ClosureReport

/-- The nodes of captures are numbered below the closure. -/
theorem captureNodes_indexed (report : ClosureReport) : report.captureNodes.map (·.address) =
    (List.range report.captures.length).map (report.closure.indexed "capture") := by
  refine List.ext_getElem (by simp [captureNodes]) ?_
  intro index _ _
  simp only [captureNodes, List.getElem_map, List.getElem_mapIdx, List.getElem_range,
    captureNode_address]
  rfl

/-- A list of reports in which inner closures come first. -/
theorem index_lt_of_innerFirst {reports : List ClosureReport}
    (innerFirst : reports.Pairwise fun earlier later => later.closure.isWithin earlier.closure = false)
    {i j : Nat} {inner outer : ClosureReport} (atInner : reports[i]? = some inner)
    (atOuter : reports[j]? = some outer) (within : inner.closure.isWithin outer.closure = true)
    (strict : inner.closure ≠ outer.closure) : i < j := by
  obtain ⟨hi, rfl⟩ := List.getElem?_eq_some_iff.mp atInner
  obtain ⟨hj, rfl⟩ := List.getElem?_eq_some_iff.mp atOuter
  rcases Nat.lt_trichotomy i j with before | rfl | after
  · exact before
  · exact absurd rfl strict
  · have outside := List.pairwise_iff_getElem.mp innerFirst j i hj hi after
    rw [within] at outside
    cases outside

end ClosureReport

namespace Tally

variable {limits : Limits} {bound : Nat} {nodes : List Node} {reports : List ClosureReport}

/-- The closures that are reported on are those among the nodes, in the same order. -/
theorem closures_eq (tally : Tally limits bound nodes reports) :
    reports.map (·.closure) = (nodes.filter (·.kind.isClosure)).map (·.address) := by
  have each := tally.closures
  generalize nodes.filter (·.kind.isClosure) = closures at each
  clear tally
  induction each with
  | nil => rfl
  | cons describes _ ih => rw [List.map_cons, List.map_cons, ih, describes.1]

/-- Every report has the node of its closure. -/
theorem describes (tally : Tally limits bound nodes reports) {report : ClosureReport}
    (member : report ∈ reports) : ∃ n ∈ nodes, report.Describes n := by
  obtain ⟨n, isClosure, describes⟩ := Tracker.exists_of_forall₂ tally.closures member
  exact ⟨n, (List.mem_filter.mp isClosure).1, describes⟩

end Tally

namespace Compiler

variable {c : Compiler} {k : Construct} {compiled : Compiled}

/-- The reports of a construct match its nodes. -/
theorem construct_reports (h : c.construct k = .ok compiled)
    (distinct : (compiled.nodes.map (·.address)).Nodup) : compiled.Matched := by
  obtain ⟨nodes, -, sorted, tally⟩ := construct_tally h
  have perm : compiled.nodes.Perm nodes := by
    rw [sorted]
    exact sortNodes_perm nodes
  obtain ⟨t, success, rfl⟩ := construct_eq_ok h
  obtain ⟨gain, course⟩ := construct_built success
  have all : (finish k.root t).closures = gain.reports := course.reports_eq
  refine ⟨?_, ?_, ?_, ?_, ?_, ?_, ?_⟩
  · rw [all]
    exact course.closures_nodup
  · rw [tally.closures_eq]
    exact ((perm.filter _).map _).symm
  · intro i j inner outer atInner atOuter
    rw [all] at atInner atOuter
    exact ClosureReport.index_lt_of_innerFirst course.reports_innerFirst atInner atOuter
  · exact fun report member => ⟨(tally.reported report member).bound, (tally.reported report member).names⟩
  · intro report member n standing here
    obtain ⟨own, among, address, related⟩ := tally.describes member
    have same := List.inj_on_of_nodup_map distinct standing (perm.mem_iff.mpr among)
      (here.trans address.symm)
    rw [same, related, report.captureNodes_indexed]
  · exact fun report _ => report.captureNodes_indexed
  · rw [← tally.captured]
    exact perm.filter _

/-- The nodes of a construct have addresses of their own, and one of them is the root. -/
theorem construct_addresses (h : c.construct k = .ok compiled) :
    (compiled.nodes.map (·.address)).Nodup ∧ ∃ n ∈ compiled.nodes, n.address = k.root := by
  obtain ⟨t, success, rfl⟩ := construct_eq_ok h
  obtain ⟨gain, course⟩ := construct_built success
  have all : t.nodes.toList = gain.nodes := course.nodes_eq
  have perm : (finish k.root t).nodes.Perm gain.nodes := all ▸ sortNodes_perm t.nodes.toList
  obtain ⟨n, member, address⟩ :=
    List.mem_map.mp (course.forest.root_mem (List.mem_singleton_self k.root))
  exact ⟨(perm.map _).nodup_iff.mpr course.forest.distinct, n, perm.mem_iff.mpr member, address⟩

end Compiler

namespace Compiled

variable {compiled : Compiled}

/-- The closure among the nodes at an address is reported on. -/
theorem Matched.report (matched : compiled.Matched) {n : Node} (member : n ∈ compiled.nodes)
    (isClosure : n.kind.isClosure = true) :
    ∃ report ∈ compiled.closures, report.closure = n.address ∧
      compiled.closure? n.address = some report := by
  have listed : n.address ∈ compiled.closures.map (·.closure) :=
    matched.closures.mem_iff.mpr
      (List.mem_map.mpr ⟨n, List.mem_filter.mpr ⟨member, isClosure⟩, rfl⟩)
  obtain ⟨report, reported, here⟩ := List.mem_map.mp listed
  exact ⟨report, reported, here, here ▸ closure?_of_nodup matched.distinct reported⟩

/-- What is no closure is not reported on. -/
theorem Matched.no_report (matched : compiled.Matched)
    (distinct : (compiled.nodes.map (·.address)).Nodup) {n : Node} (member : n ∈ compiled.nodes)
    (other : n.kind.isClosure = false) : compiled.closure? n.address = none := by
  apply List.find?_eq_none.mpr
  intro report reported here
  have listed := matched.closures.mem_iff.mp (List.mem_map.mpr ⟨report, reported, rfl⟩)
  obtain ⟨own, isClosure, address⟩ := List.mem_map.mp listed
  obtain ⟨standing, closure⟩ := List.mem_filter.mp isClosure
  have same := List.inj_on_of_nodup_map distinct standing member (address.trans (eq_of_beq here))
  rw [same, other] at closure
  cases closure

end Compiled

/-- Reports, closures and captures correspond to each other in whatever is compiled, so the analysis
of a closure answers with the report on the root, or with an empty one if the root is no closure. -/
theorem Compiler.construct_matched {c : Compiler} {k : Construct} {compiled : Compiled}
    (h : c.construct k = .ok compiled) :
    compiled.Matched ∧ ∀ root source, k = .expression root source →
      ∃ n, compiled.node? root = some n ∧
        (n.kind.isClosure = true → ∃ report ∈ compiled.closures, report.closure = root ∧
          c.closure root source = .ok report) ∧
        (n.kind.isClosure = false → c.closure root source = .ok (.empty root)) := by
  obtain ⟨distinct, top, member, address⟩ := construct_addresses h
  have matched := construct_reports h distinct
  refine ⟨matched, ?_⟩
  rintro root source rfl
  replace address : top.address = root := address
  subst address
  have answer : c.closure top.address source =
      .ok ((compiled.closure? top.address).getD (.empty top.address)) := by
    rw [closure, show c.expression top.address source = .ok compiled from h]
    rfl
  refine ⟨top, ?_, ?_, ?_⟩
  · exact find?_of_nodup distinct member
  · intro isClosure
    obtain ⟨report, reported, here, found⟩ := matched.report member isClosure
    refine ⟨report, reported, here, ?_⟩
    rw [answer, found, Option.getD_some]
  · intro other
    rw [answer, matched.no_report distinct member other, Option.getD_none]

/-- `fn x -> &(&1 + (x + y)) end`, one closure in another. -/
def closureInClosure : Source :=
  .closure [.clause [.symbol "x" .empty] (.form "&" .empty [
    .binary "+" (.form "&" .empty [.integer 1])
      (.binary "+" (.symbol "x" .empty) (.symbol "y" .empty))])]

/-- The inner closure is reported on first, and the analysis answers with the report on the outer. -/
theorem Compiler.construct_matched_closureInClosure :
    ∃ compiled outer, Compiler.construct ⟨.standard, []⟩ (.expression ⟨"expr/0"⟩ closureInClosure) =
        .ok compiled ∧
      (compiled.closures.map fun report => (report.closure.text, report.freeNames)) =
        [("expr/0/clause/0/body", ["x", "y"]), ("expr/0", ["y"])] ∧
      Compiler.closure ⟨.standard, []⟩ ⟨"expr/0"⟩ closureInClosure = .ok outer ∧
      outer.freeNames = ["y"] ∧ compiled.Matched ∧
      ∃ n, compiled.node? ⟨"expr/0"⟩ = some n ∧ n.kind.isClosure = true ∧ outer ∈ compiled.closures := by
  obtain ⟨compiled, outer, success, reports, answer, names⟩ : ∃ compiled outer,
      Compiler.construct ⟨.standard, []⟩ (.expression ⟨"expr/0"⟩ closureInClosure) = .ok compiled ∧
      (compiled.closures.map fun report => (report.closure.text, report.freeNames)) =
        [("expr/0/clause/0/body", ["x", "y"]), ("expr/0", ["y"])] ∧
      Compiler.closure ⟨.standard, []⟩ ⟨"expr/0"⟩ closureInClosure = .ok outer ∧
      outer.freeNames = ["y"] := ⟨_, _, rfl, rfl, rfl, rfl⟩
  obtain ⟨matched, analysed⟩ := Compiler.construct_matched success
  obtain ⟨n, found, onClosure, onOther⟩ := analysed _ _ rfl
  refine ⟨compiled, outer, success, reports, answer, names, matched, n, found, ?_⟩
  cases kind : n.kind.isClosure with
  | true =>
      obtain ⟨report, reported, -, same⟩ := onClosure kind
      obtain rfl := Except.ok.inj (answer.symm.trans same)
      exact ⟨rfl, reported⟩
  | false =>
      rw [Except.ok.inj (answer.symm.trans (onOther kind))] at names
      cases names

end SyntaxGraph
