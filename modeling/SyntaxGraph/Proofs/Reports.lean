import Mathlib.Data.List.Forall2
import SyntaxGraph.Closure.Tracker
import SyntaxGraph.Proofs.Links

/-!
# What a report is made of

A report is made in one go: the frames around the closure are listed, and each note of
the tracker becomes a capture. The nodes of the captures stand below the closure, one
after the other, and mention nodes elsewhere without having parts of their own.
-/

namespace SyntaxGraph

theorem except_map_eq_ok {ε α β : Type} {f : α → β} {x : Except ε α} {b : β}
    (h : x.map f = .ok b) : ∃ a, x = .ok a ∧ f a = b := by
  cases x with
  | error e => cases h
  | ok a => exact ⟨a, rfl, Except.ok.inj h⟩

namespace Tracker

variable {tracker : Tracker} {scopes : Scopes} {enclosing : ScopeId} {limits : Limits}
  {report : ClosureReport}

/-- A report lists the frames around the closure and one capture per note, in order. -/
theorem report_cases (h : tracker.report scopes enclosing limits = .ok report) :
    report.closure = tracker.closure ∧
      scopes.summaries limits.maxDepth tracker.closure enclosing = .ok report.scopeChain ∧
      tracker.free.entries.mapM (tracker.capture scopes enclosing limits) = .ok report.captures := by
  unfold Tracker.report at h
  simp only [bind, Except.bind, pure, Except.pure, throw, throwThe, MonadExceptOf.throw] at h
  split at h
  · cases h
  split at h
  · cases h
  · rename_i chain listed
    split at h
    · cases h
    · rename_i captures resolved
      cases h
      exact ⟨rfl, listed, resolved⟩

theorem report_closure (h : tracker.report scopes enclosing limits = .ok report) :
    report.closure = tracker.closure := (report_cases h).1

/-- A report is made of notes that are not too many, and lists the names that parameters bind. -/
theorem report_bound (h : tracker.report scopes enclosing limits = .ok report) :
    tracker.free.size ≤ limits.maxCaptures ∧ report.bound = tracker.bound.keys := by
  obtain ⟨-, listed, resolved⟩ := report_cases h
  unfold Tracker.report at h
  split at h
  · cases h
  · rename_i few
    rw [listed, resolved] at h
    exact ⟨Nat.le_of_not_gt few, (congrArg ClosureReport.bound (Except.ok.inj h)).symm⟩

/-- A capture is what a note amounts to. -/
structure Records (tracker : Tracker) (scopes : Scopes) (enclosing : ScopeId) (limits : Limits)
    (capture : Capture) : Prop where
  noted : tracker.captures capture.name = true
  positions : capture.positions = (tracker.use capture.name).positions
  references : capture.references = (tracker.use capture.name).references
  mutation : capture.mutation = .classify (tracker.use capture.name).rebinds
  supplied : scopes.supply limits.maxDepth tracker.closure enclosing capture.name = .ok capture.supply

/-- A successful pass over a list has one result per member. -/
theorem forall₂_of_mapM {ε α β : Type} {f : α → Except ε β} {xs : List α} {ys : List β}
    (h : xs.mapM f = .ok ys) : List.Forall₂ (fun x y => f x = .ok y) xs ys := by
  induction xs generalizing ys with
  | nil =>
      cases h
      exact .nil
  | cons x xs ih =>
      rw [List.mapM_cons] at h
      cases first : f x with
      | error e =>
          rw [first] at h
          cases h
      | ok y =>
          rw [first] at h
          cases rest : xs.mapM f with
          | error e =>
              rw [rest] at h
              cases h
          | ok others =>
              rw [rest] at h
              cases h
              exact .cons first (ih rest)

theorem exists_of_forall₂ {α β : Type} {r : α → β → Prop} {xs : List α} {ys : List β}
    (each : List.Forall₂ r xs ys) {x : α} (member : x ∈ xs) : ∃ y ∈ ys, r x y := by
  induction each with
  | nil => cases member
  | cons first _ ih =>
      cases List.mem_cons.mp member with
      | inl here =>
          rw [here]
          exact ⟨_, List.mem_cons_self, first⟩
      | inr later =>
          obtain ⟨y, inYs, related⟩ := ih later
          exact ⟨y, List.mem_cons_of_mem _ inYs, related⟩

theorem use_of_mem {name : String} {use : FreeUse} (member : (name, use) ∈ tracker.free.entries) :
    tracker.captures name = true ∧ tracker.use name = use := by
  have found := (tracker.free.get?_eq_some_iff name use).mpr member
  constructor
  · rw [captures, OrderedMap.contains, found]
    rfl
  · rw [Tracker.use, found]
    rfl

theorem records_of_capture {entry : String × FreeUse} {capture : Capture}
    (member : entry ∈ tracker.free.entries)
    (h : tracker.capture scopes enclosing limits entry = .ok capture) :
    capture.name = entry.1 ∧ tracker.Records scopes enclosing limits capture := by
  unfold Tracker.capture at h
  cases supplied : scopes.supply limits.maxDepth tracker.closure enclosing entry.1 with
  | error fault =>
      rw [supplied] at h
      cases h
  | ok supply =>
      rw [supplied] at h
      obtain rfl := Except.ok.inj h
      obtain ⟨noted, same⟩ := use_of_mem member
      exact ⟨rfl, noted, by rw [same], by rw [same], by rw [same], supplied⟩

/-- Every capture of a report records a note. -/
theorem report_records (h : tracker.report scopes enclosing limits = .ok report)
    {capture : Capture} (member : capture ∈ report.captures) :
    tracker.Records scopes enclosing limits capture := by
  obtain ⟨-, -, resolved⟩ := report_cases h
  obtain ⟨entry, inEntries, made⟩ := exists_of_forall₂ (forall₂_of_mapM resolved).flip member
  exact (records_of_capture inEntries made).2

/-- Every note has a capture in the report. -/
theorem report_complete (h : tracker.report scopes enclosing limits = .ok report) {name : String}
    (noted : tracker.captures name = true) : ∃ capture ∈ report.captures, capture.name = name := by
  obtain ⟨-, -, resolved⟩ := report_cases h
  obtain ⟨use, found⟩ := Option.isSome_iff_exists.mp noted
  have inEntries := (tracker.free.get?_eq_some_iff name use).mp found
  obtain ⟨capture, member, made⟩ := exists_of_forall₂ (forall₂_of_mapM resolved) inEntries
  exact ⟨capture, member, (records_of_capture inEntries made).1⟩

/-- Captures are listed by their names. -/
theorem report_names (h : tracker.report scopes enclosing limits = .ok report) :
    report.captures.map (·.name) = tracker.free.keys := by
  obtain ⟨-, -, resolved⟩ := report_cases h
  have each := forall₂_of_mapM resolved
  unfold OrderedMap.keys
  generalize tracker.free.entries = entries at each
  generalize report.captures = captures at each
  induction each with
  | nil => rfl
  | cons made _ ih =>
      obtain ⟨supply, -, same⟩ := except_map_eq_ok made
      rw [List.map_cons, List.map_cons, ih, ← same]

theorem report_rising (h : tracker.report scopes enclosing limits = .ok report) :
    report.freeNames.Pairwise fun a b => compare a b = .lt := by
  rw [ClosureReport.freeNames, report_names h]
  exact List.pairwise_map.mpr tracker.free.rising

/-- A name is listed exactly if it is noted. -/
theorem mem_freeNames (h : tracker.report scopes enclosing limits = .ok report) (name : String) :
    name ∈ report.freeNames ↔ tracker.captures name = true := by
  constructor
  · intro listed
    obtain ⟨capture, member, rfl⟩ := List.mem_map.mp listed
    exact (report_records h member).noted
  · intro noted
    obtain ⟨capture, member, named⟩ := report_complete h noted
    exact List.mem_map.mpr ⟨capture, member, named⟩

/-- No name is captured twice. -/
theorem report_names_nodup (h : tracker.report scopes enclosing limits = .ok report) :
    (report.captures.map (·.name)).Nodup := by
  rw [report_names h, OrderedMap.keys, List.Nodup, List.pairwise_map]
  refine tracker.free.rising.imp ?_
  intro first second less same
  rw [same, Std.LawfulEqOrd.compare_eq_iff_eq.mpr rfl] at less
  cases less

end Tracker

namespace ClosureReport

theorem captureNode_address (report : ClosureReport) (index : Nat) (capture : Capture) :
    (report.captureNode index capture).address = report.closure.at (.captures, some index) := by
  unfold captureNode
  rw [Node.relateAll_address]
  split
  · rfl
  · dsimp only
    split <;> rfl

theorem captureNode_kind (report : ClosureReport) (index : Nat) (capture : Capture) :
    (report.captureNode index capture).kind = .capturedVariable := by
  unfold captureNode
  rw [Node.relateAll_kind]
  split
  · rfl
  · dsimp only
    split <;> rfl

/-- The nodes of the captures fill the positions of their role. -/
theorem captureNodes_addresses (report : ClosureReport) :
    report.captureNodes.map (·.address) =
      (Slot.numbered .captures 0 report.captures.length).map report.closure.at := by
  unfold captureNodes Slot.numbered
  refine List.ext_getElem (by simp) fun i _ _ => ?_
  simp [captureNode_address]

/-- The node of a capture points at reads and at a binding, and has no parts. -/
theorem captureNode_links (report : ClosureReport) (index : Nat) (capture : Capture)
    {link : Role × Address} (member : link ∈ (report.captureNode index capture).links) :
    (link.1 = .reference ∧ link.2 ∈ capture.references) ∨
      (link.1 = .boundBy ∧ ∃ supply, capture.supply = some supply ∧
        supply.binding = some link.2) := by
  unfold captureNode at member
  rcases Node.mem_relateAll_links member with reference | before
  · exact .inl reference
  · split at before
    · cases before
    · rename_i supply supplied
      dsimp only at before
      split at before
      · cases before
      · rename_i binding bound
        rcases Node.mem_relate_links before with rfl | earlier
        · exact .inr ⟨rfl, supply, supplied, bound⟩
        · cases earlier

theorem mem_captureNodes {report : ClosureReport} {node : Node} (member : node ∈ report.captureNodes) :
    ∃ index, ∃ capture ∈ report.captures, node = report.captureNode index capture := by
  unfold captureNodes at member
  obtain ⟨index, less, rfl⟩ := List.mem_mapIdx.mp member
  exact ⟨index, _, List.getElem_mem less, rfl⟩

theorem kind_of_mem_captureNodes {report : ClosureReport} {node : Node} (member : node ∈ report.captureNodes) :
    node.kind = .capturedVariable := by
  obtain ⟨index, capture, -, rfl⟩ := mem_captureNodes member
  exact report.captureNode_kind index capture

end ClosureReport

end SyntaxGraph
