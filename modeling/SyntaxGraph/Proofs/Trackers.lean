import SyntaxGraph.Proofs.Course
import SyntaxGraph.Proofs.Reports

/-!
# What trackers note

A tracker follows the moments of a stretch one by one. Each moment it heeds adds to the
notes on one name and leaves those on all others alone. Whether a read is heeded hangs on
the closure's frame only, so the reads noted for a name are the reads of that name that
are not local, in order; whether a match is heeded may hang on what is noted already.
-/

namespace SyntaxGraph

/-- What one use of a name adds to the notes on it. -/
def FreeUse.grow (use : FreeUse) : NameUse → FreeUse
  | .read _ reference position =>
    ⟨use.positions ++ position.toList, use.references ++ [reference], use.rebinds⟩
  | .rebind _ readsSelf => { use with rebinds := use.rebinds ++ [readsSelf] }

/-- The reads that a moment adds to the notes on a name, for a closure with the given frame. -/
def Moment.readsOf (m : Moment) (name : String) (scope : ScopeId) : List Address :=
  if m.name = name ∧ m.isLocal scope = false then m.reference?.toList else []

namespace Tracker

variable {tracker : Tracker} {m : Moment} {moments : List Moment} {name : String}

@[simp] theorem use_start (closure : Address) (scope : ScopeId) (name : String) :
    (start closure scope).use name = default := rfl

@[simp] theorem captures_start (closure : Address) (scope : ScopeId) (name : String) :
    (start closure scope).captures name = false := rfl

theorem use_eq_default (absent : tracker.captures name = false) : tracker.use name = default := by
  unfold captures OrderedMap.contains at absent
  unfold use
  rw [Option.isSome_eq_false_iff, Option.isNone_iff_eq_none] at absent
  rw [absent]
  rfl

/-- A name with a read is noted. -/
theorem captures_of_mem_references {reference : Address}
    (member : reference ∈ (tracker.use name).references) : tracker.captures name = true := by
  cases noted : tracker.captures name with
  | true => rfl
  | false =>
      rw [use_eq_default noted] at member
      cases member

theorem use_note (use : NameUse) (other : String) :
    (tracker.note use).use other =
      if other = use.name
      then (tracker.use other).grow use else tracker.use other := by
  cases use with
  | read name reference position =>
      simp only [note, recordRead, Tracker.use, OrderedMap.get?_insert, NameUse.name,
        Std.LawfulEqOrd.compare_eq_iff_eq]
      by_cases same : other = name
      · subst same
        simp [FreeUse.grow]
      · simp [same]
  | rebind name readsSelf =>
      simp only [note, recordRebinding, Tracker.use, OrderedMap.get?_insert, NameUse.name,
        Std.LawfulEqOrd.compare_eq_iff_eq]
      by_cases same : other = name
      · subst same
        simp [FreeUse.grow]
      · simp [same]

theorem captures_note (use : NameUse) (other : String) :
    (tracker.note use).captures other = true ↔
      other = use.name ∨
        tracker.captures other = true := by
  cases use with
  | read name reference position =>
      simp only [note, recordRead, captures, OrderedMap.contains, OrderedMap.get?_insert,
        NameUse.name, Std.LawfulEqOrd.compare_eq_iff_eq]
      split <;> simp_all
  | rebind name readsSelf =>
      simp only [note, recordRebinding, captures, OrderedMap.contains, OrderedMap.get?_insert,
        NameUse.name, Std.LawfulEqOrd.compare_eq_iff_eq]
      split <;> simp_all

/-- A heeded moment adds to the notes on its name, and nothing else changes. -/
theorem use_follow (name : String) :
    (tracker.follow m).use name =
      if tracker.heeds m = true ∧ m.name = name then (tracker.use name).grow m.use
      else tracker.use name := by
  unfold follow
  split
  · rename_i heeded
    simp only [use_note, heeded, true_and, Moment.name, eq_comm]
  · rename_i ignored
    simp [ignored]

theorem captures_follow (name : String) :
    (tracker.follow m).captures name = true ↔
      (tracker.heeds m = true ∧ m.name = name) ∨ tracker.captures name = true := by
  unfold follow
  split
  · rename_i heeded
    rw [captures_note]
    simp only [heeded, true_and, Moment.name, eq_comm (a := name)]
  · rename_i ignored
    simp [ignored]

theorem references_follow (name : String) :
    ((tracker.follow m).use name).references =
      (tracker.use name).references ++ m.readsOf name tracker.scope := by
  rw [use_follow, Moment.readsOf]
  obtain ⟨session, use⟩ := m
  cases use with
  | read read reference position =>
      by_cases same : read = name
      · subst same
        cases here : (Moment.mk session (.read read reference position)).isLocal tracker.scope <;>
          simp [here, heeds, Moment.name, NameUse.name, FreeUse.grow, Moment.reference?,
            NameUse.reference?]
      · simp [same, Moment.name, NameUse.name]
  | rebind bound readsSelf =>
      simp only [Moment.reference?, NameUse.reference?, Option.toList_none, ite_self, List.append_nil]
      split <;> rfl

/-- The reads noted for a name are its reads that are not local, in order. -/
theorem references_followAll (name : String) :
    ((tracker.followAll moments).use name).references =
      (tracker.use name).references ++ moments.flatMap fun m => m.readsOf name tracker.scope := by
  induction moments generalizing tracker with
  | nil => simp
  | cons m moments ih =>
      have step : tracker.followAll (m :: moments) = (tracker.follow m).followAll moments := rfl
      rw [step, ih, references_follow, follow_scope, List.flatMap_cons, List.append_assoc]

/-- Each noted read was made at some moment, by that name, and was not local. -/
theorem moment_of_mem_references {closure : Address} {scope : ScopeId} {reference : Address}
    (member : reference ∈ (((start closure scope).followAll moments).use name).references) :
    ∃ m ∈ moments, m.reference? = some reference ∧ m.name = name ∧ m.isLocal scope = false := by
  rw [references_followAll, use_start] at member
  obtain ⟨m, inMoments, reads⟩ := List.mem_flatMap.mp member
  unfold Moment.readsOf at reads
  split at reads
  · rename_i here
    exact ⟨m, inMoments, Option.mem_toList.mp reads, here⟩
  · cases reads

end Tracker

end SyntaxGraph
