import SyntaxGraph.Proofs.Indexes
import SyntaxGraph.Proofs.Trackers

/-!
# What a stretch contributes to the notes on a closure

A tracker is changed by the uses of names that are not local to its closure, and by the names
that parameters bind. `Tracker.Gathers` says what becomes of a tracker in terms of these two lists
alone. Reads add up, captured names are collected, and so are the bindings that matches make of a
name that some frame binds all along. A match of a name that no frame binds is heeded only after a
read, so for such names nothing is said about matches.

None of this depends on the order of the lists. Reports made of permuted contributions, with the
same frames around, therefore agree on the names bound and captured, on how often each name is read,
on its supply and, if there is a supply, on its mutation.
-/

namespace SyntaxGraph

/-- A use of a name that is not local to a closure. -/
structure OuterUse where
  name : String
  /-- If a match binds the name, whether its value reads the name. -/
  readsSelf : Option Bool
  /-- Whether any frame binds the name at that moment. -/
  known : Bool
  deriving DecidableEq, Repr

namespace OuterUse

def isReadOf (use : OuterUse) (name : String) : Bool := use.name == name && use.readsSelf.isNone

/-- Whether the name of the use is captured, whatever was noted before. -/
def isCapture (use : OuterUse) : Bool := use.readsSelf.isNone || use.known

/-- For each match among the uses that binds a name, whether its value reads the name. -/
def rebindsOf (uses : List OuterUse) (name : String) : List Bool :=
  uses.filterMap fun use => if use.name = name then use.readsSelf else none

end OuterUse

/-- If a match binds the name, whether its value reads the name. -/
def NameUse.readsSelf? : NameUse → Option Bool
  | .read _ _ _ => none
  | .rebind _ readsSelf => some readsSelf

/-- What a moment is to a closure with the given frame: at most one use of a name from outside. -/
def Moment.outerUses (m : Moment) (scope : ScopeId) : List OuterUse :=
  if m.isLocal scope then []
  else [⟨m.name, m.use.readsSelf?, (m.session.definingScope? m.name).isSome⟩]

/-! ## Classes of mutation -/

/-- The class of a name does not depend on the order of the places that bind it again. -/
theorem Mutation.classify_perm {rebinds rebinds' : List Bool} (perm : rebinds.Perm rebinds') :
    classify rebinds = classify rebinds' := by
  unfold classify
  rw [perm.any_eq, perm.isEmpty_eq]

/-! ## Sets of names -/

theorem OrderedSet.add_right_comm (s : OrderedSet String) (a b : String) :
    (s.add a).add b = (s.add b).add a := by
  apply OrderedMap.ext_get?
  intro key
  simp only [add, OrderedMap.get?_insert]
  split <;> split <;> rfl

theorem OrderedSet.foldl_add_perm {names names' : List String} (perm : names.Perm names')
    (s : OrderedSet String) : names.foldl add s = names'.foldl add s :=
  perm.foldl_eq' (fun a _ b _ s => add_right_comm s a b) s

namespace Tracker

/-- What becomes of a tracker by uses of names from outside and names that parameters bind. -/
structure Gathers (uses : List OuterUse) (names : List String) (t u : Tracker) : Prop where
  bound : u.bound = names.foldl OrderedSet.add t.bound
  captures : ∀ name, u.captures name = true ↔
    t.captures name = true ∨ ∃ use ∈ uses, use.name = name ∧ use.isCapture = true
  reads : ∀ name, (u.use name).references.length =
    (t.use name).references.length + uses.countP (·.isReadOf name)
  /-- Every match of a name that is known throughout is heeded. -/
  rebinds : ∀ name, (∀ use ∈ uses, use.name = name → use.known = true) →
    (u.use name).rebinds = (t.use name).rebinds ++ OuterUse.rebindsOf uses name

variable {t u v : Tracker} {m : Moment} {uses more : List OuterUse} {names others : List String}

theorem Gathers.refl (t : Tracker) : t.Gathers [] [] t where
  bound := rfl
  captures name := by simp
  reads name := by simp
  rebinds name _ := by simp [OuterUse.rebindsOf]

theorem Gathers.trans (first : t.Gathers uses names u) (second : u.Gathers more others v) :
    t.Gathers (uses ++ more) (names ++ others) v where
  bound := by rw [second.bound, first.bound, List.foldl_append]
  captures name := by
    rw [second.captures, first.captures, or_assoc]
    simp only [List.mem_append, or_and_right, exists_or]
  reads name := by rw [second.reads, first.reads, List.countP_append, Nat.add_assoc]
  rebinds name known := by
    rw [second.rebinds name fun use member => known use (List.mem_append_right _ member),
      first.rebinds name fun use member => known use (List.mem_append_left _ member), List.append_assoc,
      OuterUse.rebindsOf, OuterUse.rebindsOf, OuterUse.rebindsOf, List.filterMap_append]

/-- Parameters bind names. -/
theorem gathers_addBound (t : Tracker) (names : List String) : t.Gathers [] names (t.addBound names) where
  bound := rfl
  captures name := by simp [addBound, captures]
  reads name := by simp [addBound, use]
  rebinds name _ := by simp [addBound, use, OuterUse.rebindsOf]

/-- A tracker gathers what a moment is to its closure. -/
theorem gathers_follow (t : Tracker) (m : Moment) : t.Gathers (m.outerUses t.scope) [] (t.follow m) := by
  obtain ⟨s, use⟩ := m
  unfold Moment.outerUses
  cases here : (Moment.mk s use).isLocal t.scope with
  | true =>
      have ignored : t.follow ⟨s, use⟩ = t := by simp [follow, heeds, here]
      rw [ignored]
      exact .refl t
  | false =>
      refine ⟨follow_bound, fun name => ?_, fun name => ?_, fun name known => ?_⟩
      · rw [captures_follow]
        cases use with
        | read read reference position =>
            simp [heeds, here, Moment.name, NameUse.name, NameUse.readsSelf?, OuterUse.isCapture, or_comm]
        | rebind bound readsSelf =>
            -- A match of a name that no frame binds is heeded only if the name is captured already.
            simp only [heeds, here, Moment.name, NameUse.name, NameUse.readsSelf?, OuterUse.isCapture,
              Bool.not_false, Bool.true_and, Bool.or_eq_true, List.mem_singleton, exists_eq_left,
              Bool.false_eq_true, if_false, Option.isNone_some, false_or]
            constructor
            · rintro (⟨known | noted, rfl⟩ | noted)
              · exact .inr ⟨rfl, known⟩
              · exact .inl noted
              · exact .inl noted
            · rintro (noted | ⟨rfl, known⟩)
              · exact .inr noted
              · exact .inl ⟨.inl known, rfl⟩
      · rw [references_follow, List.length_append, Moment.readsOf]
        cases use with
        | read read reference position =>
            by_cases same : read = name
            · subst same
              simp [here, Moment.name, NameUse.name, Moment.reference?, NameUse.reference?,
                NameUse.readsSelf?, OuterUse.isReadOf]
            · simp [same, Moment.name, NameUse.name, OuterUse.isReadOf]
        | rebind bound readsSelf =>
            simp [Moment.reference?, NameUse.reference?, NameUse.readsSelf?, OuterUse.isReadOf]
      · rw [use_follow]
        cases use with
        | read read reference position =>
            have kept : ∀ (use : FreeUse) (heeded : Prop) [Decidable heeded],
                (if heeded then use.grow (.read read reference position) else use).rebinds =
                  use.rebinds := by
              intro use heeded _
              split <;> rfl
            rw [kept]
            simp [OuterUse.rebindsOf, NameUse.readsSelf?]
        | rebind bound readsSelf =>
            by_cases same : bound = name
            · subst same
              have found := known _ (List.mem_singleton_self _) rfl
              replace found : (s.definingScope? bound).isSome = true := found
              simp [heeds, here, found, Moment.name, NameUse.name, FreeUse.grow, OuterUse.rebindsOf,
                NameUse.readsSelf?]
            · simp [same, Moment.name, NameUse.name, OuterUse.rebindsOf]

end Tracker

/-! ## Reports -/

/-- Reports that agree but for the order of the reads, and for the mutation of names that no frame
supplies. -/
structure ClosureReport.SameAnalysis (r r' : ClosureReport) : Prop where
  bound : r.bound = r'.bound
  names : r.freeNames = r'.freeNames
  captures : ∀ c ∈ r.captures, ∀ c' ∈ r'.captures, c.name = c'.name →
    c.referenceCount = c'.referenceCount ∧ c.supply = c'.supply ∧
      (c.supply ≠ none → c.mutation = c'.mutation)

namespace Tracker

variable {t t' : Tracker} {g g' : Scopes} {enclosing enclosing' : ScopeId} {limits : Limits}
  {report report' : ClosureReport} {outer : List (ScopeId × Frame)} {uses uses' : List OuterUse}
  {names names' : List String} {closure closure' : Address} {scope scope' : ScopeId}

theorem supply_eq (walk : g.Walk enclosing outer) (reported : t.report g enclosing limits = .ok report)
    {c : Capture} (member : c ∈ report.captures) : c.supply = Scopes.supplyAlong c.name 0 outer :=
  Scopes.supplyWithin_walk walk (report_records reported member).supplied

/-- The order of what trackers gather does not matter to their reports. -/
theorem Gathers.sameAnalysis (first : (start closure scope).Gathers uses names t)
    (second : (start closure' scope').Gathers uses' names' t') (perm : uses.Perm uses')
    (permNames : names.Perm names')
    (known : ∀ use ∈ uses, (Scopes.lookupAlong use.name outer).isSome = true → use.known = true)
    (walk : g.Walk enclosing outer) (walk' : g'.Walk enclosing' outer)
    (reported : t.report g enclosing limits = .ok report)
    (reported' : t'.report g' enclosing' limits = .ok report') : report.SameAnalysis report' := by
  refine ⟨?_, ?_, ?_⟩
  · rw [(report_bound reported).2, (report_bound reported').2, first.bound, second.bound,
      OrderedSet.foldl_add_perm permNames]
    rfl
  · have same : ∀ name, name ∈ report.freeNames ↔ name ∈ report'.freeNames := by
      intro name
      rw [mem_freeNames reported, mem_freeNames reported', first.captures, second.captures]
      simp only [perm.mem_iff, captures_start]
    have perm := (List.perm_ext_iff_of_nodup (report_names_nodup reported)
      (report_names_nodup reported')).mpr same
    exact OrderedMap.eq_of_perm perm (report_rising reported) (report_rising reported')
  · intro c member c' member' same
    have records := report_records reported member
    have records' := report_records reported' member'
    have supplied := supply_eq walk reported member
    refine ⟨?_, ?_, fun present => ?_⟩
    · rw [Capture.referenceCount, Capture.referenceCount, records.references, records'.references,
        first.reads, second.reads, perm.countP_eq, same]
      rfl
    · rw [supplied, supply_eq walk' reported' member', same]
    · have found : (Scopes.lookupAlong c.name outer).isSome = true := by
        obtain ⟨supply, here⟩ := Option.ne_none_iff_exists'.mp (supplied ▸ present)
        obtain ⟨frame, binding, -, -, -, -, -, answer, -⟩ := Scopes.supplyAlong_eq_some here
        rw [answer]
        rfl
      have throughout : ∀ use ∈ uses, use.name = c.name → use.known = true :=
        fun use inUses named => known use inUses (named ▸ found)
      have throughout' : ∀ use ∈ uses', use.name = c.name → use.known = true :=
        fun use inUses => throughout use (perm.mem_iff.mpr inUses)
      rw [records.mutation, records'.mutation, ← same, first.rebinds _ throughout,
        second.rebinds _ throughout']
      exact Mutation.classify_perm (perm.filterMap _)

end Tracker

end SyntaxGraph
