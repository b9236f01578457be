import SyntaxGraph.Proofs.Branches
import SyntaxGraph.Proofs.Indexes
import SyntaxGraph.Proofs.Reads

/-!
# Frames around a construct only supply captures

A construct may be compiled inside of given frames. They supply captured symbols, and a match in a
closure that binds a name of theirs again counts as a capture of it. Everything else is the same
whatever the frames are. In particular a closure has the same free reads: a read is local to it if
the frame that answers lies in it, and the frames in it are opened by the build itself.

Two builds inside of different frames run side by side. The frames that both have opened bind the
same under different numbers; the frame that they started from and those around it are not
compared.
-/

namespace SyntaxGraph

def Node.eraseCaptures (n : Node) : Node := { n with relations := n.relations.erase .captures }

/-- The nodes other than those of captures, without links to captures. -/
def Node.uncaptured (nodes : List Node) : List Node :=
  (nodes.filter fun n => n.kind != .capturedVariable).map Node.eraseCaptures

/-- The captured symbols that are read, each with the nodes that read it, their positions and how
many there are. -/
def ClosureReport.reads (r : ClosureReport) : List (String × List Address × List Position × Nat) :=
  (r.captures.filter fun c => 0 < c.referenceCount).map fun c =>
    (c.name, c.references, c.positions, c.referenceCount)

/-- A report without where its captures come from. -/
def ClosureReport.outcome (r : ClosureReport) :
    Address × List String × List (String × List Address × List Position × Nat) :=
  (r.closure, r.bound, r.reads)

/-- Results that differ at most in captures that are not read and in where captures come from. -/
structure Compiled.SameUncaptured (c c' : Compiled) : Prop where
  nodes : Node.uncaptured c.nodes = Node.uncaptured c'.nodes
  diagnostics : c.diagnostics = c'.diagnostics
  closures : c.closures.map ClosureReport.outcome = c'.closures.map ClosureReport.outcome

/-! ## Nodes without captures -/

namespace Node

variable {n n' : Node} {role : Role}

theorem relation_eraseCaptures (n : Node) (other : role ≠ .captures) :
    n.eraseCaptures.relation role = n.relation role := by
  unfold relation eraseCaptures
  rw [OrderedMap.get?_erase, if_neg]
  exact fun same => other (Std.LawfulEqOrd.eq_of_compare same)

theorem eraseCaptures_relate (n : Node) (other : role ≠ .captures) (target : Address) :
    (n.relate role target).eraseCaptures = n.eraseCaptures.relate role target := by
  unfold relate
  rw [relation_eraseCaptures n other]
  exact congrArg (Node.mk _ _ _ _) (OrderedMap.erase_insert_of_ne _ _ other)

theorem eraseCaptures_declare (n : Node) (other : role ≠ .captures) :
    (n.declare role).eraseCaptures = n.eraseCaptures.declare role := by
  unfold declare
  rw [relation_eraseCaptures n other]
  exact congrArg (Node.mk _ _ _ _) (OrderedMap.erase_insert_of_ne _ _ other)

theorem eraseCaptures_relate_captures (n : Node) (target : Address) :
    (n.relate .captures target).eraseCaptures = n.eraseCaptures :=
  congrArg (Node.mk _ _ _ _) (OrderedMap.erase_insert_self _ _ _)

theorem eraseCaptures_declare_captures (n : Node) :
    (n.declare .captures).eraseCaptures = n.eraseCaptures :=
  congrArg (Node.mk _ _ _ _) (OrderedMap.erase_insert_self _ _ _)

theorem eraseCaptures_relateAll_captures (n : Node) (targets : List Address) :
    (n.relateAll .captures targets).eraseCaptures = n.eraseCaptures := by
  induction targets generalizing n with
  | nil => rfl
  | cons target targets ih => exact (ih _).trans (eraseCaptures_relate_captures n target)

theorem eraseCaptures_withPosition (n : Node) (position : Option Position) :
    (n.withPosition position).eraseCaptures = n.eraseCaptures.withPosition position := by
  cases position with
  | none => rfl
  | some p =>
      unfold withPosition
      dsimp only
      cases p.column <;> rfl

theorem address_alike (same : n.eraseCaptures = n'.eraseCaptures) : n.address = n'.address := by
  have address : n.eraseCaptures.address = n'.eraseCaptures.address := congrArg Node.address same
  exact address

theorem relate_alike (same : n.eraseCaptures = n'.eraseCaptures) (role : Role) (target : Address) :
    (n.relate role target).eraseCaptures = (n'.relate role target).eraseCaptures := by
  by_cases captures : role = .captures
  · subst captures
    rw [eraseCaptures_relate_captures, eraseCaptures_relate_captures, same]
  · rw [eraseCaptures_relate n captures, eraseCaptures_relate n' captures, same]

theorem declare_alike (same : n.eraseCaptures = n'.eraseCaptures) (role : Role) :
    (n.declare role).eraseCaptures = (n'.declare role).eraseCaptures := by
  by_cases captures : role = .captures
  · subst captures
    rw [eraseCaptures_declare_captures, eraseCaptures_declare_captures, same]
  · rw [eraseCaptures_declare n captures, eraseCaptures_declare n' captures, same]

theorem uncaptured_append (nodes more : List Node) :
    uncaptured (nodes ++ more) = uncaptured nodes ++ uncaptured more := by
  simp only [uncaptured, List.filter_append, List.map_append]

theorem uncaptured_captureNodes (report : ClosureReport) : uncaptured report.captureNodes = [] := by
  refine List.map_eq_nil_iff.mpr (List.filter_eq_nil_iff.mpr fun n member => ?_)
  obtain ⟨index, capture, -, rfl⟩ := ClosureReport.mem_captureNodes member
  simp [ClosureReport.captureNode_kind]

theorem uncaptured_single (same : n.eraseCaptures = n'.eraseCaptures) :
    uncaptured [n] = uncaptured [n'] := by
  have kind : n.eraseCaptures.kind = n'.eraseCaptures.kind := congrArg Node.kind same
  replace kind : n.kind = n'.kind := kind
  unfold uncaptured
  rw [List.filter_singleton, List.filter_singleton, kind]
  cases n'.kind != .capturedVariable with
  | true => exact congrArg (fun n => [n]) same
  | false => rfl

theorem uncaptured_rising {nodes : List Node}
    (rising : nodes.Pairwise fun a b => compare a.address b.address = .lt) :
    (uncaptured nodes).Pairwise fun a b => compare a.address b.address = .lt :=
  List.pairwise_map.mpr (rising.sublist List.filter_sublist)

end Node

/-! ## Rows of frames inside of given ones -/

namespace Scopes

variable {g g' h : Scopes} {name : String} {scope scope' p p' : ScopeId}
  {path inner outer : List (ScopeId × Frame)} {ids : List (ScopeId × ScopeId)}
  {base : ScopeId × ScopeId}

/-- A walk that meets a frame starts from one that stands. -/
theorem Walk.standing (walk : g.Walk scope path) (met : path ≠ []) : scope.index < g.size := by
  cases walk with
  | missing _ => exact absurd rfl met
  | outermost present _ => exact lt_size_of_frame? present
  | further present _ _ => exact lt_size_of_frame? present

theorem any_eq_false (away : ∀ entry ∈ path, entry.1 ≠ p) : path.any (·.1 == p) = false :=
  List.any_eq_false.mpr fun entry member same => away entry member (beq_iff_eq.mp same)

theorem answersWithin_eq_false (away : ∀ entry ∈ path, entry.1 ≠ p) :
    answersWithin name p path = false := by
  induction path with
  | nil => rfl
  | cons entry path ih =>
      unfold answersWithin
      rw [any_eq_false away, ih fun entry member => away entry (List.mem_cons_of_mem _ member), ite_self]

/-- Frames that do not lie inside of a frame have no part in what is local to it. -/
theorem answersWithin_append (away : ∀ entry ∈ outer, entry.1 ≠ p) :
    answersWithin name p (inner ++ outer) = answersWithin name p inner := by
  induction inner with
  | nil => exact answersWithin_eq_false away
  | cons entry inner ih =>
      unfold answersWithin
      dsimp only [List.cons_append]
      rw [ih, List.any_cons, List.any_append, any_eq_false away, Bool.or_false, List.any_cons]

/-- A name is local to a frame of rows that bind the same names in both or in neither, whatever
frames lie around. -/
theorem isLocal_eq_of_alike {s s' : Session} {inner' outer' : List (ScopeId × Frame)}
    {use use' : NameUse} (alike : Along FrameAlike ids inner inner')
    (walk : s.scopes.Walk s.current (inner ++ outer))
    (walk' : s'.scopes.Walk s'.current (inner' ++ outer')) (nested : s.scopes.Nested)
    (nested' : s'.scopes.Nested) (member : (p, p') ∈ ids) (same : use.name = use'.name) :
    (Moment.mk s use).isLocal p = (Moment.mk s' use').isLocal p' := by
  obtain ⟨ids_eq, ids_eq'⟩ := FrameAlike.ids_eq alike
  have inside : p ∈ inner.map (·.1) := ids_eq ▸ List.mem_map.mpr ⟨_, member, rfl⟩
  have inside' : p' ∈ inner'.map (·.1) := ids_eq' ▸ List.mem_map.mpr ⟨_, member, rfl⟩
  obtain ⟨entry, met, -⟩ := List.mem_map.mp inside
  obtain ⟨entry', met', -⟩ := List.mem_map.mp inside'
  have standing := walk.standing (List.ne_nil_of_mem (List.mem_append_left outer met))
  have standing' := walk'.standing (List.ne_nil_of_mem (List.mem_append_left outer' met'))
  have distinct := walk.nodup nested standing
  have distinct' := walk'.nodup nested' standing'
  rw [List.map_append] at distinct distinct'
  have paired := FrameAlike.paired alike (List.Nodup.of_append_left distinct)
    (List.Nodup.of_append_left distinct') member
  -- No frame is met twice, so the frames that are not compared are others.
  have away : ∀ entry ∈ outer, entry.1 ≠ p := by
    rintro entry among rfl
    exact List.disjoint_of_nodup_append distinct inside (List.mem_map.mpr ⟨entry, among, rfl⟩)
  have away' : ∀ entry ∈ outer', entry.1 ≠ p' := by
    rintro entry among rfl
    exact List.disjoint_of_nodup_append distinct' inside' (List.mem_map.mpr ⟨entry, among, rfl⟩)
  calc (Moment.mk s use).isLocal p
      = answersWithin use.name p (inner ++ outer) := walk.answersWithin nested standing use.name p
    _ = answersWithin use.name p inner := answersWithin_append away
    _ = answersWithin use.name p' inner' := FrameAlike.answersWithin alike paired
    _ = answersWithin use.name p' (inner' ++ outer') := (answersWithin_append away').symm
    _ = answersWithin use'.name p' (inner' ++ outer') := by rw [same]
    _ = (Moment.mk s' use').isLocal p' := (walk'.answersWithin nested' standing' use'.name p').symm

/-- Two rows of frames outwards. Those opened inside of the frames `base` bind the same; these and
the ones around them may bind anything. -/
def Rows (ids : List (ScopeId × ScopeId)) (base : ScopeId × ScopeId) (g g' : Scopes)
    (scope scope' : ScopeId) : Prop :=
  ∃ inner inner' frame frame' outer outer', Along FrameTwins ids inner inner' ∧
    g.Walk scope (inner ++ (base.1, frame) :: outer) ∧
    g'.Walk scope' (inner' ++ (base.2, frame') :: outer')

namespace Rows

theorem standing (rows : Rows ids base g g' scope scope') :
    scope.index < g.size ∧ scope'.index < g'.size := by
  obtain ⟨inner, inner', frame, frame', outer, outer', -, walk, walk'⟩ := rows
  exact ⟨walk.standing (by simp), walk'.standing (by simp)⟩

/-- A name is local to a frame opened inside of `base` in both rows or in neither. -/
theorem isLocal_eq {s s' : Session} (rows : Rows ids base s.scopes s'.scopes s.current s'.current)
    (nested : s.scopes.Nested) (nested' : s'.scopes.Nested) (member : (p, p') ∈ ids) (use : NameUse) :
    (Moment.mk s use).isLocal p = (Moment.mk s' use).isLocal p' := by
  obtain ⟨inner, inner', frame, frame', outer, outer', along, walk, walk'⟩ := rows
  exact isLocal_eq_of_alike (FrameTwins.alike along) walk walk' nested nested' member rfl

/-- A frame opened inside of both. -/
theorem add (rows : Rows ids base g g' scope scope') (nested : g.Nested) (nested' : g'.Nested)
    (kind : ScopeKind) :
    Rows ((⟨g.size⟩, ⟨g'.size⟩) :: ids) base (g.add scope kind) (g'.add scope' kind) ⟨g.size⟩
      ⟨g'.size⟩ := by
  obtain ⟨standing, standing'⟩ := rows.standing
  obtain ⟨inner, inner', frame, frame', outer, outer', along, walk, walk'⟩ := rows
  refine ⟨_, _, frame, frame', outer, outer', .cons ?_ along, walk.add nested standing kind,
    walk'.add nested' standing' kind⟩
  exact ⟨rfl, rfl, rfl, rfl⟩

/-- Back in the frames around. -/
theorem tail {q : ScopeId × ScopeId} (rows : Rows (q :: ids) base g g' scope scope') :
    Rows ids base g g' (ids.head?.getD base).1 (ids.head?.getD base).2 := by
  obtain ⟨inner, inner', frame, frame', outer, outer', along, walk, walk'⟩ := rows
  cases along with
  | cons _ rest =>
      refine ⟨_, _, frame, frame', outer, outer', rest, ?_⟩
      cases rest with
      | nil => exact ⟨walk.tail, walk'.tail⟩
      | cons here _ => exact ⟨here.first ▸ walk.tail, here.second ▸ walk'.tail⟩

/-- A binding in the innermost frames. -/
theorem bind (rows : Rows ids base g g' scope scope') (nested : g.Nested) (nested' : g'.Nested)
    (binding : Binding) : Rows ids base (g.bind scope binding) (g'.bind scope' binding) scope scope' := by
  obtain ⟨inner, inner', frame, frame', outer, outer', along, walk, walk'⟩ := rows
  cases along with
  | nil =>
      obtain rfl : base.1 = scope := walk.head_eq
      obtain rfl : base.2 = scope' := walk'.head_eq
      exact ⟨[], [], _, _, outer, outer', .nil, walk.bind nested binding, walk'.bind nested' binding⟩
  | @cons _ entry entry' _ rest rest' here others =>
      obtain ⟨found, inside⟩ := entry
      obtain ⟨found', inside'⟩ := entry'
      obtain rfl : found = scope := walk.head_eq
      obtain rfl : found' = scope' := walk'.head_eq
      refine ⟨_ :: rest, _ :: rest', frame, frame', outer, outer', .cons ?_ others,
        walk.bind nested binding, walk'.bind nested' binding⟩
      exact ⟨here.first, here.second, here.kind, congrArg (·.insert binding.name binding) here.bindings⟩

theorem start (nested : g.Nested) (nested' : g'.Nested) (standing : scope.index < g.size)
    (standing' : scope'.index < g'.size) : Rows [] (scope, scope') g g' scope scope' := by
  have row : ∀ {g : Scopes} {scope : ScopeId}, g.Nested → scope.index < g.size →
      ∃ frame outer, g.Walk scope ((scope, frame) :: outer) := by
    intro g scope nested standing
    obtain ⟨path, walk⟩ := Walk.exists_of_nested nested scope
    cases walk with
    | missing absent => exact absurd (frame?_eq_none_iff.mp absent) (by omega)
    | outermost present last => exact ⟨_, _, .outermost present last⟩
    | further present around rest => exact ⟨_, _, .further present around rest⟩
  obtain ⟨frame, outer, walk⟩ := row nested standing
  obtain ⟨frame', outer', walk'⟩ := row nested' standing'
  exact ⟨[], [], frame, frame', outer, outer', .nil, walk, walk'⟩

end Rows

end Scopes

/-! ## Reads that closures note -/

/-- What is noted about the reads of a name. -/
def FreeUse.reads (use : FreeUse) : List Address × List Position := (use.references, use.positions)

namespace Tracker

variable {t t' : Tracker} {g g' : Scopes} {enclosing enclosing' : ScopeId} {limits limits' : Limits}
  {report report' : ClosureReport}

/-- Trackers that have noted the same reads of every name. -/
def SameReads (t t' : Tracker) : Prop := ∀ name, (t.use name).reads = (t'.use name).reads

/-- Whether a match that binds a name again is heeded does not matter to the reads. -/
theorem SameReads.follow {m m' : Moment} (same : t.SameReads t') (use : m.use = m'.use)
    (here : m.isLocal t.scope = m'.isLocal t'.scope) : (t.follow m).SameReads (t'.follow m') := by
  obtain ⟨s, use₁⟩ := m
  obtain ⟨s', use₂⟩ := m'
  obtain rfl : use₁ = use₂ := use
  intro name
  rw [use_follow, use_follow]
  cases use₁ with
  | read read reference position =>
      have heeds : t.heeds ⟨s, .read read reference position⟩ =
          t'.heeds ⟨s', .read read reference position⟩ := by
        unfold heeds
        rw [here]
      have grown : ∀ (heeded : Prop) [Decidable heeded],
          (if heeded then (t.use name).grow (.read read reference position) else t.use name).reads =
          (if heeded then (t'.use name).grow (.read read reference position) else t'.use name).reads := by
        intro heeded _
        split
        · exact congrArg (fun reads => (reads.1 ++ [reference], reads.2 ++ position.toList)) (same name)
        · exact same name
      rw [heeds]
      exact grown _
  | rebind bound readsSelf =>
      have kept : ∀ (use : FreeUse) (heeded : Prop) [Decidable heeded],
          (if heeded then use.grow (.rebind bound readsSelf) else use).reads = use.reads := by
        intro use heeded _
        split <;> rfl
      rw [kept, kept]
      exact same name

/-- A report lists the reads of the names that are read at all. -/
theorem mem_reads (reported : t.report g enclosing limits = .ok report)
    (entry : String × List Address × List Position × Nat) :
    entry ∈ report.reads ↔
      entry.2 = ((t.use entry.1).references, (t.use entry.1).positions,
        (t.use entry.1).references.length) ∧ 0 < (t.use entry.1).references.length := by
  unfold ClosureReport.reads
  constructor
  · intro member
    obtain ⟨capture, kept, rfl⟩ := List.mem_map.mp member
    obtain ⟨inReport, read⟩ := List.mem_filter.mp kept
    have records := report_records reported inReport
    dsimp only [Capture.referenceCount] at read ⊢
    rw [← records.references, ← records.positions]
    exact ⟨rfl, of_decide_eq_true read⟩
  · rintro ⟨same, read⟩
    obtain ⟨reference, noted⟩ := List.exists_mem_of_length_pos read
    obtain ⟨capture, inReport, named⟩ := report_complete reported (captures_of_mem_references noted)
    have references := (report_records reported inReport).references
    have positions := (report_records reported inReport).positions
    rw [named] at references positions
    refine List.mem_map.mpr ⟨capture, List.mem_filter.mpr ⟨inReport, decide_eq_true ?_⟩, ?_⟩
    · rw [Capture.referenceCount, references]
      exact read
    · rw [Capture.referenceCount, references, positions, named, ← same]

theorem reads_rising (reported : t.report g enclosing limits = .ok report) :
    report.reads.Pairwise fun a b => compare a.1 b.1 = .lt :=
  List.pairwise_map.mpr
    ((List.pairwise_map.mp (report_rising reported)).sublist List.filter_sublist)

theorem SameReads.reads_eq (same : t.SameReads t') (reported : t.report g enclosing limits = .ok report)
    (reported' : t'.report g' enclosing' limits' = .ok report') : report.reads = report'.reads := by
  refine OrderedMap.eq_of_rising (reads_rising reported) (reads_rising reported') fun entry => ?_
  obtain ⟨references, positions⟩ := Prod.mk.inj (same entry.1)
  rw [mem_reads reported, mem_reads reported', references, positions]

end Tracker

/-! ## Sessions of builds inside of different frames -/

/-- The frames opened since the builds started and the open closures, innermost first. -/
structure Openings where
  frames : List (ScopeId × ScopeId)
  /-- The frames that the builds started from. -/
  base : ScopeId × ScopeId
  closures : List Held
  /-- The frames of open closures are open. -/
  held : ∀ c ∈ closures, c.frame ∈ frames

namespace Openings

def current (stack : Openings) : ScopeId × ScopeId := stack.frames.head?.getD stack.base

def enter (stack : Openings) (frame : ScopeId × ScopeId) : Openings :=
  { stack with
    frames := frame :: stack.frames
    held := fun c member => List.mem_cons_of_mem _ (stack.held c member) }

def openClosure (stack : Openings) (c : Held) : Openings :=
  { stack with
    frames := c.frame :: stack.frames
    closures := c :: stack.closures
    held := List.forall_mem_cons.mpr
      ⟨List.mem_cons_self, fun other member => List.mem_cons_of_mem _ (stack.held other member)⟩ }

/-- What two sessions have in common whatever their frames are. -/
structure Outline (stack : Openings) (s s' : Session) : Prop where
  current : stack.current = (s.current, s'.current)
  closures : Along Held.Describes stack.closures s.closures s'.closures
  bound : s.closures.map (·.tracker.bound) = s'.closures.map (·.tracker.bound)
  logs : s.readLogs = s'.readLogs
  counts : s.placeholders = s'.placeholders
  nodes : Node.uncaptured s.nodes.toList = Node.uncaptured s'.nodes.toList
  diagnostics : s.diagnostics = s'.diagnostics

/-- What they have in common as long as frames can be told apart. -/
structure Content (stack : Openings) (s s' : Session) : Prop where
  nested : s.scopes.Nested
  nested' : s'.scopes.Nested
  rows : Scopes.Rows stack.frames stack.base s.scopes s'.scopes s.current s'.current
  notes : Along (fun _ c c' => c.tracker.SameReads c'.tracker) stack.closures s.closures s'.closures
  reports : s.reports.toList.map ClosureReport.outcome = s'.reports.toList.map ClosureReport.outcome

/-- Sessions of two builds of one construct inside of different frames. -/
structure Together (stack : Openings) (s s' : Session) : Prop where
  outline : stack.Outline s s'
  content : s.scopes.size ≤ 2 ^ 32 → s'.scopes.size ≤ 2 ^ 32 → stack.Content s s'

variable {stack : Openings} {s s' t t' u u' : Session}

theorem Outline.follow {moments moments' : List Moment} (outline : stack.Outline s s')
    (first : List.Forall₂ (OpenClosure.Follows moments) s.closures u.closures)
    (second : List.Forall₂ (OpenClosure.Follows moments') s'.closures u'.closures) :
    Along Held.Describes stack.closures u.closures u'.closures :=
  outline.closures.step first second fun _ _ _ _ _ _ describes follows follows' =>
    describes.follows follows follows'

/-- Closures have the same reads after a use of a name. -/
theorem Content.note (content : stack.Content s s') (outline : stack.Outline s s') {use : NameUse}
    (first : List.Forall₂ (OpenClosure.Follows [⟨s, use⟩]) s.closures u.closures)
    (second : List.Forall₂ (OpenClosure.Follows [⟨s', use⟩]) s'.closures u'.closures) :
    Along (fun _ c c' => c.tracker.SameReads c'.tracker) stack.closures u.closures u'.closures := by
  refine (outline.closures.and content.notes).step first second ?_
  rintro held member c c' d d' ⟨describes, same⟩ follows follows'
  have inFrames : (c.tracker.scope, c'.tracker.scope) ∈ stack.frames := by
    rw [describes.frame]
    exact stack.held held member
  have here := content.rows.isLocal_eq content.nested content.nested' inFrames use
  have after : (c.tracker.follow ⟨s, use⟩).SameReads (c'.tracker.follow ⟨s', use⟩) := same.follow rfl here
  intro name
  rw [follows.use, follows'.use]
  exact after name

theorem Content.unnoted (content : stack.Content s s')
    (first : List.Forall₂ (OpenClosure.Follows []) s.closures u.closures)
    (second : List.Forall₂ (OpenClosure.Follows []) s'.closures u'.closures) :
    Along (fun _ c c' => c.tracker.SameReads c'.tracker) stack.closures u.closures u'.closures := by
  refine content.notes.step first second ?_
  intro held _ c c' d d' same follows follows' name
  rw [follows.use, follows'.use]
  exact same name

end Openings

/-! ## Names bound by parameters -/

namespace Session

theorem readSymbol_bound (s : Session) (name : String) (reference : Address)
    (position : Option Position) :
    (s.readSymbol name reference position).closures.map (·.tracker.bound) =
      s.closures.map (·.tracker.bound) := by
  rw [readSymbol_closures, List.map_map]
  exact List.map_congr_left fun c _ => Tracker.follow_bound

theorem bindSymbol_bound (s : Session) (reads : Option (OrderedSet String)) (binding : Binding) :
    (s.bindSymbol reads binding).closures.map (·.tracker.bound) = s.closures.map (·.tracker.bound) := by
  rw [bindSymbol_closures, List.map_map]
  exact List.map_congr_left fun c _ => Tracker.followAll_bound

theorem boundByClosure_eq (s : Session) (names : List String) :
    s.boundByClosure names =
      { s with closures := s.closures.modifyHead fun c => { c with tracker := c.tracker.addBound names } } := by
  obtain ⟨scopes, current, nodes, diagnostics, reports, closures, logs, counts⟩ := s
  cases closures <;> rfl

end Session

/-! ## Steps keep the builds together -/

namespace Openings.Together

variable {stack : Openings} {s s' t t' : Session}

theorem emit (together : stack.Together s s') {n n' : Node}
    (same : n.eraseCaptures = n'.eraseCaptures) : stack.Together (s.emit n) (s'.emit n') := by
  obtain ⟨outline, content⟩ := together
  refine ⟨{ outline with nodes := ?_ }, fun small small' => { content small small' with }⟩
  rw [Session.emit_nodes, Session.emit_nodes, Node.uncaptured_append, Node.uncaptured_append,
    outline.nodes, Node.uncaptured_single same]

theorem readSymbol (together : stack.Together s s') (name : String) (reference : Address)
    (position : Option Position) :
    stack.Together (s.readSymbol name reference position) (s'.readSymbol name reference position) := by
  obtain ⟨outline, content⟩ := together
  have follows := s.readSymbol_follows name reference position
  have follows' := s'.readSymbol_follows name reference position
  refine ⟨{ outline with closures := outline.follow follows follows', bound := ?_, logs := ?_ },
    fun small small' => ?_⟩
  · rw [Session.readSymbol_bound, Session.readSymbol_bound]
    exact outline.bound
  · exact congrArg (List.map fun log => log.add name) outline.logs
  · have before := content small small'
    exact { before with notes := before.note outline follows follows' }

theorem bindSymbol (together : stack.Together s s') (reads : Option (OrderedSet String))
    (binding : Binding) : stack.Together (s.bindSymbol reads binding) (s'.bindSymbol reads binding) := by
  obtain ⟨outline, content⟩ := together
  have follows := s.bindSymbol_follows reads binding
  have follows' := s'.bindSymbol_follows reads binding
  refine ⟨{ outline with closures := outline.follow follows follows', bound := ?_ },
    fun small small' => ?_⟩
  · rw [Session.bindSymbol_bound, Session.bindSymbol_bound]
    exact outline.bound
  · replace small : (s.scopes.bind s.current binding).size ≤ 2 ^ 32 := small
    replace small' : (s'.scopes.bind s'.current binding).size ≤ 2 ^ 32 := small'
    rw [Scopes.size_bind] at small small'
    have before := content small small'
    refine ⟨before.nested.bind, before.nested'.bind, before.rows.bind before.nested before.nested' binding,
      ?_, before.reports⟩
    cases reads with
    | none => exact before.unnoted follows follows'
    | some reads => exact before.note outline follows follows'

theorem boundByClosure (together : stack.Together s s') (names : List String) :
    stack.Together (s.boundByClosure names) (s'.boundByClosure names) := by
  obtain ⟨outline, content⟩ := together
  have follows := s.boundByClosure_follows names
  have follows' := s'.boundByClosure_follows names
  rw [Session.boundByClosure_eq] at follows ⊢
  rw [Session.boundByClosure_eq] at follows' ⊢
  refine ⟨{ outline with closures := outline.follow follows follows', bound := ?_ },
    fun small small' => ?_⟩
  · have heads : ∀ closures : List OpenClosure,
        (closures.modifyHead fun c => { c with tracker := c.tracker.addBound names }).map (·.tracker.bound) =
          (closures.map (·.tracker.bound)).modifyHead fun bound => names.foldl OrderedSet.add bound := by
      intro closures
      cases closures <;> rfl
    rw [heads, heads, outline.bound]
  · have before := content small small'
    exact { before with notes := before.unnoted follows follows' }

theorem diagnose (together : stack.Together s s') (diagnostic : Diagnostic) :
    stack.Together (s.diagnose diagnostic) (s'.diagnose diagnostic) := by
  obtain ⟨outline, content⟩ := together
  exact ⟨{ outline with diagnostics := congrArg (·.push diagnostic) outline.diagnostics },
    fun small small' => { content small small' with }⟩

/-- Logs and counts matter to nothing else. -/
theorem record (together : stack.Together s s') {logs logs' : List (OrderedSet String)}
    {counts counts' : List Int64} (logged : logs = logs') (counted : counts = counts') :
    stack.Together { s with readLogs := logs, placeholders := counts }
      { s' with readLogs := logs', placeholders := counts' } := by
  obtain ⟨outline, content⟩ := together
  exact ⟨{ outline with logs := logged, counts := counted },
    fun small small' => { content small small' with }⟩

theorem enter (together : stack.Together s s') (kind : ScopeKind) :
    (stack.enter ((s.enter kind).current, (s'.enter kind).current)).Together (s.enter kind)
      (s'.enter kind) := by
  obtain ⟨outline, content⟩ := together
  refine ⟨{ outline with current := rfl }, fun small small' => ?_⟩
  replace small : (s.scopes.add s.current kind).size ≤ 2 ^ 32 := small
  replace small' : (s'.scopes.add s'.current kind).size ≤ 2 ^ 32 := small'
  rw [Scopes.size_add] at small small'
  have before := content (by omega) (by omega)
  obtain ⟨standing, standing'⟩ := before.rows.standing
  refine ⟨before.nested.add standing, before.nested'.add standing', ?_, before.notes, before.reports⟩
  rw [show (s.enter kind).current = ⟨s.scopes.size⟩ from Scopes.next_eq (by omega),
    show (s'.enter kind).current = ⟨s'.scopes.size⟩ from Scopes.next_eq (by omega)]
  exact before.rows.add before.nested before.nested' kind

/-- Back in the frames around, the frames opened inside are out of sight. -/
theorem rows_leave {frame : ScopeId × ScopeId} {g g' : Scopes} {scope scope' : ScopeId}
    (outline : stack.Outline s s')
    (rows : Scopes.Rows (frame :: stack.frames) stack.base g g' scope scope') :
    Scopes.Rows stack.frames stack.base g g' s.current s'.current := by
  have around := rows.tail
  rw [show stack.frames.head?.getD stack.base = _ from outline.current] at around
  exact around

theorem leave {frame : ScopeId × ScopeId} (together : stack.Together s s')
    (inner : (stack.enter frame).Together t t') :
    stack.Together { t with current := s.current } { t' with current := s'.current } := by
  refine ⟨{ inner.outline with current := together.outline.current }, fun small small' => ?_⟩
  have after := inner.content small small'
  have rows := rows_leave together.outline after.rows
  exact { after with rows := rows }

theorem openClosure (together : stack.Together s s') (site : Address) :
    (stack.openClosure ⟨site, ((s.enter .closure).current, (s'.enter .closure).current),
      (s.current, s'.current)⟩).Together (s.openClosure site) (s'.openClosure site) := by
  obtain ⟨outline, content⟩ := together.enter .closure
  refine ⟨{ outline with
    closures := .cons ⟨rfl, rfl, rfl, rfl⟩ outline.closures
    bound := congrArg (List.cons _) outline.bound }, fun small small' => ?_⟩
  have inside := content small small'
  exact { inside with notes := .cons (fun _ => rfl) inside.notes }

/-- A closure is reported on in both runs. -/
theorem close {limits : Limits} {site : Address} {frame : ScopeId × ScopeId}
    (together : stack.Together s s')
    (inner : (stack.openClosure ⟨site, frame, (s.current, s'.current)⟩).Together t t')
    {n n' r r' : Node} (same : n.eraseCaptures = n'.eraseCaptures) {u u' : Session}
    (first : (Build.closeClosure n).Yields limits t r u)
    (second : (Build.closeClosure n').Yields limits t' r' u') :
    stack.Together u u' ∧ r.eraseCaptures = r'.eraseCaptures ∧ r.address = n.address ∧
      r'.address = n'.address := by
  obtain ⟨outline, content⟩ := inner
  have closures := outline.closures
  have bound := outline.bound
  generalize top : t.closures = these at closures bound
  generalize top' : t'.closures = those at closures bound
  cases closures with
  | @cons _ c c' _ others others' describes rest =>
      obtain ⟨report, reported, rfl, rfl⟩ := Build.yields_closeClosure top first
      obtain ⟨report', reported', rfl, rfl⟩ := Build.yields_closeClosure top' second
      obtain ⟨current, current'⟩ : c.enclosing = s.current ∧ c'.enclosing = s'.current :=
        Prod.mk.inj describes.enclosing
      obtain ⟨ownBound, restBound⟩ : c.tracker.bound = c'.tracker.bound ∧
          others.map (·.tracker.bound) = others'.map (·.tracker.bound) := List.cons.inj bound
      refine ⟨⟨{ outline with current := ?_, closures := rest, bound := restBound, nodes := ?_ },
        fun small small' => ?_⟩, ?_, by simp, by simp⟩
      · dsimp only
        rw [current, current']
        exact together.outline.current
      · dsimp only
        rw [Array.toList_appendList, Array.toList_appendList, Node.uncaptured_append,
          Node.uncaptured_append, Node.uncaptured_captureNodes, Node.uncaptured_captureNodes,
          outline.nodes]
      · obtain ⟨nested, nested', rows, notes, reports⟩ := content small small'
        rw [top, top'] at notes
        cases notes with
        | cons noted notes =>
            have outcome : report.outcome = report'.outcome := by
              unfold ClosureReport.outcome
              rw [Tracker.report_closure reported, Tracker.report_closure reported', describes.site,
                describes.site', (Tracker.report_bound reported).2, (Tracker.report_bound reported').2,
                ownBound, noted.reads_eq reported reported']
            refine ⟨nested, nested', ?_, notes, ?_⟩
            · dsimp only
              rw [current, current']
              exact rows_leave together.outline rows
            · dsimp only
              rw [Array.toList_push, Array.toList_push, List.map_append, List.map_append, reports,
                List.map_singleton, List.map_singleton, outcome]
      · rw [Node.eraseCaptures_relateAll_captures, Node.eraseCaptures_declare_captures,
          Node.eraseCaptures_relateAll_captures, Node.eraseCaptures_declare_captures, same]

end Openings.Together

/-! ## The simulation -/

/-- Two builds of one tree inside of different frames. -/
def Coupling.seeds (limits : Limits) : Coupling where
  Stack := Openings
  World := Unit
  grows _ _ := True
  limits := limits
  limits' := limits
  like := .same
  session stack _ := stack.Together
  address := Eq
  within _ _ := True
  node _ n n' := n.eraseCaptures = n'.eraseCaptures
  part _ := Eq
  segment _ := Eq
  binding _ := Eq
  room := Eq
  varied _ := False
  cut _ := True
  lost _ := True
  fault _ _ := True

/-- Every primitive step keeps the two builds together. -/
def Simulation.seeds (limits : Limits) : Simulation where
  toCoupling := .seeds limits
  grows_refl _ := trivial
  grows_trans _ _ := trivial
  node_mono _ := id
  part_mono _ := id
  segment_mono _ := id
  binding_mono _ := id
  address_child := by
    rintro a - label rfl
    rfl
  address_indexed := by
    rintro a - label index rfl
    rfl
  within_child _ := id
  within_indexed _ _ := id
  node_address := Node.address_alike
  node_make := by
    rintro _ a - kind rfl -
    rfl
  node_set name value _ same := congrArg (Node.set · name value) same
  node_withTags tags same := congrArg (Node.withTags · tags) same
  node_withPosition := by
    rintro _ n n' position - same rfl
    show (n.withPosition position).eraseCaptures = (n'.withPosition position).eraseCaptures
    rw [Node.eraseCaptures_withPosition, Node.eraseCaptures_withPosition]
    exact congrArg (Node.withPosition · position) same
  node_declare role same := Node.declare_alike same role
  node_relate := by
    rintro _ n n' a - role same rfl
    exact Node.relate_alike same role a
  node_varied := False.elim
  varied_indexed := id
  varied_cut := False.elim
  varied_lost := False.elim
  binding_name := congrArg Binding.name
  fails_malformed _ _ := .inl trivial
  fails_arity _ _ := .inl trivial
  fails_deep _ := .inl trivial
  room_pred := by
    rintro n - rfl
    rfl
  room_zero := by
    intro n' same
    cases same
  room_succ := by
    intro n same
    cases same
  relates_fanout what count _ :=
    .fanout (fun _ => trivial) (fun _ => trivial) trivial _ _ what count
  relates_placeholder := by
    rintro stack world a - source source' index - rfl positions
    refine .ofYields (fun _ => trivial) (fun _ => trivial) fun s s' _ t _ t' together first second => ?_
    have outline : stack.Outline s s' := together.outline
    obtain ⟨greatest, rest, seen, rfl⟩ := Build.yields_placeholder first
    obtain ⟨greatest', rest', seen', rfl⟩ := Build.yields_placeholder second
    have counts := outline.counts
    rw [seen, seen'] at counts
    obtain ⟨rfl, rfl⟩ := List.cons.inj counts
    have same : source.position = source'.position := positions
    refine ⟨(), trivial, ?_, rfl⟩
    rw [same]
    exact (Openings.Together.record together outline.logs rfl).emit rfl
  session_emit := by
    intro stack world n n' s s' _ alike together
    have address := Node.address_alike alike
    refine ⟨(), trivial, together.emit alike, address, fun _ => address, ?_⟩
    rintro name position - - - rfl
    exact congrArg (fun site => (⟨name, some site, position⟩ : Binding)) address
  session_symbol := by
    rintro stack world a - source source' s s' name - rfl positions together
    have same : source.position = source'.position := positions
    refine ⟨(), trivial, ?_, rfl⟩
    unfold Build.nameNode
    rw [same]
    exact (together.readSymbol name a source'.position).emit rfl
  session_size := by
    rintro stack world a - position - s s' name - rfl rfl together
    exact together.readSymbol name a position
  session_bind := by
    rintro stack world site reads reads' b - s s' - rfl figures together
    obtain rfl : reads = reads' := Coupling.eq_of_figures id figures
    exact together.bindSymbol reads b
  session_bound names together := together.boundByClosure names
  session_diagnose := by
    rintro stack world a - position - s s' kind tag rfl rfl together
    exact together.diagnose _
  session_enter := by
    intro stack world s s' kind together
    exact ⟨Openings.enter stack ((s.enter kind).current, (s'.enter kind).current), (),
      fun _ _ => trivial, trivial, together.enter kind, fun _ _ _ _ inner => together.leave inner⟩
  session_log := by
    intro stack world site s s' _ together
    have outline : stack.Outline s s' := together.outline
    refine ⟨stack, (), trivial, trivial, together.record (congrArg (List.cons ∅) outline.logs) outline.counts,
      fun _ t t' _ inner => ?_⟩
    have outline : stack.Outline t t' := inner.outline
    exact ⟨inner.record (congrArg List.tail outline.logs) outline.counts,
      .inl (congrArg (fun logs => logs.head?.getD ∅) outline.logs)⟩
  session_count := by
    intro stack world site s s' _ together
    have outline : stack.Outline s s' := together.outline
    refine ⟨stack, (), trivial, trivial, together.record outline.logs (congrArg (List.cons 0) outline.counts),
      fun _ t t' _ inner => ?_⟩
    have outline : stack.Outline t t' := inner.outline
    exact ⟨inner.record outline.logs (congrArg List.tail outline.counts),
      .inl (congrArg (fun counts => counts.head?.getD 0) outline.counts)⟩
  relates_closure := by
    intro α β stack world site site' value m m' opened opened' finish finish' _ same inner _ node last
    obtain rfl : site = site' := same
    refine .ofYields (fun _ => trivial) (fun _ => trivial) fun s s' _ t _ t' together first second => ?_
    obtain ⟨a, v, n, w, parts, closed, rfl⟩ := Build.yields_closure first
    obtain ⟨b, v', n', w', parts', closed', rfl⟩ := Build.yields_closure second
    obtain ⟨later, -, inside, built⟩ := (inner _ world trivial).done
      (Openings.Together.openClosure together site) parts parts'
    obtain ⟨alike, place, place'⟩ := node later a b built
    obtain ⟨after, alike, here, here'⟩ := Openings.Together.close together inside alike closed closed'
    obtain ⟨alike, -, -⟩ :=
      last later a b n n' built ⟨alike, here.trans place, here'.trans place'⟩
    exact ⟨(), trivial, after.emit alike, rfl⟩

/-! ## Constructs -/

namespace Compiler

variable {limits : Limits} {frames frames' : List (ScopeKind × List String)}

/-- The builds start together, each in the innermost of its frames. -/
theorem session_together (limits : Limits) (frames frames' : List (ScopeKind × List String)) :
    ∃ stack : Openings, stack.Together (session ⟨limits, frames⟩) (session ⟨limits, frames'⟩) := by
  refine ⟨⟨[], (_, _), [], fun _ member => (nomatch member)⟩, ⟨rfl, .nil, rfl, rfl, rfl, rfl, rfl⟩,
    fun small small' => ?_⟩
  have placed := session_placed small
  have placed' := session_placed small'
  exact ⟨placed.nested, placed'.nested,
    .start placed.nested placed'.nested placed.standing placed'.standing, .nil, rfl⟩

/-- Nodes that are the same apart from captures are so in the order of their addresses. -/
theorem uncaptured_sorted {nodes nodes' : List Node} (same : Node.uncaptured nodes = Node.uncaptured nodes')
    (distinct : (nodes.map (·.address)).Nodup) (distinct' : (nodes'.map (·.address)).Nodup) :
    Node.uncaptured (sortNodes nodes) = Node.uncaptured (sortNodes nodes') := by
  have sorted : ∀ nodes, (Node.uncaptured (sortNodes nodes)).Perm (Node.uncaptured nodes) :=
    fun nodes => ((sortNodes_perm nodes).filter _).map _
  refine OrderedMap.eq_of_perm ((sorted nodes).trans ?_) (Node.uncaptured_rising (sortNodes_rising distinct))
    (Node.uncaptured_rising (sortNodes_rising distinct'))
  rw [same]
  exact (sorted nodes').symm

theorem sameUncaptured {k : Construct} {compiled compiled' : Compiled}
    (first : construct ⟨limits, frames⟩ k = .ok compiled)
    (second : construct ⟨limits, frames'⟩ k = .ok compiled')
    (few : openedFrames ⟨limits, frames⟩ k < 2 ^ 32) (few' : openedFrames ⟨limits, frames'⟩ k < 2 ^ 32) :
    compiled.SameUncaptured compiled' := by
  obtain ⟨gain, traces⟩ := exists_traces first
  obtain ⟨gain', traces'⟩ := exists_traces second
  obtain ⟨t, success, rfl, course, small, -⟩ := traces.small few
  obtain ⟨t', success', rfl, course', small', -⟩ := traces'.small few'
  obtain ⟨stack, start⟩ := session_together limits frames frames'
  have related : (Simulation.seeds limits).Relates stack () (fun _ _ _ => k.root = k.root)
      (k.build ⟨limits, frames⟩) (k.build ⟨limits, frames'⟩) :=
    Simulation.relates_construct Likeness.same_closed (fun _ _ => .ofNone (fun _ => id) _ _) rfl
      k.alike_self trivial rfl
  obtain ⟨_, -, ⟨outline, content⟩, -⟩ := related.done start success success'
  have distinct : (t.nodes.toList.map (·.address)).Nodup := by
    rw [show t.nodes.toList = gain.nodes from course.nodes_eq]
    exact course.forest.distinct
  have distinct' : (t'.nodes.toList.map (·.address)).Nodup := by
    rw [show t'.nodes.toList = gain'.nodes from course'.nodes_eq]
    exact course'.forest.distinct
  exact ⟨uncaptured_sorted outline.nodes distinct distinct', congrArg Array.toList outline.diagnostics,
    (content small small').reports⟩

theorem bindings_eq {root : Address} {source : Source} {found found' : CompiledPattern}
    (first : pattern ⟨limits, frames⟩ root source = .ok found)
    (second : pattern ⟨limits, frames'⟩ root source = .ok found') : found.bindings = found'.bindings := by
  obtain ⟨⟨compiled, bindings⟩, run, rfl⟩ := except_map_eq_ok first
  obtain ⟨⟨compiled', bindings'⟩, run', rfl⟩ := except_map_eq_ok second
  obtain ⟨t, success, -⟩ := run_eq_ok run
  obtain ⟨t', success', -⟩ := run_eq_ok run'
  obtain ⟨stack, start⟩ := session_together limits frames frames'
  have level : (Level.ofRoom limits.maxDepth).Related (.seeds limits) (Level.ofRoom limits.maxDepth) :=
    Level.ofRoom_related Likeness.same_closed (fun _ _ => .ofNone (fun _ => id) _ _) _ _ rfl
  have related : (Simulation.seeds limits).Relates stack () _
      ((Level.ofRoom limits.maxDepth).pattern root source [])
      ((Level.ofRoom limits.maxDepth).pattern root source []) := level.pattern trivial rfl rfl .nil
  obtain ⟨_, -, -, -, same⟩ := related.done start success success'
  exact List.forall₂_eq_eq_eq ▸ same

/-- Frames around a construct only supply its captures. Inside of whatever frames it is compiled,
its nodes are the same apart from captures, and so are its diagnostics, the names that its closures
bind, what they read from outside and, for a pattern, the symbols that it binds. -/
theorem frames_onlySupply {k : Construct} {compiled compiled' : Compiled}
    (first : construct ⟨limits, frames⟩ k = .ok compiled)
    (second : construct ⟨limits, frames'⟩ k = .ok compiled')
    (few : openedFrames ⟨limits, frames⟩ k < 2 ^ 32) (few' : openedFrames ⟨limits, frames'⟩ k < 2 ^ 32) :
    compiled.SameUncaptured compiled' ∧
      ∀ root source, k = .pattern root source → ∃ bindings,
        pattern ⟨limits, frames⟩ root source = .ok ⟨compiled, bindings⟩ ∧
        pattern ⟨limits, frames'⟩ root source = .ok ⟨compiled', bindings⟩ := by
  refine ⟨sameUncaptured first second few few', ?_⟩
  rintro root source rfl
  obtain ⟨found, success, rfl⟩ := except_map_eq_ok first
  obtain ⟨found', success', rfl⟩ := except_map_eq_ok second
  refine ⟨found.bindings, success, ?_⟩
  rw [success', bindings_eq success success']

/-- `fn y -> x = y + z; x end`, which captures `x` if a frame around it binds `x`. -/
def rebinding : Construct :=
  .expression ⟨"expr/0"⟩ (.closure [.clause [.symbol "y" .empty] (.block [
    .binary "=" (.symbol "x" .empty) (.binary "+" (.symbol "y" .empty) (.symbol "z" .empty)),
    .symbol "x" .empty])])

/-- A frame that binds `x` adds a capture without reads, and nothing else. -/
theorem frames_onlySupply_rebinding :
    ∃ compiled compiled',
      construct ⟨.standard, []⟩ rebinding = .ok compiled ∧
      construct ⟨.standard, [(.function, ["x"])]⟩ rebinding = .ok compiled' ∧
      compiled.closures.map (·.freeNames) = [["z"]] ∧
      compiled'.closures.map (·.freeNames) = [["x", "z"]] ∧ compiled.SameUncaptured compiled' := by
  obtain ⟨compiled, first, captured⟩ : ∃ compiled,
      construct ⟨.standard, []⟩ rebinding = .ok compiled ∧
      compiled.closures.map (·.freeNames) = [["z"]] := ⟨_, rfl, rfl⟩
  obtain ⟨compiled', second, captured'⟩ : ∃ compiled',
      construct ⟨.standard, [(.function, ["x"])]⟩ rebinding = .ok compiled' ∧
      compiled'.closures.map (·.freeNames) = [["x", "z"]] := ⟨_, rfl, rfl⟩
  exact ⟨compiled, compiled', first, second, captured, captured',
    (frames_onlySupply first second (by decide) (by decide)).1⟩

end Compiler

end SyntaxGraph
