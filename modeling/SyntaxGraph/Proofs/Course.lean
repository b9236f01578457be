import Mathlib.Data.List.Forall2
import SyntaxGraph.Build.Session
import SyntaxGraph.Proofs.Links

/-!
# The course of a build

A build changes its session in few ways: it emits a node, reads or binds a name, notes
something, or runs a stretch inside a frame, a log, a count of placeholders or a closure.
`Course limits roots gain s t` says that a stretch leads from session `s` to session `t`
by such changes, that the parts it completes are the subtrees at `roots`, and that `gain`
is what it adds. Statements about every build are proved by induction on courses; that
every builder runs along a course is proved once, elsewhere, for all of them.

A gain also lists the moments at which a name was read or bound again, each with the
session that the use met. Nothing in a session records them; they let later statements
speak about what a look-up answered while the build was still going on.
-/

namespace SyntaxGraph

/-- A use of a name that open closures take notice of. -/
inductive NameUse where
  | read (name : String) (reference : Address) (position : Option Position)
  /-- A match binds the name again; the flag says whether its value reads the name. -/
  | rebind (name : String) (readsSelf : Bool)

namespace NameUse

def name : NameUse → String
  | .read name _ _ => name
  | .rebind name _ => name

/-- The node that reads, if the use is a read. -/
def reference? : NameUse → Option Address
  | .read _ reference _ => some reference
  | .rebind _ _ => none

end NameUse

/-- A use of a name and the session just before it. -/
structure Moment where
  session : Session
  use : NameUse

namespace Moment

def name (m : Moment) : String := m.use.name

def reference? (m : Moment) : Option Address := m.use.reference?

/-- What the look-up of the name answers at this moment. -/
def found (m : Moment) : Option (ScopeId × Binding) := m.session.scopes.lookup m.session.current m.name

/-- Whether the name is defined at a frame or inside of it. -/
def isLocal (m : Moment) (scope : ScopeId) : Bool :=
  match m.session.definingScope? m.name with
  | some defining => m.session.scopes.isWithin defining scope
  | none => false

end Moment

/-- Whether a tracker takes note of a use: the name is not local to the closure, and if a match
binds it, then it is defined outside or captured already. -/
def Tracker.heeds (tracker : Tracker) (m : Moment) : Bool :=
  !m.isLocal tracker.scope && match m.use with
    | .read _ _ _ => true
    | .rebind name _ => (m.session.definingScope? name).isSome || tracker.captures name

def Tracker.note (tracker : Tracker) : NameUse → Tracker
  | .read name reference position => tracker.recordRead name reference position
  | .rebind name readsSelf => tracker.recordRebinding name readsSelf

/-- What a tracker makes of one use of a name. -/
def Tracker.follow (tracker : Tracker) (m : Moment) : Tracker :=
  if tracker.heeds m then tracker.note m.use else tracker

/-- What a tracker makes of all uses of a stretch. -/
def Tracker.followAll (tracker : Tracker) (moments : List Moment) : Tracker :=
  moments.foldl Tracker.follow tracker

/-- What a stretch of a build adds. -/
structure Gain where
  nodes : List Node
  diagnostics : List Diagnostic
  reports : List ClosureReport
  moments : List Moment

namespace Gain

instance : EmptyCollection Gain := ⟨⟨[], [], [], []⟩⟩

instance : Append Gain :=
  ⟨fun g k => ⟨g.nodes ++ k.nodes, g.diagnostics ++ k.diagnostics, g.reports ++ k.reports,
    g.moments ++ k.moments⟩⟩

def ofNode (node : Node) : Gain := ⟨[node], [], [], []⟩

def ofDiagnostic (diagnostic : Diagnostic) : Gain := ⟨[], [diagnostic], [], []⟩

def ofMoments (moments : List Moment) : Gain := ⟨[], [], [], moments⟩

/-- A report, with the nodes of its captures and that of the closure. -/
def ofReport (report : ClosureReport) (node : Node) : Gain :=
  ⟨report.captureNodes ++ [node], [], [report], []⟩

@[simp] theorem empty_nodes : (∅ : Gain).nodes = [] := rfl
@[simp] theorem empty_diagnostics : (∅ : Gain).diagnostics = [] := rfl
@[simp] theorem empty_reports : (∅ : Gain).reports = [] := rfl
@[simp] theorem empty_moments : (∅ : Gain).moments = [] := rfl

@[simp] theorem append_nodes (g k : Gain) : (g ++ k).nodes = g.nodes ++ k.nodes := rfl
@[simp] theorem append_diagnostics (g k : Gain) :
    (g ++ k).diagnostics = g.diagnostics ++ k.diagnostics := rfl
@[simp] theorem append_reports (g k : Gain) : (g ++ k).reports = g.reports ++ k.reports := rfl
@[simp] theorem append_moments (g k : Gain) : (g ++ k).moments = g.moments ++ k.moments := rfl

end Gain

/-- A binding that a pattern among the given nodes introduces. -/
def Binding.Introduced (nodes : List Node) (binding : Binding) : Prop :=
  ∃ node ∈ nodes, binding.node = some node.address ∧ node.kind = .variablePattern ∧
    node.text? "name" = some binding.name

theorem Binding.Introduced.mono {nodes more : List Node} {binding : Binding}
    (introduced : binding.Introduced nodes) (subset : nodes ⊆ more) : binding.Introduced more := by
  obtain ⟨node, member, rest⟩ := introduced
  exact ⟨node, subset member, rest⟩

namespace Session

/-- The moment of a binding, if a match makes it. -/
def bindMoments (s : Session) (reads : Option (OrderedSet String)) (binding : Binding) :
    List Moment :=
  match reads with
  | none => []
  | some reads => [⟨s, .rebind binding.name (reads.contains binding.name)⟩]

/-- The session after a closure has been reported. -/
def close (s : Session) (enclosing : ScopeId) (others : List OpenClosure) (report : ClosureReport) :
    Session :=
  { s with
    closures := others
    current := enclosing
    nodes := s.nodes ++ report.captureNodes
    reports := s.reports.push report }

end Session

/-- A stretch of a build from one session to another. -/
inductive Course (limits : Limits) : List Address → Gain → Session → Session → Prop where
  | done (s) : Course limits [] ∅ s s
  | next {xs ys g k s t u} (first : Course limits xs g s t) (second : Course limits ys k t u)
      (apart : ∀ x ∈ xs, ∀ y ∈ ys, x.Apart y) : Course limits (xs ++ ys) (g ++ k) s u
  /-- A node is emitted after its parts. -/
  | node {slots node g s t} (parts : Course limits (slots.map node.address.at) g s t)
      (holds : node.Holds slots) :
      Course limits [node.address] (g ++ .ofNode node) s (t.emit node)
  /-- A variable is read where its node stands. -/
  | symbol {name position node s} (leaf : node.Holds []) (kind : node.kind = .variable)
      (named : node.text? "name" = some name) :
      Course limits [node.address]
        (.ofMoments [⟨s, .read name node.address position⟩] ++ .ofNode node) s
        ((s.readSymbol name node.address position).emit node)
  /-- The size of a segment is read once the segment stands, and only once. -/
  | size {xs g s t name site position} (parts : Course limits xs g s t) (member : site ∈ xs)
      (fresh : ∀ m ∈ g.moments, m.reference? ≠ some site) :
      Course limits xs (g ++ .ofMoments [⟨t, .read name site position⟩]) s
        (t.readSymbol name site position)
  | bind {s reads binding} (introduced : binding.Introduced s.nodes.toList) :
      Course limits [] (.ofMoments (s.bindMoments reads binding)) s (s.bindSymbol reads binding)
  | diagnose (s diagnostic) :
      Course limits [] (.ofDiagnostic diagnostic) s (s.diagnose diagnostic)
  | bound (s names) : Course limits [] ∅ s (s.boundByClosure names)
  | placeholder {s greatest rest} (index) (seen : s.placeholders = greatest :: rest) :
      Course limits [] ∅ s { s with placeholders := max greatest index :: rest }
  | framed {xs g s kind t} (inner : Course limits xs g (s.enter kind) t) :
      Course limits xs g s { t with current := s.current }
  | logged {xs g s t} (inner : Course limits xs g { s with readLogs := ∅ :: s.readLogs } t) :
      Course limits xs g s { t with readLogs := t.readLogs.tail }
  | counted {xs g s t} (inner : Course limits xs g { s with placeholders := 0 :: s.placeholders } t) :
      Course limits xs g s { t with placeholders := t.placeholders.tail }
  /-- A closure is followed while its parts are built, and then reported. -/
  | closure {slots node g s t opened others report}
      (inner : Course limits (slots.map node.address.at) g (s.openClosure node.address) t)
      (top : t.closures = opened :: others)
      (reported : opened.tracker.report t.scopes opened.enclosing limits = .ok report)
      (holds : node.Holds (slots ++ Slot.numbered .captures 0 report.captures.length)) :
      Course limits [node.address] (g ++ .ofReport report node) s
        ((t.close opened.enclosing others report).emit node)

/-! ## Open closures follow every moment -/

namespace Tracker

variable {tracker : Tracker} {m : Moment} {moments : List Moment}

@[simp] theorem follow_closure : (tracker.follow m).closure = tracker.closure := by
  unfold follow note
  split
  · split <;> rfl
  · rfl

@[simp] theorem follow_scope : (tracker.follow m).scope = tracker.scope := by
  unfold follow note
  split
  · split <;> rfl
  · rfl

@[simp] theorem follow_bound : (tracker.follow m).bound = tracker.bound := by
  unfold follow note
  split
  · split <;> rfl
  · rfl

/-- Names bound by parameters play no part in what is noted. -/
theorem follow_withBound (bound : OrderedSet String) :
    ({ tracker with bound := bound } : Tracker).follow m =
      { tracker.follow m with bound := bound } := by
  unfold follow
  rw [show ({ tracker with bound := bound } : Tracker).heeds m = tracker.heeds m from rfl]
  split
  · cases m.use <;> rfl
  · rfl

@[simp] theorem followAll_nil : tracker.followAll [] = tracker := rfl

@[simp] theorem followAll_append (more : List Moment) :
    tracker.followAll (moments ++ more) = (tracker.followAll moments).followAll more :=
  List.foldl_append

@[simp] theorem followAll_closure : (tracker.followAll moments).closure = tracker.closure := by
  induction moments generalizing tracker with
  | nil => rfl
  | cons m moments ih => exact ih.trans follow_closure

@[simp] theorem followAll_scope : (tracker.followAll moments).scope = tracker.scope := by
  induction moments generalizing tracker with
  | nil => rfl
  | cons m moments ih => exact ih.trans follow_scope

@[simp] theorem followAll_bound : (tracker.followAll moments).bound = tracker.bound := by
  induction moments generalizing tracker with
  | nil => rfl
  | cons m moments ih => exact ih.trans follow_bound

theorem followAll_withBound (bound : OrderedSet String) :
    ({ tracker with bound := bound } : Tracker).followAll moments =
      { tracker.followAll moments with bound := bound } := by
  induction moments generalizing tracker with
  | nil => rfl
  | cons m moments ih => exact (congrArg (followAll · moments) (follow_withBound bound)).trans ih

end Tracker

namespace OpenClosure

/-- The same closure after a stretch: its tracker has noted all uses, and parameters may have
bound further names. -/
def Follows (moments : List Moment) (before after : OpenClosure) : Prop :=
  after.enclosing = before.enclosing ∧
    ∃ bound, after.tracker = { before.tracker.followAll moments with bound := bound }

variable {a b c : OpenClosure} {moments more : List Moment}

theorem Follows.refl (c : OpenClosure) : Follows [] c c := ⟨rfl, c.tracker.bound, rfl⟩

theorem Follows.single {m : Moment} (same : b = { a with tracker := a.tracker.follow m }) :
    Follows [m] a b := by
  subst same
  exact ⟨rfl, (a.tracker.follow m).bound, rfl⟩

theorem Follows.trans (first : Follows moments a b) (second : Follows more b c) :
    Follows (moments ++ more) a c := by
  obtain ⟨enclosing, bound, tracker⟩ := first
  obtain ⟨enclosing', bound', tracker'⟩ := second
  refine ⟨enclosing'.trans enclosing, bound', ?_⟩
  rw [tracker', tracker, Tracker.followAll_withBound, Tracker.followAll_append]

namespace Follows

theorem closure (follows : Follows moments a b) : b.tracker.closure = a.tracker.closure := by
  obtain ⟨-, bound, tracker⟩ := follows
  rw [tracker]
  exact Tracker.followAll_closure

theorem scope (follows : Follows moments a b) : b.tracker.scope = a.tracker.scope := by
  obtain ⟨-, bound, tracker⟩ := follows
  rw [tracker]
  exact Tracker.followAll_scope

theorem free (follows : Follows moments a b) :
    b.tracker.free = (a.tracker.followAll moments).free := by
  obtain ⟨-, bound, tracker⟩ := follows
  rw [tracker]

theorem use (follows : Follows moments a b) (name : String) :
    b.tracker.use name = (a.tracker.followAll moments).use name := by
  unfold Tracker.use
  rw [follows.free]

theorem captures (follows : Follows moments a b) (name : String) :
    b.tracker.captures name = (a.tracker.followAll moments).captures name := by
  unfold Tracker.captures
  rw [follows.free]

end Follows

end OpenClosure

theorem forall₂_follows_refl (closures : List OpenClosure) :
    List.Forall₂ (OpenClosure.Follows []) closures closures :=
  List.forall₂_same.mpr fun c _ => .refl c

theorem forall₂_follows_trans {moments more : List Moment} {as bs cs : List OpenClosure}
    (first : List.Forall₂ (OpenClosure.Follows moments) as bs)
    (second : List.Forall₂ (OpenClosure.Follows more) bs cs) :
    List.Forall₂ (OpenClosure.Follows (moments ++ more)) as cs := by
  induction first generalizing cs with
  | nil =>
      cases second
      exact .nil
  | cons head _ ih =>
      cases second with
      | cons head' tail' => exact .cons (head.trans head') (ih tail')

namespace Session

variable {s : Session}

/-- A read is offered to every open closure. -/
theorem readSymbol_closures (s : Session) (name : String) (reference : Address)
    (position : Option Position) :
    (s.readSymbol name reference position).closures = s.closures.map fun c =>
      { c with tracker := c.tracker.follow ⟨s, .read name reference position⟩ } := by
  refine List.map_congr_left fun c _ => ?_
  simp only [Tracker.follow, Tracker.heeds, Tracker.note, Moment.isLocal, Moment.name, NameUse.name,
    Bool.and_true]
  rcases Option.eq_none_or_eq_some (s.definingScope? name) with found | ⟨defining, found⟩
  · simp [found]
  · cases within : s.scopes.isWithin defining c.tracker.scope <;> simp [found, within]

/-- So is every binding that a match makes, and no other. -/
theorem bindSymbol_closures (s : Session) (reads : Option (OrderedSet String)) (binding : Binding) :
    (s.bindSymbol reads binding).closures = s.closures.map fun c =>
      { c with tracker := c.tracker.followAll (s.bindMoments reads binding) } := by
  refine List.map_congr_left fun c _ => ?_
  cases reads with
  | none => rfl
  | some reads =>
      simp only [bindMoments, Tracker.followAll, List.foldl_cons, List.foldl_nil, Tracker.follow,
        Tracker.heeds, Tracker.note, Moment.isLocal, Moment.name, NameUse.name]
      rcases Option.eq_none_or_eq_some (s.definingScope? binding.name) with
        found | ⟨defining, found⟩
      · by_cases captured : c.tracker.captures binding.name = true <;> simp [found, captured]
      · cases within : s.scopes.isWithin defining c.tracker.scope <;> simp [found, within]

theorem readSymbol_follows (s : Session) (name : String) (reference : Address)
    (position : Option Position) :
    List.Forall₂ (OpenClosure.Follows [⟨s, .read name reference position⟩]) s.closures
      (s.readSymbol name reference position).closures := by
  rw [readSymbol_closures]
  exact List.forall₂_map_right_iff.mpr (List.forall₂_same.mpr fun c _ => .single rfl)

theorem bindSymbol_follows (s : Session) (reads : Option (OrderedSet String)) (binding : Binding) :
    List.Forall₂ (OpenClosure.Follows (s.bindMoments reads binding)) s.closures
      (s.bindSymbol reads binding).closures := by
  rw [bindSymbol_closures]
  exact List.forall₂_map_right_iff.mpr (List.forall₂_same.mpr fun c _ => ⟨rfl, _, rfl⟩)

theorem boundByClosure_follows (s : Session) (names : List String) :
    List.Forall₂ (OpenClosure.Follows []) s.closures (s.boundByClosure names).closures := by
  unfold boundByClosure
  split
  · rename_i none
    exact forall₂_follows_refl _
  · rename_i c rest top
    rw [top]
    exact .cons ⟨rfl, _, rfl⟩ (forall₂_follows_refl rest)

@[simp] theorem emit_nodes (s : Session) (node : Node) :
    (s.emit node).nodes.toList = s.nodes.toList ++ [node] := by
  simp [emit]

@[simp] theorem close_nodes (s : Session) (enclosing : ScopeId) (others : List OpenClosure)
    (report : ClosureReport) :
    (s.close enclosing others report).nodes.toList = s.nodes.toList ++ report.captureNodes := by
  simp [close]

@[simp] theorem boundByClosure_current (s : Session) (names : List String) :
    (s.boundByClosure names).current = s.current := by
  unfold boundByClosure
  split <;> rfl

@[simp] theorem boundByClosure_scopes (s : Session) (names : List String) :
    (s.boundByClosure names).scopes = s.scopes := by
  unfold boundByClosure
  split <;> rfl

@[simp] theorem boundByClosure_nodes (s : Session) (names : List String) :
    (s.boundByClosure names).nodes = s.nodes := by
  unfold boundByClosure
  split <;> rfl

@[simp] theorem boundByClosure_reports (s : Session) (names : List String) :
    (s.boundByClosure names).reports = s.reports := by
  unfold boundByClosure
  split <;> rfl

end Session

namespace Course

variable {limits : Limits} {roots : List Address} {gain : Gain} {s t : Session}

/-- After a stretch the same closures are open, and each has noted all that happened. -/
theorem follows (course : Course limits roots gain s t) :
    List.Forall₂ (OpenClosure.Follows gain.moments) s.closures t.closures := by
  induction course with
  | done s => exact forall₂_follows_refl _
  | next _ _ _ first second => exact forall₂_follows_trans first second
  | node _ _ ih =>
      rw [Gain.append_moments, show (Gain.ofNode _).moments = [] from rfl, List.append_nil]
      exact ih
  | symbol _ _ _ => exact Session.readSymbol_follows _ _ _ _
  | size _ _ _ ih => exact forall₂_follows_trans ih (Session.readSymbol_follows _ _ _ _)
  | bind _ => exact Session.bindSymbol_follows _ _ _
  | diagnose s diagnostic => exact forall₂_follows_refl _
  | bound s names => exact Session.boundByClosure_follows s names
  | placeholder _ _ => exact forall₂_follows_refl _
  | framed _ ih => exact ih
  | logged _ ih => exact ih
  | counted _ ih => exact ih
  | closure _ top _ _ ih =>
      rw [top] at ih
      cases ih with
      | cons _ others =>
          rw [Gain.append_moments, show (Gain.ofReport _ _).moments = [] from rfl, List.append_nil]
          exact others

/-- What was opened before a stretch has followed it at its end. -/
theorem opened_follows {site : Address} {opened : OpenClosure} {others : List OpenClosure}
    (course : Course limits roots gain (s.openClosure site) t) (top : t.closures = opened :: others) :
    OpenClosure.Follows gain.moments ⟨.start site s.scopes.next, s.current⟩ opened := by
  have follows := course.follows
  rw [top] at follows
  cases follows with
  | cons head _ => exact head

/-- A stretch closes the logs it opens, and no others. -/
theorem readLogs_length (course : Course limits roots gain s t) :
    t.readLogs.length = s.readLogs.length := by
  induction course with
  | next _ _ _ first second => exact second.trans first
  | node _ _ ih => exact ih
  | symbol _ _ _ => exact List.length_map _
  | size _ _ _ ih => exact (List.length_map _).trans ih
  | bound s names =>
      unfold Session.boundByClosure
      split <;> rfl
  | framed _ ih => exact ih
  | logged _ ih => simp [ih]
  | counted _ ih => exact ih
  | closure _ _ _ _ ih => exact ih
  | _ => rfl

theorem placeholders_length (course : Course limits roots gain s t) :
    t.placeholders.length = s.placeholders.length := by
  induction course with
  | next _ _ _ first second => exact second.trans first
  | node _ _ ih => exact ih
  | size _ _ _ ih => exact ih
  | bound s names =>
      unfold Session.boundByClosure
      split <;> rfl
  | placeholder _ seen => simp [seen]
  | framed _ ih => exact ih
  | logged _ ih => exact ih
  | counted _ ih => simp [ih]
  | closure _ _ _ _ ih => exact ih
  | _ => rfl

/-- A stretch reads nowhere but inside of the subtrees it builds. -/
theorem reference_isWithin (course : Course limits roots gain s t) {m : Moment}
    (member : m ∈ gain.moments) {site : Address} (reads : m.reference? = some site) :
    ∃ root ∈ roots, site.isWithin root = true := by
  induction course with
  | next _ _ _ first second =>
      rcases List.mem_append.mp member with earlier | later
      · obtain ⟨root, hroot, within⟩ := first earlier
        exact ⟨root, List.mem_append_left _ hroot, within⟩
      · obtain ⟨root, hroot, within⟩ := second later
        exact ⟨root, List.mem_append_right _ hroot, within⟩
  | node _ _ ih =>
      rw [Gain.append_moments, show (Gain.ofNode _).moments = [] from rfl, List.append_nil] at member
      obtain ⟨root, hroot, within⟩ := ih member
      obtain ⟨slot, -, rfl⟩ := List.mem_map.mp hroot
      exact ⟨_, List.mem_singleton_self _, Address.isWithin_trans within (Address.at_isWithin _ slot)⟩
  | symbol _ _ _ =>
      obtain rfl := List.mem_singleton.mp member
      obtain rfl := Option.some.inj reads
      exact ⟨_, List.mem_singleton_self _, Address.isWithin_self _⟩
  | size _ present _ ih =>
      rcases List.mem_append.mp member with earlier | last
      · exact ih earlier
      · obtain rfl := List.mem_singleton.mp last
        obtain rfl := Option.some.inj reads
        exact ⟨_, present, Address.isWithin_self _⟩
  | bind introduced =>
      rename_i s bound binding
      cases bound with
      | none => exact (nomatch member)
      | some names =>
          obtain rfl := List.mem_singleton.mp member
          exact (nomatch reads)
  | framed _ ih => exact ih member
  | logged _ ih => exact ih member
  | counted _ ih => exact ih member
  | closure _ _ _ _ ih =>
      rw [Gain.append_moments, show (Gain.ofReport _ _).moments = [] from rfl,
        List.append_nil] at member
      obtain ⟨root, hroot, within⟩ := ih member
      obtain ⟨slot, -, rfl⟩ := List.mem_map.mp hroot
      exact ⟨_, List.mem_singleton_self _, Address.isWithin_trans within (Address.at_isWithin _ slot)⟩
  | _ => exact (nomatch member)

/-- The nodes of a stretch come after those that were there. -/
theorem nodes_eq (course : Course limits roots gain s t) :
    t.nodes.toList = s.nodes.toList ++ gain.nodes := by
  induction course with
  | next _ _ _ first second => simp [second, first]
  | node _ _ ih => simp [Session.emit, Gain.ofNode, ih]
  | symbol _ _ _ => simp [Session.emit, Session.readSymbol, Gain.ofNode, Gain.ofMoments]
  | size _ _ _ ih => simpa [Session.readSymbol, Gain.ofMoments] using ih
  | bound s names => simp
  | logged _ ih => exact ih
  | counted _ ih => exact ih
  | framed _ ih => exact ih
  | closure _ _ _ _ ih => 
     simp [Session.emit, Session.close, Gain.ofReport, ih, Session.openClosure, Session.enter]
  | _ => simp [Session.bindSymbol, Session.diagnose, Gain.ofMoments, Gain.ofDiagnostic]

end Course

end SyntaxGraph
