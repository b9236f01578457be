import SyntaxGraph.Proofs.Consistency
import SyntaxGraph.Proofs.Correspondence
import SyntaxGraph.Proofs.Twins

/-!
# Branches do not affect each other

Two constructs that differ in what one branch holds are compiled to the same nodes, but for those
in the branch, those around it and the captures of the closures around it. A branch is built in a
frame of its own, so nothing it binds is seen after it, and what it reads is noted only for what
it lies in.

The two builds run side by side. Once the branch is behind them they have opened different numbers
of frames, but the frames they are in bind the same; logs, counts and closures that do not lie
around the branch hold the same; and so do the nodes, as far as the branch cannot touch them.
-/

namespace SyntaxGraph

/-- Constructs at one root that differ only in what one branch holds: a clause, or the value of one
side of a conditional. Trees that correspond are read as the same shape, with the same names, words
and positions, and their parts correspond again, each at its own address. In place of the branch
there may be anything. -/
def Construct.DifferAt (branch : Address) (k k' : Construct) : Prop :=
  ∃ expression pattern : Address → Source → Source → Prop,
    (Likeness.mk expression pattern Eq (· = branch)).Closed ∧
      (Likeness.mk expression pattern Eq (· = branch)).Construct k k'

/-- The nodes that what a branch holds may change: those in it, those around it, and the captures
of the closures around it. -/
def Node.Touched (branch : Address) (n : Node) : Prop :=
  n.address.isWithin branch = true ∨ branch.isWithin n.address = true ∨
    n.kind = .capturedVariable ∧ ∃ closure index,
      n.address = closure.indexed Role.captures.label index ∧ branch.isWithin closure = true

/-- Values that are the same, or belong to a place around the branch. -/
def AlikeAround {α : Type} (branch site : Address) (a a' : α) : Prop :=
  a = a' ∨ branch.isWithin site = true

/-! ## Nodes that a branch does not touch -/

/-- Lists that hold the same nodes, as far as the branch cannot touch them. -/
def SameElsewhere (branch : Address) (nodes nodes' : List Node) : Prop :=
  ∀ n, ¬ n.Touched branch → (n ∈ nodes ↔ n ∈ nodes')

namespace SameElsewhere

variable {branch : Address} {xs xs' ys ys' : List Node}

theorem refl (xs : List Node) : SameElsewhere branch xs xs := fun _ _ => Iff.rfl

theorem append (first : SameElsewhere branch xs xs') (second : SameElsewhere branch ys ys') :
    SameElsewhere branch (xs ++ ys) (xs' ++ ys') := by
  intro n away
  rw [List.mem_append, List.mem_append, first n away, second n away]

theorem ofTouched (first : ∀ n ∈ xs, n.Touched branch) (second : ∀ n ∈ xs', n.Touched branch) :
    SameElsewhere branch xs xs' :=
  fun n away => ⟨fun member => absurd (first n member) away, fun member => absurd (second n member) away⟩

/-- Two nodes at one address that are the same or lie around the branch. -/
theorem single {n n' : Node} (same : n.address = n'.address)
    (alike : AlikeAround branch n.address n n') : SameElsewhere branch [n] [n'] := by
  cases alike with
  | inl equal =>
      subst equal
      exact refl _
  | inr around =>
      refine ofTouched (fun m member => ?_) fun m member => ?_
      · rw [List.mem_singleton.mp member]
        exact .inr (.inl around)
      · rw [List.mem_singleton.mp member]
        exact .inr (.inl (same ▸ around))

end SameElsewhere

/-- The captures of a closure around the branch are touched by it. -/
theorem ClosureReport.captureNodes_touched {branch : Address} {report : ClosureReport}
    (around : branch.isWithin report.closure = true) {n : Node} (member : n ∈ report.captureNodes) :
    n.Touched branch := by
  obtain ⟨index, capture, -, rfl⟩ := mem_captureNodes member
  exact .inr (.inr ⟨captureNode_kind _ _ _, report.closure, index, captureNode_address _ _ _, around⟩)

/-! ## What surrounds a step -/

/-- An open closure: where it stands, and the numbers of its frame and of the frame around it in
both runs. -/
structure Held where
  site : Address
  frame : ScopeId × ScopeId
  enclosing : ScopeId × ScopeId

/-- The open frames, closures, logs and counts around a step, innermost first. Frames are given by
their numbers in both runs, logs and counts by the place they were opened for. -/
structure Surroundings where
  frames : List (ScopeId × ScopeId)
  closures : List Held
  logs : List Address
  counts : List Address
  /-- The frames of open closures are open. -/
  held : ∀ c ∈ closures, c.frame ∈ frames

namespace Surroundings

def sites (stack : Surroundings) : List Address :=
  stack.closures.map (·.site) ++ (stack.logs ++ stack.counts)

/-- All that is open was opened for something around an address. -/
def Around (stack : Surroundings) (site : Address) : Prop :=
  ∀ outer ∈ stack.sites, site.isWithin outer = true

variable {stack : Surroundings} {site branch : Address}

theorem Around.mono (around : stack.Around site) (within : branch.isWithin site = true) :
    stack.Around branch := fun outer member => Address.isWithin_trans within (around outer member)

theorem Around.closure (around : stack.Around site) {c : Held} (member : c ∈ stack.closures) :
    site.isWithin c.site = true :=
  around _ (List.mem_append_left _ (List.mem_map.mpr ⟨c, member, rfl⟩))

theorem Around.log (around : stack.Around site) {outer : Address} (member : outer ∈ stack.logs) :
    site.isWithin outer = true :=
  around _ (List.mem_append_right _ (List.mem_append_left _ member))

theorem Around.count (around : stack.Around site) {outer : Address} (member : outer ∈ stack.counts) :
    site.isWithin outer = true :=
  around _ (List.mem_append_right _ (List.mem_append_right _ member))

def enter (stack : Surroundings) (frame : ScopeId × ScopeId) : Surroundings :=
  { stack with
    frames := frame :: stack.frames
    held := fun c member => List.mem_cons_of_mem _ (stack.held c member) }

def openClosure (stack : Surroundings) (c : Held) : Surroundings :=
  { stack with
    frames := c.frame :: stack.frames
    closures := c :: stack.closures
    held := by
      intro other member
      cases List.mem_cons.mp member with
      | inl same => exact same ▸ List.mem_cons_self
      | inr before => exact List.mem_cons_of_mem _ (stack.held other before) }

def log (stack : Surroundings) (site : Address) : Surroundings :=
  { stack with logs := site :: stack.logs }

def count (stack : Surroundings) (site : Address) : Surroundings :=
  { stack with counts := site :: stack.counts }

theorem Around.openClosure (around : stack.Around site) (frame enclosing : ScopeId × ScopeId) :
    (stack.openClosure ⟨site, frame, enclosing⟩).Around site :=
  List.forall_mem_cons.mpr ⟨site.isWithin_self, around⟩

theorem Around.insideLog (around : stack.Around site) : (stack.log site).Around site := by
  simp only [Around, sites, List.forall_mem_append] at around ⊢
  exact ⟨around.1, List.forall_mem_cons.mpr ⟨site.isWithin_self, around.2.1⟩, around.2.2⟩

theorem Around.insideCount (around : stack.Around site) : (stack.count site).Around site := by
  simp only [Around, sites, List.forall_mem_append] at around ⊢
  exact ⟨around.1, around.2.1, List.forall_mem_cons.mpr ⟨site.isWithin_self, around.2.2⟩⟩

end Surroundings

/-! ## Sessions that belong together -/

/-- What two runs have of an open closure that neither of them changes. -/
structure Held.Describes (held : Held) (c c' : OpenClosure) : Prop where
  site : c.tracker.closure = held.site
  site' : c'.tracker.closure = held.site
  frame : (c.tracker.scope, c'.tracker.scope) = held.frame
  enclosing : (c.enclosing, c'.enclosing) = held.enclosing

theorem Held.Describes.follows {held : Held} {c c' d d' : OpenClosure} {moments moments' : List Moment}
    (describes : held.Describes c c') (first : c.Follows moments d) (second : c'.Follows moments' d') :
    held.Describes d d' where
  site := first.closure.trans describes.site
  site' := second.closure.trans describes.site'
  frame := by
    rw [first.scope, second.scope]
    exact describes.frame
  enclosing := by
    rw [first.1, second.1]
    exact describes.enclosing

/-- What two sessions have in common whatever their frames are: the same things are open in both,
and logs and counts that do not lie around the branch hold the same. -/
structure Outline (branch : Address) (stack : Surroundings) (s s' : Session) : Prop where
  current : stack.frames.head? = some (s.current, s'.current)
  closures : Along Held.Describes stack.closures s.closures s'.closures
  logs : Along (AlikeAround branch) stack.logs s.readLogs s'.readLogs
  counts : Along (AlikeAround branch) stack.counts s.placeholders s'.placeholders

/-- What they have in common as long as frames can be told apart: the open frames bind the same,
closures that do not lie around the branch have the same notes, and the nodes that the branch
does not touch are the same. -/
structure Aligned (branch : Address) (stack : Surroundings) (s s' : Session) : Prop where
  nested : s.scopes.Nested
  nested' : s'.scopes.Nested
  twins : Scopes.Twins stack.frames s.scopes s'.scopes s.current s'.current
  notes : Along (fun held c c' => AlikeAround branch held.site c.tracker.free c'.tracker.free)
    stack.closures s.closures s'.closures
  nodes : SameElsewhere branch s.nodes.toList s'.nodes.toList

/-- Sessions of two builds that differ in what one branch holds. -/
structure Together (branch : Address) (stack : Surroundings) (s s' : Session) : Prop where
  outline : Outline branch stack s s'
  aligned : s.scopes.size ≤ 2 ^ 32 → s'.scopes.size ≤ 2 ^ 32 → Aligned branch stack s s'

/-! ## Notes on a use of a name -/

/-- Trackers with the same notes that answer alike make the same of a use. -/
theorem Tracker.follow_free {t t' : Tracker} {m m' : Moment} (same : t.free = t'.free)
    (use : m.use = m'.use) (here : m.isLocal t.scope = m'.isLocal t'.scope)
    (known : (m.session.definingScope? m.name).isSome = (m'.session.definingScope? m'.name).isSome) :
    (t.follow m).free = (t'.follow m').free := by
  obtain ⟨s, use₁⟩ := m
  obtain ⟨s', use₂⟩ := m'
  obtain rfl : use₁ = use₂ := use
  have heeds : t.heeds ⟨s, use₁⟩ = t'.heeds ⟨s', use₁⟩ := by
    unfold heeds captures
    rw [here, same]
    cases use₁ with
    | read name reference position => rfl
    | rebind name readsSelf =>
        dsimp only
        rw [show (s.definingScope? name).isSome = (s'.definingScope? name).isSome from known]
  unfold follow
  rw [heeds]
  split
  · cases use₁ with
    | read name reference position => simp only [note, recordRead, Tracker.use, same]
    | rebind name readsSelf => simp only [note, recordRebinding, Tracker.use, same]
  · exact same

namespace Aligned

variable {branch : Address} {stack : Surroundings} {s s' u u' : Session}

theorem standing (aligned : Aligned branch stack s s') (outline : Outline branch stack s s') :
    s.current.index < s.scopes.size ∧ s'.current.index < s'.scopes.size := by
  have twins := aligned.twins
  obtain ⟨frames, top⟩ := List.head?_eq_some_iff.mp outline.current
  rw [top] at twins
  exact twins.standing

/-- A name is found in both sessions or in neither. -/
theorem known_eq (aligned : Aligned branch stack s s') (outline : Outline branch stack s s')
    (name : String) : (s.definingScope? name).isSome = (s'.definingScope? name).isSome := by
  obtain ⟨standing, standing'⟩ := aligned.standing outline
  obtain ⟨path, path', walk, walk', along⟩ := aligned.twins
  unfold Session.definingScope?
  rw [Option.isSome_map, Option.isSome_map, walk.lookup aligned.nested standing,
    walk'.lookup aligned.nested' standing']
  exact Scopes.FrameAlike.lookupAlong (Scopes.FrameTwins.alike along)

/-- A name is local to an open closure in both sessions or in neither. -/
theorem isLocal_eq (aligned : Aligned branch stack s s') (outline : Outline branch stack s s')
    {held : Held} (member : held ∈ stack.closures) {c c' : OpenClosure}
    (describes : held.Describes c c') (use : NameUse) :
    (Moment.mk s use).isLocal c.tracker.scope = (Moment.mk s' use).isLocal c'.tracker.scope := by
  obtain ⟨standing, standing'⟩ := aligned.standing outline
  have open' : (c.tracker.scope, c'.tracker.scope) ∈ stack.frames := by
    rw [describes.frame]
    exact stack.held held member
  have paired := aligned.twins.paired aligned.nested aligned.nested' standing standing' open'
  obtain ⟨path, path', walk, walk', along⟩ := aligned.twins
  have first := walk.answersWithin aligned.nested standing use.name c.tracker.scope
  have second := walk'.answersWithin aligned.nested' standing' use.name c'.tracker.scope
  exact first.trans
    ((Scopes.FrameAlike.answersWithin (Scopes.FrameTwins.alike along) paired).trans second.symm)

/-- Closures take the same note of a use, unless they lie around the branch. -/
theorem note (aligned : Aligned branch stack s s') (outline : Outline branch stack s s')
    {use use' : NameUse} (same : use = use' ∨ stack.Around branch)
    (first : List.Forall₂ (OpenClosure.Follows [⟨s, use⟩]) s.closures u.closures)
    (second : List.Forall₂ (OpenClosure.Follows [⟨s', use'⟩]) s'.closures u'.closures) :
    Along (fun held c c' => AlikeAround branch held.site c.tracker.free c'.tracker.free)
      stack.closures u.closures u'.closures := by
  refine (outline.closures.and aligned.notes).step first second ?_
  rintro held member c c' d d' ⟨describes, alike⟩ follows follows'
  cases same with
  | inr around => exact .inr (around.closure member)
  | inl same =>
      subst same
      refine alike.imp (fun free => ?_) id
      rw [follows.free, follows'.free]
      exact Tracker.follow_free free rfl (aligned.isLocal_eq outline member describes use)
        (aligned.known_eq outline use.name)

/-- Closures that have nothing to note keep their notes. -/
theorem unnoted (aligned : Aligned branch stack s s')
    (first : List.Forall₂ (OpenClosure.Follows []) s.closures u.closures)
    (second : List.Forall₂ (OpenClosure.Follows []) s'.closures u'.closures) :
    Along (fun held c c' => AlikeAround branch held.site c.tracker.free c'.tracker.free)
      stack.closures u.closures u'.closures := by
  refine aligned.notes.step first second ?_
  intro held _ c c' d d' alike follows follows'
  rw [follows.free, follows'.free]
  exact alike

end Aligned

theorem Outline.follow {branch : Address} {stack : Surroundings} {s s' u u' : Session}
    {moments moments' : List Moment} (outline : Outline branch stack s s')
    (first : List.Forall₂ (OpenClosure.Follows moments) s.closures u.closures)
    (second : List.Forall₂ (OpenClosure.Follows moments') s'.closures u'.closures) :
    Along Held.Describes stack.closures u.closures u'.closures :=
  outline.closures.step first second fun _ _ _ _ _ _ describes follows follows' =>
    describes.follows follows follows'

/-! ## Parts in frames of their own -/

namespace BuiltInFrame

variable {limits : Limits} {site : Address} {s t : Session}

theorem current_eq (built : BuiltInFrame limits site s t) : t.current = s.current := by
  obtain ⟨kind, u, -, rfl⟩ := built
  rfl

/-- At least the frame of the part is new. -/
theorem size_lt (built : BuiltInFrame limits site s t) : s.scopes.size < t.scopes.size := by
  obtain ⟨kind, u, inner, rfl⟩ := built
  obtain ⟨gain, course⟩ := inner.course
  have grown := course.size_le
  rw [show (s.enter kind).scopes.size = s.scopes.size + 1 from Scopes.size_add] at grown
  exact grown

/-- The frames from before are left as they were, the new ones are out of sight. -/
theorem agrees (built : BuiltInFrame limits site s t) (placed : s.Placed)
    (small : t.scopes.size ≤ 2 ^ 32) :
    t.scopes.Nested ∧ Scopes.AgreesBelow s.scopes.size s.scopes t.scopes := by
  have grown := built.size_lt
  obtain ⟨kind, u, inner, rfl⟩ := built
  obtain ⟨gain, course⟩ := inner.course
  replace small : u.scopes.size ≤ 2 ^ 32 := small
  replace grown : s.scopes.size < u.scopes.size := grown
  have onward := (course.onward (Session.Onward.enter placed (by omega) kind).placed small).1
  exact ⟨onward.placed.nested, fun scope old => (onward.agrees_of_enter (by omega) scope old).symm⟩

end BuiltInFrame

/-! ## Steps keep sessions together -/

namespace Together

variable {branch site : Address} {stack : Surroundings} {s s' t t' : Session}

theorem emit (together : Together branch stack s s') {n n' : Node} (same : n.address = n'.address)
    (alike : s.scopes.size ≤ 2 ^ 32 → s'.scopes.size ≤ 2 ^ 32 → AlikeAround branch n.address n n') :
    Together branch stack (s.emit n) (s'.emit n') := by
  obtain ⟨outline, aligned⟩ := together
  refine ⟨⟨outline.current, outline.closures, outline.logs, outline.counts⟩, fun small small' => ?_⟩
  obtain ⟨nested, nested', twins, notes, nodes⟩ := aligned small small'
  refine ⟨nested, nested', twins, notes, ?_⟩
  rw [Session.emit_nodes, Session.emit_nodes]
  exact nodes.append (.single same (alike small small'))

theorem readSymbol (together : Together branch stack s s') (name : String) (reference : Address)
    (position : Option Position) :
    Together branch stack (s.readSymbol name reference position)
      (s'.readSymbol name reference position) := by
  obtain ⟨outline, aligned⟩ := together
  have follows := s.readSymbol_follows name reference position
  have follows' := s'.readSymbol_follows name reference position
  refine ⟨⟨outline.current, outline.follow follows follows', ?_, outline.counts⟩, fun small small' => ?_⟩
  · exact outline.logs.map fun _ _ _ _ alike => alike.imp (congrArg (OrderedSet.add · name)) id
  · have before := aligned small small'
    exact ⟨before.nested, before.nested', before.twins, before.note outline (.inl rfl) follows follows',
      before.nodes⟩

/-- A name is bound in both runs; the value that is matched may hold the branch. -/
theorem bindSymbol (together : Together branch stack s s') (around : stack.Around site)
    {reads reads' : Option (OrderedSet String)}
    (alike : Option.Rel (AlikeAround branch site) reads reads') (binding : Binding) :
    Together branch stack (s.bindSymbol reads binding) (s'.bindSymbol reads' binding) := by
  obtain ⟨outline, aligned⟩ := together
  have follows := s.bindSymbol_follows reads binding
  have follows' := s'.bindSymbol_follows reads' binding
  refine ⟨⟨outline.current, outline.follow follows follows', outline.logs, outline.counts⟩,
    fun small small' => ?_⟩
  replace small : (s.scopes.bind s.current binding).size ≤ 2 ^ 32 := small
  replace small' : (s'.scopes.bind s'.current binding).size ≤ 2 ^ 32 := small'
  rw [Scopes.size_bind] at small small'
  have before := aligned small small'
  refine ⟨before.nested.bind, before.nested'.bind, ?_, ?_, before.nodes⟩
  · have twins := before.twins
    obtain ⟨frames, top⟩ := List.head?_eq_some_iff.mp outline.current
    rw [top] at twins ⊢
    exact twins.bind before.nested before.nested' binding
  · cases alike with
    | none => exact before.unnoted follows follows'
    | @some reads reads' alike =>
        refine before.note outline ?_ follows follows'
        exact alike.imp (fun same => by rw [same]) around.mono

theorem boundByClosure (together : Together branch stack s s') (names : List String) :
    Together branch stack (s.boundByClosure names) (s'.boundByClosure names) := by
  obtain ⟨outline, aligned⟩ := together
  have follows := s.boundByClosure_follows names
  have follows' := s'.boundByClosure_follows names
  have logs : ∀ s : Session, (s.boundByClosure names).readLogs = s.readLogs ∧
      (s.boundByClosure names).placeholders = s.placeholders := by
    intro s
    unfold Session.boundByClosure
    split <;> exact ⟨rfl, rfl⟩
  refine ⟨⟨?_, outline.follow follows follows', ?_, ?_⟩, fun small small' => ?_⟩
  · rw [Session.boundByClosure_current, Session.boundByClosure_current]
    exact outline.current
  · rw [(logs s).1, (logs s').1]
    exact outline.logs
  · rw [(logs s).2, (logs s').2]
    exact outline.counts
  · rw [Session.boundByClosure_scopes] at small small'
    have before := aligned small small'
    refine ⟨?_, ?_, ?_, ?_, ?_⟩
    · rw [Session.boundByClosure_scopes]
      exact before.nested
    · rw [Session.boundByClosure_scopes]
      exact before.nested'
    · rw [Session.boundByClosure_scopes, Session.boundByClosure_scopes, Session.boundByClosure_current,
        Session.boundByClosure_current]
      exact before.twins
    · exact before.unnoted follows follows'
    · rw [Session.boundByClosure_nodes, Session.boundByClosure_nodes]
      exact before.nodes

/-- The frames that a frame or a closure opens bind the same. -/
theorem twins_enter (together : Together branch stack s s') (kind : ScopeKind)
    (small : (s.enter kind).scopes.size ≤ 2 ^ 32) (small' : (s'.enter kind).scopes.size ≤ 2 ^ 32) :
    (s.enter kind).scopes.Nested ∧ (s'.enter kind).scopes.Nested ∧
      Scopes.Twins (((s.enter kind).current, (s'.enter kind).current) :: stack.frames)
        (s.enter kind).scopes (s'.enter kind).scopes (s.enter kind).current (s'.enter kind).current := by
  replace small : (s.scopes.add s.current kind).size ≤ 2 ^ 32 := small
  replace small' : (s'.scopes.add s'.current kind).size ≤ 2 ^ 32 := small'
  rw [Scopes.size_add] at small small'
  have before := together.aligned (by omega) (by omega)
  obtain ⟨standing, standing'⟩ := before.standing together.outline
  refine ⟨before.nested.add standing, before.nested'.add standing', ?_⟩
  rw [show (s.enter kind).current = ⟨s.scopes.size⟩ from Scopes.next_eq (by omega),
    show (s'.enter kind).current = ⟨s'.scopes.size⟩ from Scopes.next_eq (by omega)]
  exact before.twins.add before.nested before.nested' standing standing' kind

theorem enter (together : Together branch stack s s') (kind : ScopeKind) :
    Together branch (stack.enter ((s.enter kind).current, (s'.enter kind).current)) (s.enter kind)
      (s'.enter kind) := by
  refine ⟨⟨rfl, together.outline.closures, together.outline.logs, together.outline.counts⟩,
    fun small small' => ?_⟩
  obtain ⟨nested, nested', twins⟩ := together.twins_enter kind small small'
  have before := together.aligned (Nat.le_trans (by simp [Session.enter]) small)
    (Nat.le_trans (by simp [Session.enter]) small')
  exact ⟨nested, nested', twins, before.notes, before.nodes⟩

/-- Back in the frames around, the frames opened inside are out of sight. -/
theorem twins_leave {frame : ScopeId × ScopeId} {g g' : Scopes} {scope scope' : ScopeId}
    (outline : Outline branch stack s s')
    (twins : Scopes.Twins (frame :: stack.frames) g g' scope scope') :
    Scopes.Twins stack.frames g g' s.current s'.current := by
  obtain ⟨frames, top⟩ := List.head?_eq_some_iff.mp outline.current
  rw [top] at twins ⊢
  exact twins.tail

theorem leave {frame : ScopeId × ScopeId} (together : Together branch stack s s')
    (inner : Together branch (stack.enter frame) t t') :
    Together branch stack { t with current := s.current } { t' with current := s'.current } := by
  refine ⟨⟨together.outline.current, inner.outline.closures, inner.outline.logs, inner.outline.counts⟩,
    fun small small' => ?_⟩
  have after := inner.aligned small small'
  have twins := twins_leave together.outline after.twins
  exact ⟨after.nested, after.nested', twins, after.notes, after.nodes⟩

/-- A branch is passed, and may have held anything. -/
theorem pass {limits : Limits} (together : Together branch stack s s') (around : stack.Around branch)
    (first : BuiltInFrame limits branch s t) (second : BuiltInFrame limits branch s' t') :
    Together branch stack t t' := by
  obtain ⟨gain, course⟩ := first.built.course
  obtain ⟨gain', course'⟩ := second.built.course
  obtain ⟨outline, aligned⟩ := together
  -- All that is open lies around the branch, so that no more than its number has to agree.
  have anyLog : ∀ {α : Type} {as as' bs bs' : List α} {sites : List Address},
      (∀ site ∈ sites, branch.isWithin site = true) → Along (AlikeAround branch) sites as bs →
      as'.length = as.length → bs'.length = bs.length → Along (AlikeAround branch) sites as' bs' := by
    intro α as as' bs bs' sites inside along same same'
    have whole : ∀ {xs ys : List α}, ys.length = xs.length → List.Forall₂ (fun _ _ => True) xs ys :=
      fun same => List.forall₂_iff_get.mpr ⟨same.symm, fun _ _ _ => trivial⟩
    exact along.step (whole same) (whole same') fun site member _ _ _ _ _ _ _ =>
      .inr (inside site member)
  refine ⟨⟨?_, outline.follow course.follows course'.follows, ?_, ?_⟩, fun small small' => ?_⟩
  · rw [first.current_eq, second.current_eq]
    exact outline.current
  · exact anyLog (fun _ => around.log) outline.logs course.readLogs_length course'.readLogs_length
  · exact anyLog (fun _ => around.count) outline.counts course.placeholders_length
      course'.placeholders_length
  · have before := aligned (Nat.le_trans course.size_le small) (Nat.le_trans course'.size_le small')
    obtain ⟨standing, standing'⟩ := before.standing outline
    obtain ⟨nested, agrees⟩ := first.agrees ⟨before.nested, standing⟩ small
    obtain ⟨nested', agrees'⟩ := second.agrees ⟨before.nested', standing'⟩ small'
    refine ⟨nested, nested', ?_, ?_, ?_⟩
    · rw [first.current_eq, second.current_eq]
      exact before.twins.agrees before.nested before.nested' agrees agrees' standing standing'
    · refine before.notes.step course.follows course'.follows ?_
      intro held member _ _ _ _ _ _ _
      exact .inr (around.closure member)
    · have touched : ∀ {gain : Gain}, Forest [branch] gain.nodes → ∀ n ∈ gain.nodes, n.Touched branch := by
        intro gain forest n member
        obtain ⟨root, inRoots, within⟩ := forest.within n member
        exact .inl (List.mem_singleton.mp inRoots ▸ within)
      rw [course.nodes_eq, course'.nodes_eq]
      exact before.nodes.append (.ofTouched (touched course.forest) (touched course'.forest))

/-- Logs and counts matter to nothing else. -/
theorem record (together : Together branch stack s s') {sites sites' : List Address}
    {logs logs' : List (OrderedSet String)} {counts counts' : List Int64}
    (logged : Along (AlikeAround branch) sites logs logs')
    (counted : Along (AlikeAround branch) sites' counts counts') :
    Together branch { stack with logs := sites, counts := sites' }
      { s with readLogs := logs, placeholders := counts }
      { s' with readLogs := logs', placeholders := counts' } := by
  obtain ⟨outline, aligned⟩ := together
  refine ⟨⟨outline.current, outline.closures, logged, counted⟩, fun small small' => ?_⟩
  obtain ⟨nested, nested', twins, notes, nodes⟩ := aligned small small'
  exact ⟨nested, nested', twins, notes, nodes⟩

/-- A log is opened in both runs. -/
theorem log (together : Together branch stack s s') (site : Address) :
    Together branch (stack.log site) { s with readLogs := ∅ :: s.readLogs }
      { s' with readLogs := ∅ :: s'.readLogs } :=
  together.record (.cons (.inl rfl) together.outline.logs) together.outline.counts

theorem endLog (inner : Together branch (stack.log site) t t') :
    Together branch stack { t with readLogs := t.readLogs.tail }
        { t' with readLogs := t'.readLogs.tail } ∧
      AlikeAround branch site (t.readLogs.head?.getD ∅) (t'.readLogs.head?.getD ∅) := by
  obtain ⟨first, rest⟩ := inner.outline.logs.uncons ∅ ∅
  exact ⟨inner.record rest inner.outline.counts, first⟩

/-- Placeholders are counted in both runs. -/
theorem count (together : Together branch stack s s') (site : Address) :
    Together branch (stack.count site) { s with placeholders := 0 :: s.placeholders }
      { s' with placeholders := 0 :: s'.placeholders } :=
  together.record together.outline.logs (.cons (.inl rfl) together.outline.counts)

theorem endCount (inner : Together branch (stack.count site) t t') :
    Together branch stack { t with placeholders := t.placeholders.tail }
        { t' with placeholders := t'.placeholders.tail } ∧
      AlikeAround branch site (t.placeholders.head?.getD 0) (t'.placeholders.head?.getD 0) := by
  obtain ⟨first, rest⟩ := inner.outline.counts.uncons 0 0
  exact ⟨inner.record inner.outline.logs rest, first⟩

/-- The same placeholder is counted in both runs. -/
theorem placeholder (together : Together branch stack s s') {greatest greatest' : Int64}
    {rest rest' : List Int64} (seen : s.placeholders = greatest :: rest)
    (seen' : s'.placeholders = greatest' :: rest') (index : Int64) :
    Together branch stack { s with placeholders := max greatest index :: rest }
      { s' with placeholders := max greatest' index :: rest' } := by
  have counts : Along (AlikeAround branch) stack.counts
      (max greatest index :: rest) (max greatest' index :: rest') := by
    have before := together.outline.counts
    rw [seen, seen'] at before
    generalize stack.counts = sites at before ⊢
    cases before with
    | cons first others => exact .cons (first.imp (congrArg (max · index)) id) others
  exact together.record together.outline.logs counts

/-- A closure is opened in both runs. -/
theorem openClosure (together : Together branch stack s s') (site : Address) :
    Together branch
      (stack.openClosure ⟨site, ((s.enter .closure).current, (s'.enter .closure).current),
        (s.current, s'.current)⟩)
      (s.openClosure site) (s'.openClosure site) := by
  have entered := together.enter .closure
  refine ⟨⟨rfl, .cons ⟨rfl, rfl, rfl, rfl⟩ entered.outline.closures, entered.outline.logs,
    entered.outline.counts⟩, fun small small' => ?_⟩
  have inside := entered.aligned small small'
  exact ⟨inside.nested, inside.nested', inside.twins, .cons (.inl rfl) inside.notes, inside.nodes⟩

/-- Both reports on a closure are on the notes at the end, looked up from the frames that were
current before. So captures have the same nodes, unless the closure lies around the branch. -/
theorem captureNodes_alike {limits : Limits} {held : Held} {c c' : OpenClosure}
    {others others' : List OpenClosure} {report report' : ClosureReport}
    (outline : Outline branch stack s s') (after : Aligned branch (stack.openClosure held) t t')
    (describes : held.Describes c c') (top : t.closures = c :: others)
    (top' : t'.closures = c' :: others') (current : c.enclosing = s.current)
    (current' : c'.enclosing = s'.current)
    (reported : c.tracker.report t.scopes c.enclosing limits = .ok report)
    (reported' : c'.tracker.report t'.scopes c'.enclosing limits = .ok report') :
    AlikeAround branch held.site report.captureNodes report'.captureNodes := by
  have twins := twins_leave outline after.twins
  have notes := after.notes
  rw [top, top'] at notes
  cases notes with
  | cons noted _ =>
      refine noted.imp (fun free => ?_) id
      rw [← current, ← current'] at twins
      exact Tracker.captureNodes_eq (describes.site.trans describes.site'.symm) free twins reported
        reported'

/-- A closure is reported on in both runs. -/
theorem close {limits : Limits} {frame : ScopeId × ScopeId} (together : Together branch stack s s')
    (inner : Together branch (stack.openClosure ⟨site, frame, (s.current, s'.current)⟩) t t')
    {n n' r r' : Node} (alike : AlikeAround branch site n n') {u u' : Session}
    (first : (Build.closeClosure n).Yields limits t r u)
    (second : (Build.closeClosure n').Yields limits t' r' u') :
    Together branch stack u u' ∧ r.address = n.address ∧ r'.address = n'.address ∧
      (u.scopes.size ≤ 2 ^ 32 → u'.scopes.size ≤ 2 ^ 32 → AlikeAround branch site r r') := by
  obtain ⟨outline, aligned⟩ := inner
  have closures := outline.closures
  generalize top : t.closures = these at closures
  generalize top' : t'.closures = those at closures
  cases closures with
  | @cons _ c c' _ others others' describes rest =>
      obtain ⟨report, reported, rfl, rfl⟩ := Build.yields_closeClosure top first
      obtain ⟨report', reported', rfl, rfl⟩ := Build.yields_closeClosure top' second
      obtain ⟨current, current'⟩ : c.enclosing = s.current ∧ c'.enclosing = s'.current :=
        Prod.mk.inj describes.enclosing
      have around : stack.frames.head? = some (c.enclosing, c'.enclosing) := by
        rw [current, current']
        exact together.outline.current
      have captures : t.scopes.size ≤ 2 ^ 32 → t'.scopes.size ≤ 2 ^ 32 →
          AlikeAround branch site report.captureNodes report'.captureNodes := fun small small' =>
        captureNodes_alike together.outline (aligned small small') describes top top' current current'
          reported reported'
      refine ⟨⟨⟨around, rest, outline.logs, outline.counts⟩, fun small small' => ?_⟩, by simp, by simp,
        fun small small' => ?_⟩
      · obtain ⟨nested, nested', twins, notes, nodes⟩ := aligned small small'
        refine ⟨nested, nested', ?_, ?_, ?_⟩
        · dsimp only
          rw [current, current']
          exact twins_leave together.outline twins
        · rw [top, top'] at notes
          cases notes with
          | cons _ notes => exact notes
        · dsimp only
          rw [Array.toList_appendList, Array.toList_appendList]
          refine nodes.append ?_
          cases captures small small' with
          | inl same =>
              rw [same]
              exact .refl _
          | inr within =>
              have named := (Tracker.report_closure reported).trans describes.site
              have named' := (Tracker.report_closure reported').trans describes.site'
              exact .ofTouched (fun _ => ClosureReport.captureNodes_touched (named ▸ within))
                fun _ => ClosureReport.captureNodes_touched (named' ▸ within)
      · cases captures small small' with
        | inl same =>
            rw [same]
            exact alike.imp (fun equal => by rw [equal]) id
        | inr within => exact .inr within

end Together

/-! ## The simulation -/

/-- Two builds of trees that differ in what one branch holds. -/
def Coupling.branch (limits : Limits) (expression pattern : Address → Source → Source → Prop)
    (branch : Address) : Coupling where
  Stack := Surroundings
  World := Unit
  grows _ _ := True
  limits := limits
  limits' := limits
  like := ⟨expression, pattern, Eq, (· = branch)⟩
  session stack _ := Together branch stack
  address := Eq
  within := Surroundings.Around
  node _ n n' := n.address = n'.address ∧ AlikeAround branch n.address n n'
  part _ := Eq
  segment _ := Eq
  binding _ := Eq
  room := Eq
  varied site := branch.isWithin site = true
  cut _ := True
  lost _ := True
  fault _ _ := True

/-- A node changes in the same way in both runs. -/
theorem AlikeAround.change {branch : Address} {n n' : Node}
    (alike : n.address = n'.address ∧ AlikeAround branch n.address n n') {f : Node → Node}
    (kept : ∀ n, (f n).address = n.address) :
    (f n).address = (f n').address ∧ AlikeAround branch (f n).address (f n) (f n') := by
  rw [kept, kept]
  exact ⟨alike.1, alike.2.imp (congrArg f) id⟩

/-- Every primitive step keeps the two builds together. -/
def Simulation.branch (limits : Limits) (expression pattern : Address → Source → Source → Prop)
    (branch : Address) : Simulation where
  toCoupling := .branch limits expression pattern branch
  grows_refl _ := trivial
  grows_trans _ _ := trivial
  node_mono _ := id
  part_mono _ := id
  segment_mono _ := id
  binding_mono _ := id
  address_child := by
    rintro a - label rfl
    rfl
  address_indexed := by
    rintro a - label index rfl
    rfl
  within_child label around := around.mono (Address.child_isWithin _ label)
  within_indexed label index around := around.mono (Address.indexed_isWithin _ label index)
  node_address := And.left
  node_make := by
    rintro _ a - kind rfl -
    exact ⟨rfl, .inl rfl⟩
  node_set name value _ alike := AlikeAround.change alike (Node.set_address · name value)
  node_withTags tags alike := AlikeAround.change alike (Node.withTags_address · tags)
  node_withPosition := by
    rintro _ n n' p - alike rfl
    exact AlikeAround.change alike (Node.withPosition_address · p)
  node_declare role alike := AlikeAround.change alike (Node.declare_address · role)
  node_relate := by
    rintro _ n n' a - role alike rfl
    exact AlikeAround.change alike (Node.relate_address · role a)
  node_varied around same := ⟨same, .inr around⟩
  varied_indexed := by
    rintro a label index (rfl : _ = branch)
    exact a.indexed_isWithin label index
  varied_cut _ _ := trivial
  varied_lost _ _ := trivial
  binding_name := congrArg Binding.name
  fails_malformed _ _ := .inl trivial
  fails_arity _ _ := .inl trivial
  fails_deep _ := .inl trivial
  room_pred := by
    rintro n - rfl
    rfl
  room_zero := by
    intro n' same
    cases same
  room_succ := by
    intro n same
    cases same
  relates_fanout what count _ :=
    .fanout (fun _ => trivial) (fun _ => trivial) trivial _ _ what count
  relates_placeholder := by
    rintro stack world a - source source' index around rfl positions
    refine .ofYields (fun _ => trivial) (fun _ => trivial) fun s s' _ t _ t' together first second => ?_
    obtain ⟨greatest, rest, seen, rfl⟩ := Build.yields_placeholder first
    obtain ⟨greatest', rest', seen', rfl⟩ := Build.yields_placeholder second
    have same : source.position = source'.position := positions
    refine ⟨(), trivial, ?_, rfl⟩
    rw [same]
    exact (Together.placeholder together seen seen' index).emit rfl fun _ _ => .inl rfl
  session_emit := by
    intro stack world n n' s s' _ alike together
    refine ⟨(), trivial, together.emit alike.1 fun _ _ => alike.2, alike.1, fun _ => alike.1, ?_⟩
    rintro name position - - - rfl
    exact congrArg (fun site => (⟨name, some site, position⟩ : Binding)) alike.1
  session_symbol := by
    rintro stack world a - source source' s s' name - rfl positions together
    have same : source.position = source'.position := positions
    refine ⟨(), trivial, ?_, rfl⟩
    unfold Build.nameNode
    rw [same]
    exact (together.readSymbol name a source'.position).emit rfl fun _ _ => .inl rfl
  session_size := by
    rintro stack world a - position - s s' name - rfl rfl together
    exact together.readSymbol name a position
  session_bind := by
    rintro stack world site reads reads' b - s s' around rfl figures together
    exact together.bindSymbol around figures b
  session_bound names together := together.boundByClosure names
  session_diagnose := by
    intro stack world a a' position position' s s' kind tag _ _ together
    obtain ⟨outline, aligned⟩ := together
    refine ⟨⟨outline.current, outline.closures, outline.logs, outline.counts⟩, fun small small' => ?_⟩
    obtain ⟨nested, nested', twins, notes, nodes⟩ := aligned small small'
    exact ⟨nested, nested', twins, notes, nodes⟩
  session_enter := by
    intro stack world s s' kind together
    exact ⟨Surroundings.enter stack ((s.enter kind).current, (s'.enter kind).current), (),
      fun _ around => around, trivial, together.enter kind, fun _ _ _ _ inner => together.leave inner⟩
  session_log := by
    intro stack world site s s' around together
    exact ⟨_, (), around.insideLog, trivial, together.log site, fun _ _ _ _ inner => inner.endLog⟩
  session_count := by
    intro stack world site s s' around together
    exact ⟨_, (), around.insideCount, trivial, together.count site, fun _ _ _ _ inner => inner.endCount⟩
  relates_closure := by
    intro α β stack world site site' value m m' opened opened' finish finish' around same inner _ node last
    obtain rfl : site = site' := same
    refine .ofYields (fun _ => trivial) (fun _ => trivial) fun s s' _ t _ t' together first second => ?_
    obtain ⟨a, v, n, w, parts, closed, rfl⟩ := Build.yields_closure first
    obtain ⟨b, v', n', w', parts', closed', rfl⟩ := Build.yields_closure second
    obtain ⟨later, -, inside, built⟩ := (inner _ world (around.openClosure _ _)).done
      (Together.openClosure together site) parts parts'
    obtain ⟨⟨-, alike⟩, place, place'⟩ := node later a b built
    rw [place] at alike
    obtain ⟨after, here, here', closing⟩ := Together.close together inside alike closed closed'
    have final : ∀ {n n' : Node}, n.address = site → n'.address = site → AlikeAround branch site n n' →
        AlikeAround branch site (finish a n) (finish' b n') ∧ (finish a n).address = site ∧
          (finish' b n').address = site := by
      intro n n' first second alike
      obtain ⟨⟨-, alike'⟩, first', second'⟩ :=
        last later a b n n' built ⟨⟨first.trans second.symm, first ▸ alike⟩, first, second⟩
      exact ⟨first' ▸ alike', first', second'⟩
    have standing : n.address = site := here.trans place
    have standing' : n'.address = site := here'.trans place'
    have first := (final standing standing (.inl rfl)).2.1
    have second := (final standing' standing' (.inl rfl)).2.2
    refine ⟨(), trivial, after.emit (first.trans second.symm) fun small small' => ?_, rfl⟩
    rw [first]
    exact (final standing standing' (closing small small')).1

/-- Free branches are built in frames of their own and leave nothing behind. -/
theorem Level.free_branch {limits : Limits} {expression pattern : Address → Source → Source → Prop}
    {branch : Address} (room room' : Nat) :
    (ofRoom room).Free (.branch limits expression pattern branch) (ofRoom room') := by
  have sound := ofRoom_sound room
  have sound' := ofRoom_sound room'
  have passed : ∀ {stack : Surroundings} {site site' : Address} {m m' : Build Unit}, site = branch →
      stack.Around site → site = site' →
      (∀ s t, m.Yields limits s () t → BuiltInFrame limits site s t) →
      (∀ s t, m'.Yields limits s () t → BuiltInFrame limits site' s t) →
      (Coupling.branch limits expression pattern branch).Relates stack () (fun _ _ _ => site = site')
        m m' := by
    intro stack site site' m m' free around same first second
    subst same free
    exact .ofYields (fun _ => trivial) (fun _ => trivial) fun s s' _ t _ t' together ran ran' =>
      ⟨(), trivial, Together.pass together around (first s t ran) (second s' t' ran'), rfl⟩
  constructor
  · intro stack world site site' source source' free around same
    refine passed free around same (fun s t ran => ?_) fun s t ran => ?_
    · obtain ⟨u, inner, rfl⟩ := Build.yields_inScope ran
      exact ⟨_, u, sound.expression inner, rfl⟩
    · obtain ⟨u, inner, rfl⟩ := Build.yields_inScope ran
      exact ⟨_, u, sound'.expression inner, rfl⟩
  · intro stack world site site' c c' single single' free around same
    exact passed free around same (fun _ _ ran => Build.branchClause_framed sound single ran)
      fun _ _ ran => Build.branchClause_framed sound' single' ran
  · intro stack world site site' c c' free around same
    exact passed free around same (fun _ _ ran => Build.condClause_framed sound ran)
      fun _ _ ran => Build.condClause_framed sound' ran
  · intro stack world site site' c c' free around same
    exact passed free around same (fun _ _ ran => Build.closureClause_framed sound ran)
      fun _ _ ran => Build.closureClause_framed sound' ran
  · intro stack world site site' c c' free around same
    exact passed free around same (fun _ _ ran => Build.functionClause_framed sound ran)
      fun _ _ ran => Build.functionClause_framed sound' ran

/-! ## Constructs -/

/-- A session without anything open belongs together with itself. -/
theorem Together.start {branch : Address} {s : Session} (placed : s.Placed) (closures : s.closures = [])
    (logs : s.readLogs = []) (counts : s.placeholders = []) :
    ∃ stack : Surroundings, stack.sites = [] ∧ Together branch stack s s := by
  obtain ⟨path, walk, twins⟩ := Scopes.Twins.diagonal placed.nested s.current
  refine ⟨⟨path.map fun entry => (entry.1, entry.1), [], [], [], fun _ member => (nomatch member)⟩, rfl,
    ⟨?_, ?_, ?_, ?_⟩, fun _ _ => ?_⟩
  · cases walk with
    | missing absent =>
        have beyond := Scopes.frame?_eq_none_iff.mp absent
        have standing := placed.standing
        omega
    | outermost _ _ => rfl
    | further _ _ _ => rfl
  · rw [closures]
    exact .nil
  · rw [logs]
    exact .nil
  · rw [counts]
    exact .nil
  · refine ⟨placed.nested, placed.nested, twins, ?_, .refl _⟩
    rw [closures]
    exact .nil

/-- A branch affects nothing but what lies in it, what it lies in, and the captures of the closures
it lies in: constructs that differ at most there are compiled to the same nodes elsewhere. -/
theorem Compiler.construct_untouched {c : Compiler} {k k' : Construct} {compiled compiled' : Compiled}
    {branch : Address} (differ : k.DifferAt branch k') (first : c.construct k = .ok compiled)
    (second : c.construct k' = .ok compiled') (few : c.openedFrames k < 2 ^ 32)
    (few' : c.openedFrames k' < 2 ^ 32) :
    ∀ n : Node, ¬ n.Touched branch → (n ∈ compiled.nodes ↔ n ∈ compiled'.nodes) := by
  obtain ⟨expression, pattern, closed, alike⟩ := differ
  obtain ⟨gain, traces⟩ := exists_traces first
  obtain ⟨gain', traces'⟩ := exists_traces second
  obtain ⟨t, success, rfl, -, small, placed⟩ := traces.small few
  obtain ⟨t', success', rfl, -, small', -⟩ := traces'.small few'
  obtain ⟨stack, nothing, together⟩ : ∃ stack : Surroundings, stack.sites = [] ∧
      Together branch stack c.session c.session := Together.start placed rfl rfl rfl
  have near : stack.Around k.root := by
    intro outer member
    rw [nothing] at member
    cases member
  have at' : k.root = k'.root := by
    cases alike <;> rfl
  have related : (Simulation.branch c.limits expression pattern branch).Relates stack ()
      (fun _ _ _ => k.root = k'.root) (k.build c) (k'.build c) :=
    Simulation.relates_construct closed Level.free_branch rfl alike near at'
  obtain ⟨later, grown, after, root⟩ := related.done together success success'
  intro n away
  have same := (after.aligned small small').nodes n away
  rw [show n ∈ (finish k.root t).nodes ↔ n ∈ t.nodes.toList from (sortNodes_perm _).mem_iff, same]
  exact (sortNodes_perm _).mem_iff.symm

/-- The body `case y do clause; z -> z end`. -/
def choiceBody (clause : Source) : Source :=
  .form "case" .empty [.symbol "y" .empty, .keywords [("do",
    .list [clause, .clause [.symbol "z" .empty] (.symbol "z" .empty)])]]

/-- The closure `fn y -> case y do clause; z -> z end end`. -/
def choiceClosure (clause : Source) : Source :=
  .closure [.clause [.symbol "y" .empty] (choiceBody clause)]

/-- A match and a closure, `x = 1; fn y -> case y do clause; z -> z end end`. -/
def choiceBlock (clause : Source) : Source :=
  .block [.binary "=" (.symbol "x" .empty) (.integer 1), choiceClosure clause]

/-- Trees of two such blocks are the same, or are met on the way to the clause. -/
inductive ChoiceAlike (clause clause' : Source) : Address → Source → Source → Prop where
  | same (site : Address) (s : Source) : ChoiceAlike clause clause' site s s
  | block : ChoiceAlike clause clause' ⟨"expr/0"⟩ (choiceBlock clause) (choiceBlock clause')
  | closure : ChoiceAlike clause clause' ⟨"expr/0/statement/1"⟩ (choiceClosure clause) (choiceClosure clause')
  | body : ChoiceAlike clause clause' ⟨"expr/0/statement/1/clause/0/body"⟩ (choiceBody clause)
      (choiceBody clause')

theorem ChoiceAlike.reflexive (clause clause' : Source) (here : Address → Prop) :
    (Likeness.mk (ChoiceAlike clause clause') (fun _ => Eq) Eq here).Reflexive :=
  ⟨.same, fun _ _ => rfl, fun _ => rfl⟩

/-- Whatever the first clause of the `case` is, nothing else differs. -/
theorem choiceBlock_differ (clause clause' : Source) :
    Construct.DifferAt ⟨"expr/0/statement/1/clause/0/body/clause/0"⟩
      (.expression ⟨"expr/0"⟩ (choiceBlock clause)) (.expression ⟨"expr/0"⟩ (choiceBlock clause')) := by
  have reflexive := ChoiceAlike.reflexive clause clause' (· = ⟨"expr/0/statement/1/clause/0/body/clause/0"⟩)
  refine ⟨ChoiceAlike clause clause', fun _ => Eq, ⟨?_, ?_⟩, .expression .block⟩
  · intro site s s' alike
    cases alike with
    | same => exact reflexive.ofExpression site s
    | block => exact .shape rfl rfl rfl (.block (.cons (.same _ _) (.cons .closure .nil)))
    | closure =>
        refine .shape rfl rfl rfl (.closure (.cons (.inr (.some ?_)) .nil))
        exact ⟨reflexive.parameters _ _ _, .none, .some .body, rfl⟩
    | body =>
        refine .shape rfl rfl rfl (.case (.same _ _) (.cons (.inl rfl) (.cons (.inr ?_) .nil)))
        exact Likeness.option_refl (reflexive.clause _ _) _
  · rintro site s - rfl
    exact reflexive.ofPattern site s

/-- The clause `1 -> x` is replaced by `w -> q`, so that the closure captures another name. -/
theorem Compiler.construct_untouched_choiceBlock :
    ∃ compiled compiled',
      Compiler.construct ⟨.standard, []⟩ (.expression ⟨"expr/0"⟩ (choiceBlock
        (.clause [.integer 1] (.symbol "x" .empty)))) = .ok compiled ∧
      Compiler.construct ⟨.standard, []⟩ (.expression ⟨"expr/0"⟩ (choiceBlock
        (.clause [.symbol "w" .empty] (.symbol "q" .empty)))) = .ok compiled' ∧
      compiled.closures.map (·.freeNames) = [["x"]] ∧ compiled'.closures.map (·.freeNames) = [["q"]] ∧
      ∀ n : Node, ¬ n.Touched ⟨"expr/0/statement/1/clause/0/body/clause/0"⟩ →
        (n ∈ compiled.nodes ↔ n ∈ compiled'.nodes) := by
  obtain ⟨compiled, first, captured⟩ : ∃ compiled,
      Compiler.construct ⟨.standard, []⟩ (.expression ⟨"expr/0"⟩ (choiceBlock
        (.clause [.integer 1] (.symbol "x" .empty)))) = .ok compiled ∧
      compiled.closures.map (·.freeNames) = [["x"]] := ⟨_, rfl, rfl⟩
  obtain ⟨compiled', second, captured'⟩ : ∃ compiled',
      Compiler.construct ⟨.standard, []⟩ (.expression ⟨"expr/0"⟩ (choiceBlock
        (.clause [.symbol "w" .empty] (.symbol "q" .empty)))) = .ok compiled' ∧
      compiled'.closures.map (·.freeNames) = [["q"]] := ⟨_, rfl, rfl⟩
  exact ⟨compiled, compiled', first, second, captured, captured',
    Compiler.construct_untouched (choiceBlock_differ _ _) first second (by decide) (by decide)⟩

end SyntaxGraph
