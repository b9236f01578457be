import SyntaxGraph.Proofs.Likeness
import SyntaxGraph.Proofs.Links
import SyntaxGraph.Proofs.Yields

/-!
# Two runs side by side

Statements about two builds, such as builds under other ceilings or of trees that differ in one
branch, compare two runs step by step. A `Coupling` says what is compared: which sessions
belong together, which nodes, bindings and addresses correspond, and which faults one run may
have alone. `Relates` is the judgement on two steps. From sessions that belong together they
lead to sessions that belong together, and their values are related.

Relations on values depend on a world, what is known of the nodes that stand by now. Worlds
only grow. What surrounds a step, frames, open closures and logs, is kept apart as a stack,
since a step inside of a frame comes back to the stack it started from.

A `Simulation` is a coupling that every primitive step respects. Nothing in it speaks about
the builders; that all of them relate is proved once, for every simulation.
-/

namespace SyntaxGraph

/-- The names of the properties that give a position. -/
def Node.placeNames : List String := ["line", "column"]

/-- What two runs have to do with each other. -/
structure Coupling where
  /-- What surrounds a step, as far as it matters. -/
  Stack : Type
  /-- What is known about the nodes that stand. -/
  World : Type
  grows : World → World → Prop
  limits : Limits
  limits' : Limits
  like : Likeness
  session : Stack → World → Session → Session → Prop
  /-- The addresses that correspond. -/
  address : Address → Address → Prop
  /-- The addresses a step may work at. -/
  within : Stack → Address → Prop
  node : World → Node → Node → Prop
  /-- Addresses at which a node stands in both runs. -/
  part : World → Address → Address → Prop
  /-- Addresses at which a segment of a binary stands in both runs. -/
  segment : World → Address → Address → Prop
  binding : World → Binding → Binding → Prop
  /-- How many levels are left in each run. -/
  room : Nat → Nat → Prop
  /-- The addresses above a free branch, where the runs may go different ways. -/
  varied : Address → Prop
  /-- The faults that may end the first run alone. -/
  cut : Fault → Prop
  /-- The faults that may end the second run alone. -/
  lost : Fault → Prop
  fault : Fault → Fault → Prop

namespace Coupling

variable (K : Coupling) {α β γ δ : Type}

/-- Two runs may fail together with these faults. -/
def Fails (f f' : Fault) : Prop := K.cut f ∨ K.lost f' ∨ K.fault f f'

/-- How two outcomes compare. -/
def Meets (done : α → Session → β → Session → Prop) :
    Except Fault (α × Session) → Except Fault (β × Session) → Prop
  | .ok (a, s), .ok (b, t) => done a s b t
  | .error f, .ok _ => K.cut f
  | .ok _, .error f => K.lost f
  | .error f, .error f' => K.Fails f f'

/-- Two steps that lead from sessions that belong together to such sessions, with related values. -/
def Relates (stack : K.Stack) (world : K.World) (value : K.World → α → β → Prop) (m : Build α)
    (m' : Build β) : Prop :=
  ∀ s s', K.session stack world s s' →
    K.Meets (fun a t b t' => ∃ later, K.grows world later ∧ K.session stack later t t' ∧ value later a b)
      ((m.run K.limits).run s) ((m'.run K.limits').run s')

/-- Outcomes that meet may be carried on. -/
theorem Meets.bind {done : α → Session → β → Session → Prop}
    {last : γ → Session → δ → Session → Prop} {x : Except Fault (α × Session)}
    {y : Except Fault (β × Session)} {next : α × Session → Except Fault (γ × Session)}
    {next' : β × Session → Except Fault (δ × Session)} (meets : K.Meets done x y)
    (rest : ∀ a s b t, done a s b t → K.Meets last (next (a, s)) (next' (b, t))) :
    K.Meets last (x.bind next) (y.bind next') := by
  cases x with
  | error f =>
      cases y with
      | error f' => exact meets
      | ok y =>
          -- The first run ended alone, whatever becomes of the second one.
          show K.Meets last (.error f) (next' y)
          cases next' y with
          | error f' => exact .inl meets
          | ok z => exact meets
  | ok x =>
      cases y with
      | error f' =>
          show K.Meets last (next x) (.error f')
          cases next x with
          | error f => exact .inr (.inl meets)
          | ok z => exact meets
      | ok y => exact rest x.1 x.2 y.1 y.2 meets

theorem Meets.mono {done last : α → Session → β → Session → Prop} {x : Except Fault (α × Session)}
    {y : Except Fault (β × Session)} (meets : K.Meets done x y)
    (weaken : ∀ a s b t, x = .ok (a, s) → y = .ok (b, t) → done a s b t → last a s b t) :
    K.Meets last x y := by
  cases x with
  | error f =>
      cases y with
      | error f' => exact meets
      | ok y => exact meets
  | ok x =>
      cases y with
      | error f' => exact meets
      | ok y => exact weaken x.1 x.2 y.1 y.2 rfl rfl meets

/-- Related nodes at given addresses. -/
def NodeAt (world : K.World) (site site' : Address) (n n' : Node) : Prop :=
  K.node world n n' ∧ n.address = site ∧ n'.address = site'

/-- Values that are the same, or belong to a place where the runs may differ. -/
def Figure {α : Type} (site : Address) (a a' : α) : Prop := a = a' ∨ K.varied site

variable {K} {stack : K.Stack} {world : K.World} {value : K.World → α → β → Prop}
  {m : Build α} {m' : Build β}

/-- Steps that fail only where they may are related if their successes are. -/
theorem Relates.ofYields (cut : ∀ f, K.cut f) (lost : ∀ f, K.lost f)
    (done : ∀ s s' a t b t', K.session stack world s s' → m.Yields K.limits s a t →
      m'.Yields K.limits' s' b t' →
      ∃ later, K.grows world later ∧ K.session stack later t t' ∧ value later a b) :
    K.Relates stack world value m m' := by
  intro s s' together
  cases first : (m.run K.limits).run s with
  | error f =>
      cases (m'.run K.limits').run s' with
      | error f' => exact .inl (cut f)
      | ok y => exact cut f
  | ok x =>
      cases second : (m'.run K.limits').run s' with
      | error f' => exact lost f'
      | ok y => exact done s s' x.1 x.2 y.1 y.2 together first second

/-- A ceiling that the parts keep to in both runs changes nothing. -/
theorem Relates.fanout (cut : ∀ f, K.cut f) (lost : ∀ f, K.lost f) (still : K.grows world world)
    (a a' : Address) (what : String) (count : Nat) :
    K.Relates stack world (fun _ _ _ => True) (Build.checkFanout a what count)
      (Build.checkFanout a' what count) := by
  refine .ofYields cut lost fun s s' _ t _ t' together first second => ?_
  obtain ⟨-, rfl⟩ := Build.yields_checkFanout first
  obtain ⟨-, rfl⟩ := Build.yields_checkFanout second
  exact ⟨world, still, together, trivial⟩

/-- Where the runs may not differ, their figures are the same. -/
theorem eq_of_figures {site : Address} {x x' : Option α} (fixed : ¬ K.varied site)
    (figures : Option.Rel (K.Figure site) x x') : x = x' := by
  cases figures with
  | none => rfl
  | some same => exact congrArg some (same.resolve_right fixed)

/-- Where both steps succeed, they lead to sessions that belong together. -/
theorem Relates.done {s s' t t' : Session} {a : α} {b : β} (h : K.Relates stack world value m m')
    (together : K.session stack world s s') (first : m.Yields K.limits s a t)
    (second : m'.Yields K.limits' s' b t') :
    ∃ later, K.grows world later ∧ K.session stack later t t' ∧ value later a b := by
  have meets := h s s' together
  rw [show (m.run K.limits).run s = .ok (a, t) from first,
    show (m'.run K.limits').run s' = .ok (b, t') from second] at meets
  exact meets

/-- What holds of every success of a step may be added to its value. -/
theorem Relates.also {left : α → Prop} {right : β → Prop}
    (h : K.Relates stack world value m m')
    (first : ∀ s a t, m.Yields K.limits s a t → left a)
    (second : ∀ s a t, m'.Yields K.limits' s a t → right a) :
    K.Relates stack world (fun v a b => value v a b ∧ left a ∧ right b) m m' := by
  intro s s' together
  refine (h s s' together).mono K ?_
  rintro a t b t' ran ran' ⟨later, grown, after, related⟩
  exact ⟨later, grown, after, related, first s a t ran, second s' b t' ran'⟩

/-- Steps follow each other, the second ones in the world that the first ones leave. -/
theorem Relates.bind (trans : ∀ {u v w}, K.grows u v → K.grows v w → K.grows u w)
    {next : α → Build γ} {next' : β → Build δ} {last : K.World → γ → δ → Prop}
    (first : K.Relates stack world value m m')
    (second : ∀ later a b, K.grows world later → value later a b →
      K.Relates stack later last (next a) (next' b)) :
    K.Relates stack world last (m >>= next) (m' >>= next') := by
  intro s s' together
  refine (first s s' together).bind K ?_
  rintro a t b t' ⟨later, grown, after, related⟩
  refine (second later a b grown related t t' after).mono K ?_
  rintro c u d u' - - ⟨last, grown', after', related'⟩
  exact ⟨last, trans grown grown', after', related'⟩

theorem Relates.throw {f f' : Fault} (fails : K.Fails f f') :
    K.Relates stack world value (throw f) (throw f') := fun _ _ _ => fails

theorem Relates.cut {f : Fault} (cut : K.cut f) :
    K.Relates stack world value (MonadExceptOf.throw f) m' := by
  intro s s' _
  cases ran : (m'.run K.limits').run s' with
  | error f' => exact .inl cut
  | ok y => exact cut

theorem Relates.lost {f' : Fault} (lost : K.lost f') :
    K.Relates stack world value m (MonadExceptOf.throw f') := by
  intro s s' _
  cases ran : (m.run K.limits).run s with
  | error f => exact .inr (.inl lost)
  | ok x => exact lost

end Coupling

/-- A coupling that every primitive step respects. -/
structure Simulation extends Coupling where
  grows_refl : ∀ world, grows world world
  grows_trans : ∀ {u v w}, grows u v → grows v w → grows u w
  node_mono : ∀ {v w n n'}, grows v w → node v n n' → node w n n'
  part_mono : ∀ {v w a a'}, grows v w → part v a a' → part w a a'
  segment_mono : ∀ {v w a a'}, grows v w → segment v a a' → segment w a a'
  binding_mono : ∀ {v w b b'}, grows v w → binding v b b' → binding w b b'
  address_child : ∀ {a a'} (label), address a a' → address (a.child label) (a'.child label)
  address_indexed : ∀ {a a'} (label index), address a a' →
    address (a.indexed label index) (a'.indexed label index)
  within_child : ∀ {stack a} (label), within stack a → within stack (a.child label)
  within_indexed : ∀ {stack a} (label index), within stack a → within stack (a.indexed label index)
  node_address : ∀ {world n n'}, node world n n' → address n.address n'.address
  /-- The node of a variable is made by its read alone. -/
  node_make : ∀ {world a a' kind}, address a a' → kind ≠ .variable →
    node world (.make a kind) (.make a' kind)
  /-- Positions are set together, as what they are. -/
  node_set : ∀ {world n n'} (name value), name ∉ Node.placeNames → node world n n' →
    node world (n.set name value) (n'.set name value)
  node_withTags : ∀ {world n n'} (tags), node world n n' →
    node world (n.withTags tags) (n'.withTags tags)
  node_withPosition : ∀ {world n n' position position'}, node world n n' →
    like.position position position' →
    node world (n.withPosition position) (n'.withPosition position')
  node_declare : ∀ {world n n'} (role), node world n n' → node world (n.declare role) (n'.declare role)
  node_relate : ∀ {world n n' a a'} (role), node world n n' → part world a a' →
    node world (n.relate role a) (n'.relate role a')
  node_varied : ∀ {world n n'}, varied n.address → address n.address n'.address → node world n n'
  varied_indexed : ∀ {a label index}, like.free (a.indexed label index) → varied a
  varied_cut : ∀ {a}, varied a → ∀ f, cut f
  varied_lost : ∀ {a}, varied a → ∀ f, lost f
  binding_name : ∀ {world b b'}, binding world b b' → b.name = b'.name
  fails_malformed : ∀ {a a'} (what), address a a' →
    toCoupling.Fails (.malformed a what) (.malformed a' what)
  fails_arity : ∀ {a a'} (counts), address a a' →
    toCoupling.Fails (.inconsistentArity a counts) (.inconsistentArity a' counts)
  fails_deep : ∀ {a a'}, address a a' →
    toCoupling.Fails (.depthExceeded a limits.maxDepth) (.depthExceeded a' limits'.maxDepth)
  room_pred : ∀ {n n'}, room n n' → room (n - 1) (n' - 1)
  room_zero : ∀ {n'}, room 0 (n' + 1) → ∀ a, cut (.depthExceeded a limits.maxDepth)
  room_succ : ∀ {n}, ¬ room (n + 1) 0
  relates_fanout : ∀ {stack world a a'} (what count), address a a' →
    toCoupling.Relates stack world (fun _ _ _ => True) (Build.checkFanout a what count)
      (Build.checkFanout a' what count)
  relates_placeholder : ∀ {stack world a a' source source'} (index), within stack a → address a a' →
    like.position source.position source'.position →
    toCoupling.Relates stack world (fun v _ _ => part v a a') (Build.placeholder a source index)
      (Build.placeholder a' source' index)
  /-- An emitted node stands where it was emitted, as what it is. -/
  session_emit : ∀ {stack world n n' s s'}, within stack n.address → node world n n' →
    session stack world s s' → ∃ later, grows world later ∧
      session stack later (s.emit n) (s'.emit n') ∧ part later n.address n'.address ∧
      (n.kind = .binarySegment → segment later n.address n'.address) ∧
      (∀ name position position', n.kind = .variablePattern → n.text? "name" = some name →
        like.position position position' →
        binding later ⟨name, some n.address, position⟩ ⟨name, some n'.address, position'⟩)
  session_symbol : ∀ {stack world a a' source source' s s'} (name), within stack a → address a a' →
    like.position source.position source'.position → session stack world s s' →
    ∃ later, grows world later ∧
      session stack later
        ((s.readSymbol name a source.position).emit
          ((Build.nameNode a .variable name source).set "ignored" (Build.isIgnored name)))
        ((s'.readSymbol name a' source'.position).emit
          ((Build.nameNode a' .variable name source').set "ignored" (Build.isIgnored name))) ∧
      part later a a'
  /-- The size of a segment is read where the segment stands. -/
  session_size : ∀ {stack world a a' position position' s s'} (name), within stack a → segment world a a' →
    like.position position position' → session stack world s s' →
    session stack world (s.readSymbol name a position) (s'.readSymbol name a' position')
  /-- A name is bound; the value that is matched, if there is one, stands at `site`. -/
  session_bind : ∀ {stack world site reads reads' b b' s s'}, within stack site → binding world b b' →
    Option.Rel (toCoupling.Figure site) reads reads' → session stack world s s' →
    session stack world (s.bindSymbol reads b) (s'.bindSymbol reads' b')
  session_bound : ∀ {stack world s s'} (names), session stack world s s' →
    session stack world (s.boundByClosure names) (s'.boundByClosure names)
  session_diagnose : ∀ {stack world a a' position position' s s'} (kind tag), address a a' →
    like.position position position' → session stack world s s' →
    session stack world (s.diagnose ⟨a, kind, tag, position⟩) (s'.diagnose ⟨a', kind, tag, position'⟩)
  /-- A frame is entered, and one can come back from it. -/
  session_enter : ∀ {stack world s s'} (kind), session stack world s s' →
    ∃ inner start, (∀ a, within stack a → within inner a) ∧ grows world start ∧
      session inner start (s.enter kind) (s'.enter kind) ∧
      ∀ later t t', grows start later → session inner later t t' →
        session stack later { t with current := s.current } { t' with current := s'.current }
  /-- A log of reads is opened for what is built at `site`. -/
  session_log : ∀ {stack world site s s'}, within stack site → session stack world s s' →
    ∃ inner start, within inner site ∧ grows world start ∧
      session inner start { s with readLogs := ∅ :: s.readLogs }
        { s' with readLogs := ∅ :: s'.readLogs } ∧
      ∀ later t t', grows start later → session inner later t t' →
        session stack later { t with readLogs := t.readLogs.tail }
          { t' with readLogs := t'.readLogs.tail } ∧
        toCoupling.Figure site (t.readLogs.head?.getD ∅) (t'.readLogs.head?.getD ∅)
  /-- Placeholders are counted in what is built at `site`. -/
  session_count : ∀ {stack world site s s'}, within stack site → session stack world s s' →
    ∃ inner start, within inner site ∧ grows world start ∧
      session inner start { s with placeholders := 0 :: s.placeholders }
        { s' with placeholders := 0 :: s'.placeholders } ∧
      ∀ later t t', grows start later → session inner later t t' →
        session stack later { t with placeholders := t.placeholders.tail }
          { t' with placeholders := t'.placeholders.tail } ∧
        toCoupling.Figure site (t.placeholders.head?.getD 0) (t'.placeholders.head?.getD 0)
  /-- A closure is followed while its parts are built, reported on, and its node emitted. -/
  relates_closure : ∀ {α β : Type} {stack world site site'} {value : World → α → β → Prop} {m : Build α}
    {m' : Build β} {opened : α → Node} {opened' : β → Node} {finish : α → Node → Node}
    {finish' : β → Node → Node}, within stack site → address site site' →
    (∀ inner start, within inner site → toCoupling.Relates inner start value m m') →
    (∀ v w a b, grows v w → value v a b → value w a b) →
    (∀ v a b, value v a b → toCoupling.NodeAt v site site' (opened a) (opened' b)) →
    (∀ v a b n n', value v a b → toCoupling.NodeAt v site site' n n' →
      toCoupling.NodeAt v site site' (finish a n) (finish' b n')) →
    toCoupling.Relates stack world (fun v _ _ => part v site site')
      (do
        Build.openClosure site
        let a ← m
        let n ← Build.closeClosure (opened a)
        Build.emit (finish a n))
      (do
        Build.openClosure site'
        let b ← m'
        let n ← Build.closeClosure (opened' b)
        Build.emit (finish' b n))

namespace Simulation

open Build

variable {K : Simulation} {α β γ δ : Type} {stack : K.Stack} {world : K.World}

/-! ## Steps in sequence -/

section Sequence

variable {value : K.World → α → β → Prop} {m : Build α} {m' : Build β}

theorem relates_pure {a : α} {b : β} (related : value world a b) :
    K.Relates stack world value (pure a) (pure b) :=
  fun _ _ together => ⟨world, K.grows_refl world, together, related⟩

theorem relates_bind {next : α → Build γ} {next' : β → Build δ} {last : K.World → γ → δ → Prop}
    (first : K.Relates stack world value m m')
    (second : ∀ later a b, K.grows world later → value later a b →
      K.Relates stack later last (next a) (next' b)) :
    K.Relates stack world last (m >>= next) (m' >>= next') :=
  .bind K.grows_trans first second

theorem relates_mono {weaker : K.World → α → β → Prop} (h : K.Relates stack world value m m')
    (weaken : ∀ later a b, K.grows world later → value later a b → weaker later a b) :
    K.Relates stack world weaker m m' := by
  intro s s' together
  refine (h s s' together).mono K.toCoupling ?_
  rintro a t b t' - - ⟨later, grown, after, related⟩
  exact ⟨later, grown, after, weaken later a b grown related⟩

/-- A change of both sessions that keeps them together. -/
theorem relates_modify {change change' : Session → Session}
    {value : K.World → PUnit → PUnit → Prop}
    (kept : ∀ s s', K.session stack world s s' → ∃ later, K.grows world later ∧
      K.session stack later (change s) (change' s') ∧ value later ⟨⟩ ⟨⟩) :
    K.Relates stack world value (modify change) (modify change') := kept

/-- Two steps in frames of their own. -/
theorem relates_inScope (kind : ScopeKind)
    (inner : ∀ inside start, (∀ a, K.within stack a → K.within inside a) → K.grows world start →
      K.Relates inside start value m m') :
    K.Relates stack world value (inScope kind m) (inScope kind m') := by
  intro s s' together
  obtain ⟨inside, start, wider, grown, entered, back⟩ := K.session_enter kind together
  refine (inner inside start wider grown _ _ entered).bind K.toCoupling ?_
  rintro a t b t' ⟨later, grown', after, related⟩
  exact ⟨later, K.grows_trans grown grown', back later t t' grown' after, related⟩

/-- Two steps whose reads are logged. -/
theorem relates_trackReads {site : Address} (near : K.within stack site)
    (inner : ∀ inside start, K.within inside site → K.grows world start →
      K.Relates inside start value m m') :
    K.Relates stack world (fun v x y => value v x.1 y.1 ∧ K.Figure site x.2 y.2)
      (trackReads m) (trackReads m') := by
  intro s s' together
  obtain ⟨inside, start, near', grown, opened, back⟩ := K.session_log near together
  refine (inner inside start near' grown _ _ opened).bind K.toCoupling ?_
  rintro a t b t' ⟨later, grown', after, related⟩
  obtain ⟨closed, reads⟩ := back later t t' grown' after
  exact ⟨later, K.grows_trans grown grown', closed, related, reads⟩

/-- Two steps whose placeholders are counted. -/
theorem relates_trackPlaceholders {site : Address} (near : K.within stack site)
    (inner : ∀ inside start, K.within inside site → K.grows world start →
      K.Relates inside start value m m') :
    K.Relates stack world (fun v x y => value v x.1 y.1 ∧ K.Figure site x.2 y.2)
      (trackPlaceholders m) (trackPlaceholders m') := by
  intro s s' together
  obtain ⟨inside, start, near', grown, opened, back⟩ := K.session_count near together
  refine (inner inside start near' grown _ _ opened).bind K.toCoupling ?_
  rintro a t b t' ⟨later, grown', after, related⟩
  obtain ⟨closed, greatest⟩ := back later t t' grown' after
  exact ⟨later, K.grows_trans grown grown', closed, related, greatest⟩

end Sequence

/-! ## Nodes under construction -/

section Nodes

variable {site site' : Address} {n n' : Node}

theorem nodeAt_make (alike : K.address site site') {kind : NodeKind} (other : kind ≠ .variable) :
    K.NodeAt world site site' (.make site kind) (.make site' kind) :=
  ⟨K.node_make alike other, rfl, rfl⟩

theorem nodeAt_mono {later : K.World} (grown : K.grows world later)
    (h : K.NodeAt world site site' n n') : K.NodeAt later site site' n n' :=
  ⟨K.node_mono grown h.1, h.2⟩

theorem nodeAt_address (h : K.NodeAt world site site' n n') : K.address site site' := by
  obtain ⟨related, rfl, rfl⟩ := h
  exact K.node_address related

theorem nodeAt_varied (varied : K.varied site) (alike : K.address site site')
    (first : n.address = site) (second : n'.address = site') : K.NodeAt world site site' n n' := by
  subst first second
  exact ⟨K.node_varied varied alike, rfl, rfl⟩

theorem nodeAt_withTags (h : K.NodeAt world site site' n n') (tags : List NodeTag) :
    K.NodeAt world site site' (n.withTags tags) (n'.withTags tags) :=
  ⟨K.node_withTags tags h.1, h.2⟩

theorem nodeAt_declare (h : K.NodeAt world site site' n n') (role : Role) :
    K.NodeAt world site site' (n.declare role) (n'.declare role) :=
  ⟨K.node_declare role h.1, h.2⟩

/-- A property may differ where the runs may. -/
theorem nodeAt_set (h : K.NodeAt world site site' n n') (name : String) {figure figure' : Property}
    (same : K.Figure site figure figure') (other : name ∉ Node.placeNames) :
    K.NodeAt world site site' (n.set name figure) (n'.set name figure') := by
  cases same with
  | inl same =>
      subst same
      exact ⟨K.node_set name _ other h.1, h.2⟩
  | inr varied => exact nodeAt_varied varied (nodeAt_address h) h.2.1 h.2.2

/-- A text becomes a property if there is one. -/
theorem nodeAt_optionalText (h : K.NodeAt world site site' n n') (name : String)
    (text : Option String) (other : name ∉ Node.placeNames) :
    K.NodeAt world site site'
      (match text with
        | some value => n.set name value
        | none => n)
      (match text with
        | some value => n'.set name value
        | none => n') := by
  cases text with
  | none => exact h
  | some value => exact nodeAt_set h name (.inl rfl) other

theorem nodeAt_withPosition (h : K.NodeAt world site site' n n') {position position' : Option Position}
    (alike : K.like.position position position' ∨ K.varied site) :
    K.NodeAt world site site' (n.withPosition position) (n'.withPosition position') := by
  cases alike with
  | inl alike => exact ⟨K.node_withPosition h.1 alike, by simp [h.2.1], by simp [h.2.2]⟩
  | inr varied =>
      exact nodeAt_varied varied (nodeAt_address h) (by simp [h.2.1]) (by simp [h.2.2])

theorem nodeAt_relate (h : K.NodeAt world site site' n n') (role : Role) {a a' : Address}
    (part : K.part world a a') : K.NodeAt world site site' (n.relate role a) (n'.relate role a') :=
  ⟨K.node_relate role h.1 part, h.2⟩

theorem nodeAt_relateAll (h : K.NodeAt world site site' n n') (role : Role)
    {targets targets' : List Address} (parts : List.Forall₂ (K.part world) targets targets') :
    K.NodeAt world site site' (n.relateAll role targets) (n'.relateAll role targets') := by
  induction parts generalizing n n' with
  | nil => exact h
  | cons part _ ih => exact ih (nodeAt_relate h role part)

theorem figure_refl {α : Type} (a : α) : K.Figure site a a := .inl rfl

theorem figure_map {α β : Type} (f : α → β) {a a' : α} (same : K.Figure site a a') :
    K.Figure site (f a) (f a') := same.imp (congrArg f) id

end Nodes

/-! ## Primitive steps -/

section Steps

variable {site site' : Address} {value : K.World → α → β → Prop} {n n' : Node}

theorem relates_malformed (alike : K.address site site') (what : Malformation) :
    K.Relates stack world value (malformed site what) (malformed site' what) :=
  .throw (K.fails_malformed what alike)

/-- Nothing runs after a refusal. -/
theorem relates_refused (alike : K.address site site') (what : Malformation) {next : γ → Build α}
    {next' : δ → Build β} :
    K.Relates stack world value (malformed site what >>= next) (malformed site' what >>= next') :=
  fun _ _ _ => K.fails_malformed what alike

theorem relates_tooDeep (alike : K.address site site') :
    K.Relates stack world value (tooDeep site) (tooDeep site') :=
  fun _ _ _ => K.fails_deep alike

/-- Where the runs may go different ways, every success must be accounted for and no failure. -/
theorem relates_varied {m : Build α} {m' : Build β} (varied : K.varied site)
    (done : ∀ s s' a t b t', K.session stack world s s' → m.Yields K.limits s a t →
      m'.Yields K.limits' s' b t' →
      ∃ later, K.grows world later ∧ K.session stack later t t' ∧ value later a b) :
    K.Relates stack world value m m' :=
  .ofYields (K.varied_cut varied) (K.varied_lost varied) done

/-- An emitted node stands where it was emitted, as what it is. -/
theorem relates_emitAs (near : K.within stack site) (h : K.NodeAt world site site' n n') :
    K.Relates stack world
      (fun v _ _ => K.part v site site' ∧ (n.kind = .binarySegment → K.segment v site site') ∧
        ∀ name position position', n.kind = .variablePattern → n.text? "name" = some name →
          K.like.position position position' →
          K.binding v ⟨name, some site, position⟩ ⟨name, some site', position'⟩)
      (emit n) (emit n') := by
  obtain ⟨related, rfl, rfl⟩ := h
  intro s s' together
  obtain ⟨later, grown, after, standing⟩ := K.session_emit near related together
  exact ⟨later, grown, after, standing⟩

theorem relates_emit (near : K.within stack site) (h : K.NodeAt world site site' n n') :
    K.Relates stack world (fun v _ _ => K.part v site site') (emit n) (emit n') :=
  relates_mono (relates_emitAs near h) fun _ _ _ _ standing => standing.1

theorem relates_unknown (near : K.within stack site) (alike : K.address site site') (tag : String)
    {position position' : Option Position} (positions : K.like.position position position') :
    K.Relates stack world (fun v _ _ => K.part v site site') (unknown site tag position)
      (unknown site' tag position') := by
  have made : K.NodeAt world site site' (.make site .unknownExpression)
      (.make site' .unknownExpression) := nodeAt_make alike (by decide)
  have node := nodeAt_withPosition (nodeAt_set (nodeAt_withTags made [.expression]) "original_tag"
    (figure_refl (.text tag)) (by decide)) (.inl positions)
  refine relates_bind (relates_emit near node) fun later _ _ _ part => ?_
  exact relates_modify fun s s' together =>
    ⟨later, K.grows_refl later, K.session_diagnose _ tag alike positions together, part⟩

/-- The variables that give sizes, each with its segment in both runs. -/
def Sizes (K : Simulation) (stack : K.Stack) (world : K.World) :
    List (String × Address) → List (String × Address) → Prop :=
  List.Forall₂ fun size size' => size.1 = size'.1 ∧ K.within stack size.2 ∧
    K.segment world size.2 size'.2

theorem relates_readAll {sizes sizes' : List (String × Address)} {position position' : Option Position}
    (alike : K.Sizes stack world sizes sizes') (positions : K.like.position position position') :
    K.Relates stack world (fun _ _ _ => True) (readAll sizes position) (readAll sizes' position') := by
  refine relates_modify fun s s' together => ⟨world, K.grows_refl world, ?_, trivial⟩
  induction alike generalizing s s' with
  | nil => exact together
  | @cons size size' _ _ first _ ih =>
      obtain ⟨named, near, segment⟩ := first
      refine ih _ _ ?_
      dsimp only
      rw [← named]
      exact K.session_size size.1 near segment positions together

theorem relates_bindAll {bindings bindings' : Bindings} {reads reads' : Option (OrderedSet String)}
    (near : K.within stack site) (alike : List.Forall₂ (K.binding world) bindings bindings')
    (figures : Option.Rel (K.Figure site) reads reads') :
    K.Relates stack world (fun _ _ _ => True) (bindAll bindings reads) (bindAll bindings' reads') := by
  refine relates_modify fun s s' together => ⟨world, K.grows_refl world, ?_, trivial⟩
  induction alike generalizing s s' with
  | nil => exact together
  | cons first _ ih => exact ih _ _ (K.session_bind near first figures together)

theorem relates_boundByClosure (names : List String) :
    K.Relates stack world (fun _ _ _ => True) (boundByClosure names) (boundByClosure names) :=
  relates_modify fun _ _ together => ⟨world, K.grows_refl world, K.session_bound names together, trivial⟩

theorem names_eq {bindings bindings' : Bindings}
    (alike : List.Forall₂ (K.binding world) bindings bindings') : bindings.names = bindings'.names := by
  induction alike with
  | nil => rfl
  | cons first _ ih => exact congrArg₂ List.cons (K.binding_name first) ih

theorem binds_eq {bindings bindings' : Bindings}
    (alike : List.Forall₂ (K.binding world) bindings bindings') (name : String) :
    bindings.binds name = bindings'.binds name := by
  have through : ∀ bs : Bindings, bs.binds name = bs.names.any (· == name) := by
    intro bs
    simp [Bindings.binds, Bindings.names, List.any_map, Function.comp_def]
  rw [through, through, names_eq alike]

theorem bindings_mono {later : K.World} (grown : K.grows world later) {bindings bindings' : Bindings}
    (alike : List.Forall₂ (K.binding world) bindings bindings') :
    List.Forall₂ (K.binding later) bindings bindings' :=
  alike.imp fun _ _ => K.binding_mono grown

end Steps

/-! ## Parts of a node -/

section Parts

variable {site site' : Address} {role : Role} {alike : Address → α → α → Prop} {xs ys : List α}

/-- Parts at numbered addresses, with related values handed on. -/
theorem relates_foldParts {build : Address → α → β → Build β} {build' : Address → α → γ → Build γ}
    {index : Nat} {b : β} {c : γ} (value : K.World → β → γ → Prop) (near : K.within stack site)
    (at' : K.address site site')
    (step : ∀ later address address' x y b c, K.grows world later → K.within stack address →
      K.address address address' → alike address x y → value later b c →
      K.Relates stack later (fun v b c => K.part v address address' ∧ value v b c)
        (build address x b) (build' address' y c))
    (each : Each alike site role index xs ys) (start : value world b c) :
    K.Relates stack world (fun v p q => List.Forall₂ (K.part v) p.1 q.1 ∧ value v p.2 q.2)
      (foldParts site role build index xs b) (foldParts site' role build' index ys c) := by
  induction each generalizing world b c with
  | nil => exact relates_pure ⟨.nil, start⟩
  | @cons index x y xs ys first _ ih =>
      refine relates_bind (step world _ _ x y b c (K.grows_refl world) (K.within_indexed _ _ near)
        (K.address_indexed _ _ at') first start) fun v b c grown here => ?_
      refine relates_bind (ih (fun later address address' x y b c further =>
        step later address address' x y b c (K.grows_trans grown further)) here.2)
        fun u p q further rest => ?_
      exact relates_pure ⟨.cons (K.part_mono further here.1) rest.1, rest.2⟩

/-- Parts at numbered addresses, built each by itself. -/
theorem relates_eachPart {build build' : Address → α → Build Unit} (near : K.within stack site)
    (at' : K.address site site')
    (step : ∀ later address address' x y, K.grows world later → K.within stack address →
      K.address address address' → alike address x y →
      K.Relates stack later (fun v _ _ => K.part v address address') (build address x)
        (build' address' y))
    (each : Each alike site role 0 xs ys) :
    K.Relates stack world (fun v p q => List.Forall₂ (K.part v) p q) (eachPart site role build xs)
      (eachPart site' role build' ys) := by
  refine relates_bind (relates_foldParts (fun _ _ _ => True) near at'
    (fun later address address' x y _ _ grown within at'' related _ =>
      relates_mono (step later address address' x y grown within at'' related)
        fun _ _ _ _ part => ⟨part, trivial⟩) each trivial) fun v p q _ parts => ?_
  exact relates_pure parts.1

end Parts

end Simulation

end SyntaxGraph
