import SyntaxGraph.Proofs.Contributions
import SyntaxGraph.Proofs.Seeds

/-!
# Clauses are alternatives

The clauses of a closure are built one after the other into one tracker, each in a frame of its own.
What a clause contributes to the notes does not depend on the clauses built before it: it opens its
frames under other numbers and stands at another address, but the frames around it are the same.
So a closure with its clauses in another order gathers the same contributions in another order, and
its report is the same but for one thing. A match of a name that no frame binds is heeded only if the
name was read before, in whatever clause, so that the mutation of a captured name without a supply
does depend on the order.

One clause built after different clauses runs side by side with itself. Addresses and nodes are not
compared; the frames that both runs have opened bind the same names under different numbers.
-/

namespace SyntaxGraph

/-! ## Rows of frames inside of the same ones -/

namespace Scopes

variable {g g' : Scopes} {name : String} {scope scope' p p' : ScopeId} {outer : List (ScopeId × Frame)}
  {ids : List (ScopeId × ScopeId)}

/-- Two rows of frames outwards. Those opened inside of the frames `outer`, which are in both, bind the
same names. -/
def RowsAlike (ids : List (ScopeId × ScopeId)) (outer : List (ScopeId × Frame)) (g g' : Scopes)
    (scope scope' : ScopeId) : Prop :=
  ∃ inner inner', Along FrameAlike ids inner inner' ∧ g.Walk scope (inner ++ outer) ∧
    g'.Walk scope' (inner' ++ outer)

theorem lookupAlong_append (inner outer : List (ScopeId × Frame)) :
    lookupAlong name (inner ++ outer) = (lookupAlong name inner).or (lookupAlong name outer) :=
  List.findSome?_append

namespace RowsAlike

theorem standing {q : ScopeId × ScopeId} (rows : RowsAlike (q :: ids) outer g g' scope scope') :
    scope.index < g.size ∧ scope'.index < g'.size := by
  obtain ⟨inner, inner', along, walk, walk'⟩ := rows
  cases along with
  | cons _ _ => exact ⟨walk.standing (List.cons_ne_nil _ _), walk'.standing (List.cons_ne_nil _ _)⟩

/-- A name is bound somewhere in both rows or in neither, and in both if a frame around binds it. -/
theorem known {s s' : Session} {q : ScopeId × ScopeId}
    (rows : RowsAlike (q :: ids) outer s.scopes s'.scopes s.current s'.current)
    (nested : s.scopes.Nested) (nested' : s'.scopes.Nested) (name : String) :
    (s.definingScope? name).isSome = (s'.definingScope? name).isSome ∧
      ((lookupAlong name outer).isSome = true → (s.definingScope? name).isSome = true) := by
  obtain ⟨standing, standing'⟩ := rows.standing
  obtain ⟨inner, inner', along, walk, walk'⟩ := rows
  unfold Session.definingScope?
  rw [Option.isSome_map, Option.isSome_map, walk.lookup nested standing, walk'.lookup nested' standing',
    lookupAlong_append, lookupAlong_append, Option.isSome_or, Option.isSome_or,
    FrameAlike.lookupAlong along]
  exact ⟨rfl, fun around => by rw [around, Bool.or_true]⟩

/-- A use of one name is the same to corresponding frames. -/
theorem outerUses_eq {s s' : Session} {use use' : NameUse}
    (rows : RowsAlike ids outer s.scopes s'.scopes s.current s'.current) (nested : s.scopes.Nested)
    (nested' : s'.scopes.Nested) (member : (p, p') ∈ ids) (named : use.name = use'.name)
    (flags : use.readsSelf? = use'.readsSelf?) :
    (Moment.mk s use).outerUses p = (Moment.mk s' use').outerUses p' ∧
      ∀ outside ∈ (Moment.mk s use).outerUses p,
        (lookupAlong outside.name outer).isSome = true → outside.known = true := by
  have here : (Moment.mk s use).isLocal p = (Moment.mk s' use').isLocal p' := by
    obtain ⟨inner, inner', along, walk, walk'⟩ := rows
    exact isLocal_eq_of_alike along walk walk' nested nested' member named
  obtain ⟨q, rest, rfl⟩ := List.exists_cons_of_ne_nil (List.ne_nil_of_mem member)
  obtain ⟨same, around⟩ := rows.known nested nested' use.name
  unfold Moment.outerUses
  rw [here]
  split
  · exact ⟨rfl, fun _ none => (nomatch none)⟩
  · constructor
    · dsimp only [Moment.name]
      rw [flags, same, named]
    · intro outside only
      rw [List.mem_singleton.mp only]
      exact around

/-- A frame opened inside of both. -/
theorem add {q : ScopeId × ScopeId} (rows : RowsAlike (q :: ids) outer g g' scope scope')
    (nested : g.Nested) (nested' : g'.Nested) (kind : ScopeKind) :
    RowsAlike ((⟨g.size⟩, ⟨g'.size⟩) :: q :: ids) outer (g.add scope kind) (g'.add scope' kind) ⟨g.size⟩
      ⟨g'.size⟩ := by
  obtain ⟨standing, standing'⟩ := rows.standing
  obtain ⟨inner, inner', along, walk, walk'⟩ := rows
  refine ⟨_, _, .cons ?_ along, walk.add nested standing kind, walk'.add nested' standing' kind⟩
  exact ⟨rfl, rfl, fun _ => rfl⟩

/-- Back in the frames around. -/
theorem tail {q r : ScopeId × ScopeId} (rows : RowsAlike (q :: r :: ids) outer g g' scope scope') :
    RowsAlike (r :: ids) outer g g' r.1 r.2 := by
  obtain ⟨inner, inner', along, walk, walk'⟩ := rows
  cases along with
  | cons _ rest =>
      refine ⟨_, _, rest, ?_⟩
      cases rest with
      | cons here _ => exact ⟨here.first ▸ walk.tail, here.second ▸ walk'.tail⟩

/-- Bindings of one name in the innermost frames. -/
theorem bind {q : ScopeId × ScopeId} {b b' : Binding}
    (rows : RowsAlike (q :: ids) outer g g' scope scope') (nested : g.Nested) (nested' : g'.Nested)
    (named : b.name = b'.name) :
    RowsAlike (q :: ids) outer (g.bind scope b) (g'.bind scope' b') scope scope' := by
  obtain ⟨inner, inner', along, walk, walk'⟩ := rows
  cases along with
  | @cons _ entry entry' _ rest rest' here others =>
      obtain ⟨found, inside⟩ := entry
      obtain ⟨found', inside'⟩ := entry'
      obtain rfl : found = scope := walk.head_eq
      obtain rfl : found' = scope' := walk'.head_eq
      refine ⟨_ :: rest, _ :: rest', .cons ?_ others, walk.bind nested b, walk'.bind nested' b'⟩
      refine ⟨here.first, here.second, fun name => ?_⟩
      dsimp only
      rw [OrderedMap.get?_insert, OrderedMap.get?_insert, named]
      split
      · rfl
      · exact here.names name

end RowsAlike

end Scopes

/-! ## Sessions of one clause after different ones -/

/-- What following a closure starts from. -/
def Session.opening (s : Session) (site : Address) : OpenClosure :=
  ⟨.start site (s.enter .closure).current, s.current⟩

/-- The frames opened since the closure and the open closures as they were, innermost first. -/
structure Alternates where
  frames : List (ScopeId × ScopeId)
  closures : List (OpenClosure × OpenClosure)
  /-- The frames of open closures are open. -/
  held : ∀ c ∈ closures, (c.1.tracker.scope, c.2.tracker.scope) ∈ frames

namespace Alternates

def enter (stack : Alternates) (frame : ScopeId × ScopeId) : Alternates :=
  { stack with
    frames := frame :: stack.frames
    held := fun c member => List.mem_cons_of_mem _ (stack.held c member) }

def openClosure (stack : Alternates) (c : OpenClosure × OpenClosure) : Alternates where
  frames := (c.1.tracker.scope, c.2.tracker.scope) :: stack.frames
  closures := c :: stack.closures
  held := List.forall_mem_cons.mpr
    ⟨List.mem_cons_self, fun other member => List.mem_cons_of_mem _ (stack.held other member)⟩

/-- Closures in both runs that are the given ones, after a while. -/
structure Since (before : OpenClosure × OpenClosure) (c c' : OpenClosure) : Prop where
  scope : c.tracker.scope = before.1.tracker.scope
  scope' : c'.tracker.scope = before.2.tracker.scope
  enclosing : c.enclosing = before.1.enclosing
  enclosing' : c'.enclosing = before.2.enclosing

/-- Both runs have contributed the same to the notes on a closure. Names that a frame around binds were
known whenever they were used. -/
def Gathered (outer : List (ScopeId × Frame)) (before : OpenClosure × OpenClosure)
    (c c' : OpenClosure) : Prop :=
  ∃ uses names, before.1.tracker.Gathers uses names c.tracker ∧
    before.2.tracker.Gathers uses names c'.tracker ∧
    ∀ use ∈ uses, (Scopes.lookupAlong use.name outer).isSome = true → use.known = true

theorem Gathered.more {outer : List (ScopeId × Frame)} {before : OpenClosure × OpenClosure}
    {c c' d d' : OpenClosure} {uses : List OuterUse} {names : List String}
    (gathered : Gathered outer before c c') (first : c.tracker.Gathers uses names d.tracker)
    (second : c'.tracker.Gathers uses names d'.tracker)
    (known : ∀ use ∈ uses, (Scopes.lookupAlong use.name outer).isSome = true → use.known = true) :
    Gathered outer before d d' := by
  obtain ⟨earlier, bound, one, two, knew⟩ := gathered
  exact ⟨_, _, one.trans first, two.trans second, List.forall_mem_append.mpr ⟨knew, known⟩⟩

/-- What two sessions have in common whatever their frames are. -/
structure Outline (stack : Alternates) (s s' : Session) : Prop where
  current : stack.frames.head? = some (s.current, s'.current)
  closures : Along Since stack.closures s.closures s'.closures
  logs : s.readLogs = s'.readLogs
  counts : s.placeholders = s'.placeholders

/-- What they have in common as long as frames can be told apart. -/
structure Content (outer : List (ScopeId × Frame)) (stack : Alternates) (s s' : Session) : Prop where
  nested : s.scopes.Nested
  nested' : s'.scopes.Nested
  rows : Scopes.RowsAlike stack.frames outer s.scopes s'.scopes s.current s'.current
  notes : Along (Gathered outer) stack.closures s.closures s'.closures

/-- Sessions of two builds of one clause inside of the same frames. -/
structure Together (outer : List (ScopeId × Frame)) (stack : Alternates) (s s' : Session) : Prop where
  outline : stack.Outline s s'
  content : s.scopes.size ≤ 2 ^ 32 → s'.scopes.size ≤ 2 ^ 32 → stack.Content outer s s'

variable {outer : List (ScopeId × Frame)} {stack : Alternates} {s s' t t' : Session}

theorem Outline.rows_cons {g g' : Scopes} (outline : stack.Outline s s')
    (rows : Scopes.RowsAlike stack.frames outer g g' s.current s'.current) :
    ∃ q rest, stack.frames = q :: rest ∧
      Scopes.RowsAlike (q :: rest) outer g g' s.current s'.current := by
  obtain ⟨rest, top⟩ := List.head?_eq_some_iff.mp outline.current
  exact ⟨_, rest, top, top ▸ rows⟩

/-- A use of a name changes no more than notes. -/
theorem Outline.followAll (outline : stack.Outline s s') (moments moments' : List Moment) :
    Along Since stack.closures
      (s.closures.map fun c => { c with tracker := c.tracker.followAll moments })
      (s'.closures.map fun c => { c with tracker := c.tracker.followAll moments' }) :=
  outline.closures.map fun _ _ _ _ since =>
    ⟨Tracker.followAll_scope.trans since.scope, Tracker.followAll_scope.trans since.scope',
      since.enclosing, since.enclosing'⟩

/-- Both runs contribute the same by the use of a name. -/
theorem Content.note (content : stack.Content outer s s') (outline : stack.Outline s s')
    {use use' : NameUse} (named : use.name = use'.name) (flags : use.readsSelf? = use'.readsSelf?) :
    Along (Gathered outer) stack.closures
      (s.closures.map fun c => { c with tracker := c.tracker.followAll [⟨s, use⟩] })
      (s'.closures.map fun c => { c with tracker := c.tracker.followAll [⟨s', use'⟩] }) := by
  refine (outline.closures.and content.notes).map ?_
  rintro before member c c' ⟨since, gathered⟩
  have inFrames : (c.tracker.scope, c'.tracker.scope) ∈ stack.frames := by
    rw [since.scope, since.scope']
    exact stack.held before member
  obtain ⟨same, known⟩ :=
    content.rows.outerUses_eq content.nested content.nested' inFrames named flags
  refine gathered.more (c.tracker.gathers_follow ⟨s, use⟩) ?_ known
  rw [same]
  exact c'.tracker.gathers_follow ⟨s', use'⟩

/-! ## Steps keep the builds together -/

namespace Together

theorem emit (together : Together outer stack s s') (n n' : Node) :
    Together outer stack (s.emit n) (s'.emit n') := by
  obtain ⟨outline, content⟩ := together
  exact ⟨{ outline with }, fun small small' => { content small small' with }⟩

theorem diagnose (together : Together outer stack s s') (d d' : Diagnostic) :
    Together outer stack (s.diagnose d) (s'.diagnose d') := by
  obtain ⟨outline, content⟩ := together
  exact ⟨{ outline with }, fun small small' => { content small small' with }⟩

/-- Logs and counts matter to nothing else. -/
theorem record (together : Together outer stack s s') {logs logs' : List (OrderedSet String)}
    {counts counts' : List Int64} (logged : logs = logs') (counted : counts = counts') :
    Together outer stack { s with readLogs := logs, placeholders := counts }
      { s' with readLogs := logs', placeholders := counts' } := by
  obtain ⟨outline, content⟩ := together
  exact ⟨{ outline with logs := logged, counts := counted },
    fun small small' => { content small small' with }⟩

theorem readSymbol (together : Together outer stack s s') (name : String)
    (reference reference' : Address) (position position' : Option Position) :
    Together outer stack (s.readSymbol name reference position)
      (s'.readSymbol name reference' position') := by
  obtain ⟨outline, content⟩ := together
  refine ⟨⟨outline.current, ?_, congrArg (List.map (OrderedSet.add · name)) outline.logs, outline.counts⟩,
    fun small small' => ?_⟩
  · rw [Session.readSymbol_closures, Session.readSymbol_closures]
    exact outline.followAll [⟨s, .read name reference position⟩] [⟨s', .read name reference' position'⟩]
  · have before := content small small'
    refine ⟨before.nested, before.nested', before.rows, ?_⟩
    rw [Session.readSymbol_closures, Session.readSymbol_closures]
    exact before.note outline rfl rfl

theorem bindSymbol (together : Together outer stack s s') (reads : Option (OrderedSet String))
    {b b' : Binding} (named : b.name = b'.name) :
    Together outer stack (s.bindSymbol reads b) (s'.bindSymbol reads b') := by
  obtain ⟨outline, content⟩ := together
  refine ⟨⟨outline.current, ?_, outline.logs, outline.counts⟩, fun small small' => ?_⟩
  · rw [Session.bindSymbol_closures, Session.bindSymbol_closures]
    exact outline.followAll _ _
  · replace small : (s.scopes.bind s.current b).size ≤ 2 ^ 32 := small
    replace small' : (s'.scopes.bind s'.current b').size ≤ 2 ^ 32 := small'
    rw [Scopes.size_bind] at small small'
    have before := content small small'
    refine ⟨before.nested.bind, before.nested'.bind, ?_, ?_⟩
    · obtain ⟨q, rest, top, rows⟩ := outline.rows_cons before.rows
      rw [top]
      exact rows.bind before.nested before.nested' named
    · rw [Session.bindSymbol_closures, Session.bindSymbol_closures]
      cases reads with
      | none => exact before.notes.map fun _ _ _ _ gathered => gathered
      | some reads =>
          refine before.note outline named (congrArg some ?_)
          rw [named]

theorem boundByClosure (together : Together outer stack s s') (names : List String) :
    Together outer stack (s.boundByClosure names) (s'.boundByClosure names) := by
  obtain ⟨outline, content⟩ := together
  rw [Session.boundByClosure_eq, Session.boundByClosure_eq]
  refine ⟨{ outline with closures := ?_ }, fun small small' => ?_⟩
  · exact outline.closures.modifyHead fun _ _ _ since =>
      ⟨since.scope, since.scope', since.enclosing, since.enclosing'⟩
  · have before := content small small'
    refine { before with notes := before.notes.modifyHead fun _ _ _ gathered => ?_ }
    exact gathered.more (Tracker.gathers_addBound _ names) (Tracker.gathers_addBound _ names)
      fun _ none => (nomatch none)

theorem enter (together : Together outer stack s s') (kind : ScopeKind) :
    Together outer (stack.enter ((s.enter kind).current, (s'.enter kind).current)) (s.enter kind)
      (s'.enter kind) := by
  obtain ⟨outline, content⟩ := together
  refine ⟨{ outline with current := rfl }, fun small small' => ?_⟩
  replace small : (s.scopes.add s.current kind).size ≤ 2 ^ 32 := small
  replace small' : (s'.scopes.add s'.current kind).size ≤ 2 ^ 32 := small'
  rw [Scopes.size_add] at small small'
  have before := content (by omega) (by omega)
  obtain ⟨q, rest, top, rows⟩ := outline.rows_cons before.rows
  obtain ⟨standing, standing'⟩ := rows.standing
  refine ⟨before.nested.add standing, before.nested'.add standing', ?_, before.notes⟩
  rw [show (s.enter kind).current = ⟨s.scopes.size⟩ from Scopes.next_eq (by omega),
    show (s'.enter kind).current = ⟨s'.scopes.size⟩ from Scopes.next_eq (by omega)]
  show Scopes.RowsAlike (_ :: stack.frames) outer _ _ _ _
  rw [top]
  exact rows.add before.nested before.nested' kind

/-- Back in the frames around, the frames opened inside are out of sight. -/
theorem rows_leave {frame : ScopeId × ScopeId} {g g' : Scopes} {scope scope' : ScopeId}
    (outline : stack.Outline s s')
    (rows : Scopes.RowsAlike (frame :: stack.frames) outer g g' scope scope') :
    Scopes.RowsAlike stack.frames outer g g' s.current s'.current := by
  obtain ⟨rest, top⟩ := List.head?_eq_some_iff.mp outline.current
  rw [top] at rows ⊢
  exact rows.tail

theorem leave {frame : ScopeId × ScopeId} (together : Together outer stack s s')
    (inner : Together outer (stack.enter frame) t t') :
    Together outer stack { t with current := s.current } { t' with current := s'.current } := by
  refine ⟨{ inner.outline with current := together.outline.current }, fun small small' => ?_⟩
  have after := inner.content small small'
  have rows := rows_leave together.outline after.rows
  exact { after with rows := rows }

theorem openClosure (together : Together outer stack s s') (site site' : Address) :
    Together outer (stack.openClosure (s.opening site, s'.opening site')) (s.openClosure site)
      (s'.openClosure site') := by
  obtain ⟨outline, content⟩ := together.enter .closure
  refine ⟨⟨rfl, .cons ⟨rfl, rfl, rfl, rfl⟩ outline.closures, outline.logs, outline.counts⟩,
    fun small small' => ?_⟩
  have inside := content small small'
  exact ⟨inside.nested, inside.nested', inside.rows,
    .cons ⟨[], [], .refl _, .refl _, fun _ none => (nomatch none)⟩ inside.notes⟩

/-- A closure is reported on in both runs; what it has noted is not compared. -/
theorem close {limits : Limits} {site site' : Address} (together : Together outer stack s s')
    (inner : Together outer (stack.openClosure (s.opening site, s'.opening site')) t t')
    {n n' r r' : Node} {u u' : Session} (first : (Build.closeClosure n).Yields limits t r u)
    (second : (Build.closeClosure n').Yields limits t' r' u') : Together outer stack u u' := by
  obtain ⟨outline, content⟩ := inner
  have closures := outline.closures
  generalize top : t.closures = these at closures
  generalize top' : t'.closures = those at closures
  cases closures with
  | @cons _ c c' _ others others' since rest =>
      obtain ⟨report, -, -, rfl⟩ := Build.yields_closeClosure top first
      obtain ⟨report', -, -, rfl⟩ := Build.yields_closeClosure top' second
      have current : c.enclosing = s.current := since.enclosing
      have current' : c'.enclosing = s'.current := since.enclosing'
      refine ⟨⟨?_, rest, outline.logs, outline.counts⟩, fun small small' => ?_⟩
      · dsimp only
        rw [current, current']
        exact together.outline.current
      · obtain ⟨nested, nested', rows, notes⟩ := content small small'
        rw [top, top'] at notes
        cases notes with
        | cons _ notes =>
            refine ⟨nested, nested', ?_, notes⟩
            dsimp only
            rw [current, current']
            exact rows_leave together.outline rows

end Together

end Alternates

/-! ## The simulation -/

/-- Two builds of one tree at whatever addresses, inside of the same frames. -/
def Coupling.alternates (limits : Limits) (outer : List (ScopeId × Frame)) : Coupling where
  Stack := Alternates
  World := Unit
  grows _ _ := True
  limits := limits
  limits' := limits
  like := .same
  session stack _ := stack.Together outer
  address _ _ := True
  within _ _ := True
  node _ _ _ := True
  part _ _ _ := True
  segment _ _ _ := True
  binding _ b b' := b.name = b'.name
  room := Eq
  varied _ := False
  cut _ := True
  lost _ := True
  fault _ _ := True

/-- Every primitive step keeps the two builds together. -/
def Simulation.alternates (limits : Limits) (outer : List (ScopeId × Frame)) : Simulation where
  toCoupling := .alternates limits outer
  grows_refl _ := trivial
  grows_trans _ _ := trivial
  node_mono _ := id
  part_mono _ := id
  segment_mono _ := id
  binding_mono _ := id
  address_child _ := id
  address_indexed _ _ := id
  within_child _ := id
  within_indexed _ _ := id
  node_address _ := trivial
  node_make _ _ := trivial
  node_set _ _ _ := id
  node_withTags _ := id
  node_withPosition alike _ := alike
  node_declare _ := id
  node_relate _ alike _ := alike
  node_varied := False.elim
  varied_indexed := id
  varied_cut := False.elim
  varied_lost := False.elim
  binding_name := id
  fails_malformed _ _ := .inl trivial
  fails_arity _ _ := .inl trivial
  fails_deep _ := .inl trivial
  room_pred := by
    rintro n - rfl
    rfl
  room_zero := by
    intro n' same
    cases same
  room_succ := by
    intro n same
    cases same
  relates_fanout what count _ :=
    .fanout (fun _ => trivial) (fun _ => trivial) trivial _ _ what count
  relates_placeholder := by
    intro stack world a a' source source' index _ _ _
    refine .ofYields (fun _ => trivial) (fun _ => trivial) fun s s' _ t _ t' together first second => ?_
    have outline : stack.Outline s s' := together.outline
    obtain ⟨greatest, rest, seen, rfl⟩ := Build.yields_placeholder first
    obtain ⟨greatest', rest', seen', rfl⟩ := Build.yields_placeholder second
    have counts := outline.counts
    rw [seen, seen'] at counts
    obtain ⟨rfl, rfl⟩ := List.cons.inj counts
    exact ⟨(), trivial, (Alternates.Together.record together outline.logs rfl).emit _ _, trivial⟩
  session_emit := by
    intro stack world n n' s s' _ _ together
    exact ⟨(), trivial, together.emit n n', trivial, fun _ => trivial, fun _ _ _ _ _ _ => rfl⟩
  session_symbol := by
    intro stack world a a' source source' s s' name _ _ _ together
    exact ⟨(), trivial, (together.readSymbol name a a' _ _).emit _ _, trivial⟩
  session_size := by
    intro stack world a a' position position' s s' name _ _ _ together
    exact together.readSymbol name a a' position position'
  session_bind := by
    intro stack world site reads reads' b b' s s' _ named figures together
    obtain rfl : reads = reads' := Coupling.eq_of_figures id figures
    exact together.bindSymbol reads named
  session_bound names together := together.boundByClosure names
  session_diagnose _ _ _ _ together := together.diagnose _ _
  session_enter := by
    intro stack world s s' kind together
    exact ⟨Alternates.enter stack ((s.enter kind).current, (s'.enter kind).current), (),
      fun _ _ => trivial, trivial, together.enter kind, fun _ _ _ _ inner => together.leave inner⟩
  session_log := by
    intro stack world site s s' _ together
    have outline : stack.Outline s s' := together.outline
    refine ⟨stack, (), trivial, trivial, together.record (congrArg (List.cons ∅) outline.logs) outline.counts,
      fun _ t t' _ inner => ?_⟩
    have outline : stack.Outline t t' := inner.outline
    exact ⟨inner.record (congrArg List.tail outline.logs) outline.counts,
      .inl (congrArg (fun logs => logs.head?.getD ∅) outline.logs)⟩
  session_count := by
    intro stack world site s s' _ together
    have outline : stack.Outline s s' := together.outline
    refine ⟨stack, (), trivial, trivial, together.record outline.logs (congrArg (List.cons 0) outline.counts),
      fun _ t t' _ inner => ?_⟩
    have outline : stack.Outline t t' := inner.outline
    exact ⟨inner.record outline.logs (congrArg List.tail outline.counts),
      .inl (congrArg (fun counts => counts.head?.getD 0) outline.counts)⟩
  relates_closure := by
    intro α β stack world site site' value m m' opened opened' finish finish' _ _ inner _ _ _
    refine .ofYields (fun _ => trivial) (fun _ => trivial) fun s s' _ t _ t' together first second => ?_
    obtain ⟨a, v, n, w, parts, closed, rfl⟩ := Build.yields_closure first
    obtain ⟨b, v', n', w', parts', closed', rfl⟩ := Build.yields_closure second
    obtain ⟨later, -, inside, -⟩ := (inner _ world trivial).done
      (Alternates.Together.openClosure together site site') parts parts'
    exact ⟨(), trivial, (Alternates.Together.close together inside closed closed').emit _ _, trivial⟩

/-! ## Sessions between clauses -/

/-- A walk goes on from the frame around its first one. -/
theorem Scopes.Walk.around {g : Scopes} {scope parent : ScopeId} {frame : Frame}
    {path : List (ScopeId × Frame)} (walk : g.Walk scope ((scope, frame) :: path))
    (around : frame.parent = some parent) : g.Walk parent path := by
  cases walk with
  | outermost _ last =>
      rw [last] at around
      cases around
  | further _ up rest =>
      rw [up] at around
      exact Option.some.inj around ▸ rest

/-- A session in which nothing is open but one closure, whose frame is the current one and empty. -/
structure Between (scope enclosing : ScopeId) (outer : List (ScopeId × Frame)) (s : Session) : Prop where
  current : s.current = scope
  nested : s.scopes.Nested
  walk : s.scopes.Walk scope ((scope, ⟨.closure, some enclosing, ∅⟩) :: outer)
  closures : ∃ c, s.closures = [c] ∧ c.tracker.scope = scope ∧ c.enclosing = enclosing
  logs : s.readLogs = []
  counts : s.placeholders = []

namespace Between

variable {limits : Limits} {scope enclosing : ScopeId} {outer : List (ScopeId × Frame)}
  {s s' t t' : Session}

theorem placed (between : Between scope enclosing outer s) : s.Placed := by
  refine ⟨between.nested, ?_⟩
  rw [between.current]
  exact between.walk.standing (List.cons_ne_nil _ _)

/-- A closure is opened where nothing else is open. -/
theorem opened (placed : s.Placed) (walk : s.scopes.Walk s.current outer)
    (small : s.scopes.size < 2 ^ 32) (closures : s.closures = []) (logs : s.readLogs = [])
    (counts : s.placeholders = []) (site : Address) :
    Between s.scopes.next s.current outer (s.openClosure site) := by
  refine ⟨rfl, placed.nested.add placed.standing, ?_, ⟨_, congrArg (List.cons _) closures, rfl, rfl⟩, logs,
    counts⟩
  rw [Scopes.next_eq small]
  exact walk.add placed.nested placed.standing .closure

/-- A clause is built, and leaves nothing open. -/
theorem pass {site : Address} (between : Between scope enclosing outer s)
    (built : BuiltInFrame limits site s t) (small : t.scopes.size ≤ 2 ^ 32) :
    Between scope enclosing outer t := by
  obtain ⟨gain, course⟩ := built.built.course
  obtain ⟨nested, agrees⟩ := built.agrees between.placed small
  refine ⟨built.current_eq.trans between.current, nested, ?_, ?_, ?_, ?_⟩
  · exact between.walk.agrees agrees between.nested (between.current ▸ between.placed.standing)
  · obtain ⟨c, top, here, around⟩ := between.closures
    have follows := course.follows
    rw [top] at follows
    obtain ⟨d, rest, noted, none, top'⟩ := List.forall₂_cons_left_iff.mp follows
    cases none
    exact ⟨d, top', noted.scope.trans here, noted.1.trans around⟩
  · exact List.eq_nil_of_length_eq_zero (course.readLogs_length.trans (by rw [between.logs]; rfl))
  · exact List.eq_nil_of_length_eq_zero (course.placeholders_length.trans (by rw [between.counts]; rfl))

/-- Sessions between clauses of one closure belong together. -/
theorem together {c c' : OpenClosure} (between : Between scope enclosing outer s)
    (between' : Between scope enclosing outer s') (top : s.closures = [c]) (top' : s'.closures = [c']) :
    ∃ held, (Alternates.mk [(scope, scope)] [(c, c')] held).Together outer s s' := by
  have here : ∀ {s c}, Between scope enclosing outer s → s.closures = [c] → c.tracker.scope = scope := by
    intro s c between top
    obtain ⟨d, only, here, -⟩ := between.closures
    rw [(List.cons.inj (top.symm.trans only)).1]
    exact here
  have held : ∀ pair ∈ [(c, c')], (pair.1.tracker.scope, pair.2.tracker.scope) ∈ [(scope, scope)] := by
    rintro pair only
    rw [List.mem_singleton.mp only, here between top, here between' top']
    exact List.mem_singleton_self _
  refine ⟨held, ⟨?_, ?_, ?_, ?_⟩, fun _ _ => ⟨between.nested, between'.nested, ?_, ?_⟩⟩
  · rw [between.current, between'.current]
    rfl
  · rw [top, top']
    exact .cons ⟨rfl, rfl, rfl, rfl⟩ .nil
  · rw [between.logs, between'.logs]
  · rw [between.counts, between'.counts]
  · rw [between.current, between'.current]
    refine ⟨[_], [_], .cons ?_ .nil, between.walk, between'.walk⟩
    exact ⟨rfl, rfl, fun _ => rfl⟩
  · rw [top, top']
    exact .cons ⟨[], [], .refl _, .refl _, fun _ none => (nomatch none)⟩ .nil

end Between

/-! ## Contributions of clauses -/

/-- What a clause contributes to the notes on its closure. -/
structure Contribution where
  uses : List OuterUse
  names : List String

/-- The contribution is made from one session to the other. Names that a frame around the closure binds
are known whenever they are used. -/
def Contribution.Made (outer : List (ScopeId × Frame)) (step : Session × Session) (d : Contribution) :
    Prop :=
  List.Forall₂ (fun c c' => c.tracker.Gathers d.uses d.names c'.tracker) step.1.closures step.2.closures ∧
    ∀ use ∈ d.uses, (Scopes.lookupAlong use.name outer).isSome = true → use.known = true

/-- Sessions before and after a clause of a closure. -/
structure ClauseStep (limits : Limits) (level : Level) (scope enclosing : ScopeId)
    (outer : List (ScopeId × Frame)) (clause : Clause) (step : Session × Session) : Prop where
  before : Between scope enclosing outer step.1
  small : step.2.scopes.size ≤ 2 ^ 32
  built : ∃ site, (Build.closureClause level site clause).Yields limits step.1 () step.2

/-- Steps that follow each other from one session to another. -/
def Linked : Session → List (Session × Session) → Session → Prop
  | s, [], t => s = t
  | s, step :: steps, t => step.1 = s ∧ Linked step.2 steps t

section Clauses

variable {limits : Limits} {level : Level} {room : Nat} {scope enclosing : ScopeId}
  {outer : List (ScopeId × Frame)} {clause : Clause} {s t : Session} {step step' : Session × Session}
  {steps steps' : List (Session × Session)} {contributions : List Contribution}

/-- A clause contributes the same wherever it stands among the clauses. -/
theorem ClauseStep.contribution
    (first : ClauseStep limits (.ofRoom room) scope enclosing outer clause step)
    (second : ClauseStep limits (.ofRoom room) scope enclosing outer clause step') :
    ∃ d : Contribution, d.Made outer step ∧ d.Made outer step' := by
  obtain ⟨between, small, site, built⟩ := first
  obtain ⟨between', small', site', built'⟩ := second
  obtain ⟨c, top, -⟩ := between.closures
  obtain ⟨c', top', -⟩ := between'.closures
  obtain ⟨held, start⟩ := between.together between' top top'
  have free : ∀ room room', (Level.ofRoom room).Free (.alternates limits outer) (Level.ofRoom room') :=
    fun _ _ => .ofNone (fun _ => id) _ _
  have level := Level.ofRoom_related (K := .alternates limits outer) Likeness.same_closed free room room rfl
  have related : (Simulation.alternates limits outer).Relates ⟨_, _, held⟩ () _
      (Build.closureClause (.ofRoom room) site clause) (Build.closureClause (.ofRoom room) site' clause) :=
    Simulation.relates_closureClause level (free room room) trivial trivial
      (.inr (Likeness.same_reflexive.clause _ _ _))
  obtain ⟨_, -, ⟨-, content⟩, -⟩ := related.done start built built'
  have notes := (content small small').notes
  generalize last : step.2.closures = these at notes
  generalize last' : step'.2.closures = those at notes
  cases notes with
  | cons gathered rest =>
      cases rest
      obtain ⟨uses, names, one, two, known⟩ := gathered
      refine ⟨⟨uses, names⟩, ⟨?_, known⟩, ?_, known⟩
      · rw [top, last]
        exact .cons one .nil
      · rw [top', last']
        exact .cons two .nil

/-- The clauses of a closure are built step by step. -/
theorem exists_clauseSteps {site : Address} {index : Nat} {clauses : List Clause} {addresses : List Address}
    (sound : level.Sound) (between : Between scope enclosing outer s)
    (parts : (Build.foldParts site .clause (fun address clause _ => Build.closureClause level address clause)
      index clauses ()).Yields limits s (addresses, ()) t) (small : t.scopes.size ≤ 2 ^ 32) :
    ∃ steps, List.Forall₂ (ClauseStep limits level scope enclosing outer) clauses steps ∧
      Linked s steps t ∧ Between scope enclosing outer t := by
  induction clauses generalizing s index addresses with
  | nil =>
      obtain ⟨-, rfl⟩ := Build.yields_foldParts_nil parts
      exact ⟨[], .nil, rfl, between⟩
  | cons clause clauses ih =>
      obtain ⟨_, rest, u, first, others, -⟩ := Build.yields_foldParts_cons parts
      obtain ⟨-, ⟨built, -⟩⟩ := Build.foldParts_built (fun _ _ => True)
        (fun _ _ _ _ _ _ _ _ part => ⟨(Build.closureClause_framed sound part).built, trivial⟩) trivial others
      obtain ⟨gain, course⟩ := built.course
      have smaller := Nat.le_trans course.size_le small
      obtain ⟨steps, each, linked, last⟩ :=
        ih (between.pass (Build.closureClause_framed sound first) smaller) others
      exact ⟨(s, u) :: steps, .cons ⟨between, smaller, _, first⟩ each, ⟨rfl, linked⟩, last⟩

/-- Contributions of steps that follow each other add up. -/
theorem Linked.gathers (linked : Linked s steps t)
    (made : List.Forall₂ (fun step d => Contribution.Made outer step d) steps contributions) :
    List.Forall₂ (fun c c' => c.tracker.Gathers (contributions.flatMap (·.uses))
      (contributions.flatMap (·.names)) c'.tracker) s.closures t.closures := by
  induction made generalizing s with
  | nil =>
      obtain rfl : s = t := linked
      exact List.forall₂_same.mpr fun c _ => .refl c.tracker
  | @cons step d steps contributions here _ ih =>
      obtain ⟨rfl, linked⟩ := linked
      exact Attends.forall₂_step here.1 (ih linked) fun _ _ _ _ => .trans

/-- Clauses in another order contribute the same in another order. -/
theorem ClauseStep.contributions_perm {clauses clauses' : List Clause} (perm : clauses.Perm clauses')
    (first : List.Forall₂ (ClauseStep limits (.ofRoom room) scope enclosing outer) clauses steps)
    (second : List.Forall₂ (ClauseStep limits (.ofRoom room) scope enclosing outer) clauses' steps') :
    ∃ ds ds' : List Contribution, ds.Perm ds' ∧ List.Forall₂ (Contribution.Made outer) steps ds ∧
      List.Forall₂ (Contribution.Made outer) steps' ds' := by
  -- The second run is put into the order of the first one, step by step, and back.
  obtain ⟨sorted, second, back⟩ := List.perm_comp_forall₂ perm second
  have shared : ∃ ds, List.Forall₂ (Contribution.Made outer) steps ds ∧
      List.Forall₂ (Contribution.Made outer) sorted ds := by
    clear perm back
    induction first generalizing sorted with
    | nil =>
        cases second
        exact ⟨[], .nil, .nil⟩
    | cons one _ ih =>
        cases second with
        | cons two others =>
            obtain ⟨d, here, here'⟩ := one.contribution two
            obtain ⟨ds, made, made'⟩ := ih _ others
            exact ⟨d :: ds, .cons here made, .cons here' made'⟩
  obtain ⟨ds, made, sortedMade⟩ := shared
  obtain ⟨ds', made', again⟩ := List.perm_comp_forall₂ back.symm sortedMade
  exact ⟨ds, ds', again.symm, made, made'⟩

end Clauses

namespace Compiler

variable {c : Compiler} {root : Address} {source source' : Source} {items items' : List Source}
  {report report' : ClosureReport}

/-- An analysed closure, as the steps of its clauses and what its tracker reports. -/
theorem closure_steps {outer : List (ScopeId × Frame)} (isClosure : source.expression = .closure items)
    (h : c.closure root source = .ok report)
    (few : c.openedFrames (.expression root source) < 2 ^ 32)
    (walk : c.session.scopes.Walk c.session.current outer) :
    ∃ steps v tracker,
      List.Forall₂ (ClauseStep c.limits (.ofRoom (c.limits.maxDepth - 1)) c.session.scopes.next
        c.session.current outer) (items.filterMap Clause.ofSource?) steps ∧
      Linked (c.session.openClosure root) steps v ∧ v.closures = [⟨tracker, c.session.current⟩] ∧
      v.scopes.Walk c.session.current outer ∧
      tracker.report v.scopes c.session.current c.limits = .ok report := by
  obtain ⟨compiled, built, -⟩ := except_map_eq_ok h
  obtain ⟨clauses, addresses, v, opened, others, found, each, parts, top, reported, answer, -, small,
    placed⟩ := closure_answer isClosure built few
  obtain rfl : found = report := Except.ok.inj (answer.symm.trans h)
  rw [Build.filterMap_of_forall₂ each]
  have sound := Level.ofRoom_sound (c.limits.maxDepth - 1)
  obtain ⟨-, whole⟩ := Build.eachPart_built
    (fun _ _ _ _ _ part => (Build.closureClause_framed sound part).built) parts
  obtain ⟨gain, course⟩ := whole.course
  have grown := course.size_le
  rw [show (c.session.openClosure root).scopes.size = c.session.scopes.size + 1 from Scopes.size_add] at grown
  obtain ⟨steps, taken, linked, last⟩ := exists_clauseSteps sound
    (.opened placed walk (by omega) rfl rfl rfl root) (Build.yields_eachPart parts) small
  obtain ⟨closure, only, -, around⟩ := last.closures
  obtain ⟨rfl, rfl⟩ := List.cons.inj (top.symm.trans only)
  refine ⟨steps, v, opened.tracker, taken, linked, ?_, last.walk.around rfl, ?_⟩
  · rw [top, ← around]
  · rw [← around]
    exact reported

/-- The order of the clauses of a closure does not matter to the names it binds and captures, to how
often and from which frame each is captured, and to the mutation of the names that a frame supplies. -/
theorem closure_clauseOrder (isClosure : source.expression = .closure items)
    (isClosure' : source'.expression = .closure items') (perm : items.Perm items')
    (h : c.closure root source = .ok report) (h' : c.closure root source' = .ok report')
    (few : c.openedFrames (.expression root source) < 2 ^ 32)
    (few' : c.openedFrames (.expression root source') < 2 ^ 32) : report.SameAnalysis report' := by
  obtain ⟨compiled, built, -⟩ := except_map_eq_ok h
  obtain ⟨gain, traces⟩ := exists_traces (show c.construct (.expression root source) = .ok compiled from built)
  obtain ⟨-, -, -, -, -, placed⟩ := traces.small few
  obtain ⟨outer, walk⟩ := Scopes.Walk.exists_of_nested placed.nested c.session.current
  obtain ⟨steps, v, tracker, taken, linked, top, around, reported⟩ := closure_steps isClosure h few walk
  obtain ⟨steps', v', tracker', taken', linked', top', around', reported'⟩ :=
    closure_steps isClosure' h' few' walk
  obtain ⟨ds, ds', same, made, made'⟩ := ClauseStep.contributions_perm (perm.filterMap _) taken taken'
  have known : ∀ use ∈ ds.flatMap (·.uses),
      (Scopes.lookupAlong use.name outer).isSome = true → use.known = true := by
    intro use member
    obtain ⟨d, inDs, inUses⟩ := List.mem_flatMap.mp member
    obtain ⟨step, -, here⟩ := Tracker.exists_of_forall₂ made.flip inDs
    exact here.2 use inUses
  have gathers := linked.gathers made
  have gathers' := linked'.gathers made'
  rw [top] at gathers
  rw [top'] at gathers'
  cases gathers with
  | cons first _ =>
      cases gathers' with
      | cons second _ =>
          exact first.sameAnalysis second (same.flatMap_right _) (same.flatMap_right _) known around around'
            reported reported'

/-- The clause `-> x = 1`. -/
def matchClause : Source := .clause [] (.binary "=" (.symbol "x" .empty) (.integer 1))

/-- The clause `-> x`. -/
def readClause : Source := .clause [] (.symbol "x" .empty)

/-- With a frame around that binds `x`, both orders of `fn -> x = 1; -> x end` shadow `x`. -/
theorem closure_clauseOrder_supplied :
    ∃ report report',
      closure ⟨.standard, [(.function, ["x"])]⟩ ⟨"expr/0"⟩ (.closure [matchClause, readClause]) =
        .ok report ∧
      closure ⟨.standard, [(.function, ["x"])]⟩ ⟨"expr/0"⟩ (.closure [readClause, matchClause]) =
        .ok report' ∧
      report.captures.map (fun c => (c.name, c.mutation)) = [("x", .shadow)] ∧
      report.SameAnalysis report' := by
  obtain ⟨report, first, captured⟩ : ∃ report,
      closure ⟨.standard, [(.function, ["x"])]⟩ ⟨"expr/0"⟩ (.closure [matchClause, readClause]) =
        .ok report ∧
      report.captures.map (fun c => (c.name, c.mutation)) = [("x", .shadow)] := ⟨_, rfl, rfl⟩
  obtain ⟨report', second⟩ : ∃ report',
      closure ⟨.standard, [(.function, ["x"])]⟩ ⟨"expr/0"⟩ (.closure [readClause, matchClause]) =
        .ok report' := ⟨_, rfl⟩
  exact ⟨report, report', first, second, captured,
    closure_clauseOrder rfl rfl (.swap _ _ _) first second (by decide) (by decide)⟩

/-- Without such a frame the order shows: the match is heeded only after the read. -/
theorem closure_clauseOrder_unsupplied :
    ∃ report report', [matchClause, readClause].Perm [readClause, matchClause] ∧
      closure ⟨.standard, []⟩ ⟨"expr/0"⟩ (.closure [matchClause, readClause]) = .ok report ∧
      closure ⟨.standard, []⟩ ⟨"expr/0"⟩ (.closure [readClause, matchClause]) = .ok report' ∧
      report.captures.map (fun c => (c.name, c.mutation)) = [("x", .immutable)] ∧
      report'.captures.map (fun c => (c.name, c.mutation)) = [("x", .shadow)] :=
  ⟨_, _, .swap _ _ _, rfl, rfl, rfl, rfl⟩

end Compiler

end SyntaxGraph
