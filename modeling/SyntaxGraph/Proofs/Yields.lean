import SyntaxGraph.Build.Level

/-!
# What a successful step yields

A build step reads the ceilings, changes the session and may fail. `Yields` is its
success: the value and the session it leads to. A step that is put together from others
yields something only if its parts do, one after the other, so that a success of a
whole builder comes apart into successes of what it calls. The primitive steps always
lead to one session each, or fail.
-/

namespace SyntaxGraph.Build

variable {α β : Type}

/-- From session `s` the step succeeds with `a` and leads to session `t`. -/
def Yields (step : Build α) (limits : Limits) (s : Session) (a : α) (t : Session) : Prop :=
  (step.run limits).run s = .ok (a, t)

variable {step : Build α} {limits : Limits} {s t : Session} {a b : α}

theorem Yields.deterministic {u : Session} (first : step.Yields limits s a t)
    (second : step.Yields limits s b u) : a = b ∧ t = u :=
  Prod.mk.inj (Except.ok.inj (first.symm.trans second))

theorem yields_pure {v : α} (h : (pure v : Build α).Yields limits s a t) : v = a ∧ s = t :=
  Prod.mk.inj (Except.ok.inj h)

/-- A sequence of two steps passes through one session between them. -/
theorem yields_bind {next : α → Build β} {b : β} (h : (step >>= next).Yields limits s b t) :
    ∃ a u, step.Yields limits s a u ∧ (next a).Yields limits u b t := by
  simp only [Yields, bind, ReaderT.run, ReaderT.bind, StateT.run, StateT.bind, Except.bind] at h
  cases first : step limits s with
  | error fault =>
      rw [first] at h
      cases h
  | ok result =>
      obtain ⟨a, u⟩ := result
      rw [first] at h
      exact ⟨a, u, first, h⟩

theorem yields_map {f : α → β} {b : β} (h : (f <$> step).Yields limits s b t) :
    ∃ a, step.Yields limits s a t ∧ f a = b := by
  rw [← bind_pure_comp] at h
  obtain ⟨a, u, first, last⟩ := yields_bind h
  obtain ⟨rfl, rfl⟩ := yields_pure last
  exact ⟨a, first, rfl⟩

/-- A function of a step's value succeeds wherever the step does. -/
theorem Yields.map {f : α → β} (h : step.Yields limits s a t) :
    (f <$> step).Yields limits s (f a) t := by
  change step limits s = .ok (a, t) at h
  simp only [Yields, Functor.map, ReaderT.run, StateT.run, StateT.map, bind, Except.bind, h]
  rfl

theorem not_yields_throw {fault : Fault} : ¬ (throw fault : Build α).Yields limits s a t :=
  fun h => nomatch h

theorem yields_modify {change : Session → Session} {u : PUnit}
    (h : (modify change : Build PUnit).Yields limits s u t) : change s = t :=
  (Prod.mk.inj (Except.ok.inj h)).2

theorem yields_get {u : Session} (h : (get : Build Session).Yields limits s u t) :
    s = u ∧ s = t :=
  Prod.mk.inj (Except.ok.inj h)

theorem yields_read {l : Limits} (h : (read : Build Limits).Yields limits s l t) :
    limits = l ∧ s = t :=
  Prod.mk.inj (Except.ok.inj h)

theorem yields_lift {result : Except Fault α}
    (h : (liftM result : Build α).Yields limits s a t) : result = .ok a ∧ s = t := by
  cases result with
  | error fault => cases h
  | ok value =>
      obtain ⟨rfl, rfl⟩ := Prod.mk.inj (Except.ok.inj h)
      exact ⟨rfl, rfl⟩

/-! ## Primitive steps -/

theorem not_yields_tooDeep {site : Address} : ¬ (tooDeep site : Build α).Yields limits s a t := by
  intro h
  obtain ⟨l, u, -, thrown⟩ := yields_bind h
  exact not_yields_throw thrown

theorem not_yields_malformed {site : Address} {what : Malformation} :
    ¬ (malformed site what : Build α).Yields limits s a t := not_yields_throw

/-- A check leaves the session as it is. -/
theorem yields_checkFanout {site : Address} {what : String} {count : Nat} {u : Unit}
    (h : (checkFanout site what count).Yields limits s u t) : count ≤ limits.maxFanout ∧ s = t := by
  obtain ⟨l, v, reading, rest⟩ := yields_bind h
  obtain ⟨rfl, rfl⟩ := yields_read reading
  dsimp only at rest
  split at rest
  · exact absurd rest not_yields_throw
  · rename_i small
    exact ⟨by omega, (yields_pure rest).2⟩

theorem yields_emit {node : Node} {u : Unit} (h : (emit node).Yields limits s u t) :
    s.emit node = t :=
  yields_modify h

theorem yields_readSymbol {name : String} {reference : Address} {position : Option Position}
    {u : Unit} (h : (readSymbol name reference position).Yields limits s u t) :
    s.readSymbol name reference position = t :=
  yields_modify h

theorem yields_readAll {reads : List (String × Address)} {position : Option Position} {u : Unit}
    (h : (readAll reads position).Yields limits s u t) :
    reads.foldl (fun s read => s.readSymbol read.1 read.2 position) s = t :=
  yields_modify h

theorem yields_bindAll {bindings : List Binding} {reads : Option (OrderedSet String)} {u : Unit}
    (h : (bindAll bindings reads).Yields limits s u t) :
    bindings.foldl (fun s binding => s.bindSymbol reads binding) s = t :=
  yields_modify h

theorem yields_openClosure {closure : Address} {u : Unit}
    (h : (openClosure closure).Yields limits s u t) : s.openClosure closure = t :=
  yields_modify h

theorem yields_boundByClosure {names : List String} {u : Unit}
    (h : (boundByClosure names).Yields limits s u t) : s.boundByClosure names = t :=
  yields_modify h

/-- A step in a frame of its own comes back to the frame it started from. -/
theorem yields_inScope {kind : ScopeKind} (h : (inScope kind step).Yields limits s a t) :
    ∃ u, step.Yields limits (s.enter kind) a u ∧ t = { u with current := s.current } := by
  obtain ⟨now, s₁, got, rest⟩ := yields_bind h
  obtain ⟨rfl, rfl⟩ := yields_get got
  obtain ⟨_, s₂, entered, rest⟩ := yields_bind rest
  obtain rfl := yields_modify entered
  obtain ⟨result, u, inner, rest⟩ := yields_bind rest
  obtain ⟨_, s₃, left, last⟩ := yields_bind rest
  obtain rfl := yields_modify left
  obtain ⟨rfl, rfl⟩ := yields_pure last
  exact ⟨u, inner, rfl⟩

theorem yields_trackReads {result : α × OrderedSet String}
    (h : (trackReads step).Yields limits s result t) :
    ∃ u, step.Yields limits { s with readLogs := ∅ :: s.readLogs } result.1 u ∧
      result.2 = u.readLogs.head?.getD ∅ ∧ t = { u with readLogs := u.readLogs.tail } := by
  obtain ⟨_, s₁, opened, rest⟩ := yields_bind h
  obtain rfl := yields_modify opened
  obtain ⟨value, u, inner, rest⟩ := yields_bind rest
  obtain ⟨now, s₂, got, rest⟩ := yields_bind rest
  obtain ⟨rfl, rfl⟩ := yields_get got
  obtain ⟨_, s₃, closed, last⟩ := yields_bind rest
  obtain rfl := yields_modify closed
  obtain ⟨rfl, rfl⟩ := yields_pure last
  exact ⟨u, inner, rfl, rfl⟩

theorem yields_trackPlaceholders {result : α × Int64}
    (h : (trackPlaceholders step).Yields limits s result t) :
    ∃ u, step.Yields limits { s with placeholders := 0 :: s.placeholders } result.1 u ∧
      result.2 = u.placeholders.head?.getD 0 ∧ t = { u with placeholders := u.placeholders.tail } := by
  obtain ⟨_, s₁, opened, rest⟩ := yields_bind h
  obtain rfl := yields_modify opened
  obtain ⟨value, u, inner, rest⟩ := yields_bind rest
  obtain ⟨now, s₂, got, rest⟩ := yields_bind rest
  obtain ⟨rfl, rfl⟩ := yields_get got
  obtain ⟨_, s₃, closed, last⟩ := yields_bind rest
  obtain rfl := yields_modify closed
  obtain ⟨rfl, rfl⟩ := yields_pure last
  exact ⟨u, inner, rfl, rfl⟩

theorem yields_sawPlaceholder {index : Int64}
    (h : (sawPlaceholder index).Yields limits s true t) :
    ∃ greatest rest, s.placeholders = greatest :: rest ∧
      t = { s with placeholders := max greatest index :: rest } := by
  obtain ⟨now, s₁, got, rest⟩ := yields_bind h
  obtain ⟨rfl, rfl⟩ := yields_get got
  cases seen : s.placeholders with
  | nil =>
      rw [seen] at rest
      exact absurd (yields_pure rest).1 (by decide)
  | cons greatest others =>
      rw [seen] at rest
      obtain ⟨_, s₂, changed, last⟩ := yields_bind rest
      obtain rfl := yields_modify changed
      exact ⟨greatest, others, rfl, (yields_pure last).2.symm⟩

/-- Closing reports on the innermost closure, adds the nodes of its captures and points the
closure's node at them. -/
theorem yields_closeClosure {node result : Node} {opened : OpenClosure}
    {others : List OpenClosure} (top : s.closures = opened :: others)
    (h : (closeClosure node).Yields limits s result t) :
    ∃ report, opened.tracker.report s.scopes opened.enclosing limits = .ok report ∧
      result = (node.declare .captures).relateAll .captures
        (report.captureNodes.map (·.address)) ∧
      t = { s with
        closures := others
        current := opened.enclosing
        nodes := s.nodes ++ report.captureNodes
        reports := s.reports.push report } := by
  obtain ⟨now, s₁, got, rest⟩ := yields_bind h
  obtain ⟨rfl, rfl⟩ := yields_get got
  rw [top] at rest
  obtain ⟨_, s₂, popped, rest⟩ := yields_bind rest
  obtain rfl := yields_modify popped
  obtain ⟨now, s₃, got, rest⟩ := yields_bind rest
  obtain ⟨rfl, rfl⟩ := yields_get got
  obtain ⟨l, s₄, reading, rest⟩ := yields_bind rest
  obtain ⟨rfl, rfl⟩ := yields_read reading
  obtain ⟨report, s₅, lifted, rest⟩ := yields_bind rest
  obtain ⟨reported, rfl⟩ := yields_lift lifted
  obtain ⟨_, s₆, added, last⟩ := yields_bind rest
  obtain rfl := yields_modify added
  obtain ⟨rfl, rfl⟩ := yields_pure last
  exact ⟨report, reported, rfl, rfl⟩

/-- A closure is opened, its parts are built, and its node is emitted once it is closed. -/
theorem yields_closure {site : Address} {opened : α → Node} {finish : α → Node → Node} {u : Unit}
    (h : (do
      openClosure site
      let a ← step
      let n ← closeClosure (opened a)
      emit (finish a n) : Build Unit).Yields limits s u t) :
    ∃ a v n w, step.Yields limits (s.openClosure site) a v ∧
      (closeClosure (opened a)).Yields limits v n w ∧ t = w.emit (finish a n) := by
  obtain ⟨_, s₁, entered, rest⟩ := yields_bind h
  obtain rfl := yields_openClosure entered
  obtain ⟨a, v, inner, rest⟩ := yields_bind rest
  obtain ⟨n, w, closed, last⟩ := yields_bind rest
  exact ⟨a, v, n, w, inner, closed, (yields_emit last).symm⟩

/-! ## Parts of a node -/

theorem yields_child {level : Level} {node result : Node} {role : Role} {source : Source}
    (h : (level.child node role source).Yields limits s result t) :
    (level.expression (node.address.child role.label) source).Yields limits s () t ∧
      result = node.relate role (node.address.child role.label) := by
  obtain ⟨_, s₁, inner, last⟩ := yields_bind h
  obtain ⟨rfl, rfl⟩ := yields_pure last
  exact ⟨inner, rfl⟩

variable {site : Address} {role : Role} {build : Address → α → β → Build β} {index : Nat}

theorem yields_foldParts_nil {value : β} {result : List Address × β}
    (h : (foldParts site role build index [] value).Yields limits s result t) :
    result = ([], value) ∧ s = t := by
  rw [foldParts] at h
  obtain ⟨same, rfl⟩ := yields_pure h
  exact ⟨same.symm, rfl⟩

theorem yields_foldParts_cons {part : α} {parts : List α} {value : β} {result : List Address × β}
    (h : (foldParts site role build index (part :: parts) value).Yields limits s result t) :
    ∃ middle addresses u,
      (build (site.indexed role.label index) part value).Yields limits s middle u ∧
      (foldParts site role build (index + 1) parts middle).Yields limits u (addresses, result.2) t ∧
      result.1 = site.indexed role.label index :: addresses := by
  rw [foldParts] at h
  obtain ⟨middle, u, first, rest⟩ := yields_bind h
  obtain ⟨⟨addresses, final⟩, v, others, last⟩ := yields_bind rest
  obtain ⟨rfl, rfl⟩ := yields_pure last
  exact ⟨middle, addresses, u, first, others, rfl⟩

theorem yields_eachPart {build : Address → α → Build Unit} {parts : List α}
    {addresses : List Address}
    (h : (eachPart site role build parts).Yields limits s addresses t) :
    (foldParts site role (fun address part _ => build address part) 0 parts ()).Yields limits s
      (addresses, ()) t := by
  obtain ⟨⟨found, value⟩, u, inner, last⟩ := yields_bind h
  obtain ⟨rfl, rfl⟩ := yields_pure last
  exact inner

end SyntaxGraph.Build
