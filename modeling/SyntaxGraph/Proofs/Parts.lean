import SyntaxGraph.Proofs.Runs
import SyntaxGraph.Proofs.Segments

/-!
# Literals, calls, heads and patterns run along a route

Each lemma follows one builder and names the roles it fills. They all assume that the
level below is sound; the whole of a pattern is at the end.
-/

namespace SyntaxGraph.Build

variable {limits : Limits} {level : Level} {node result : Node} {role : Role} {site : Address}
  {source : Source} {items : List Source} {position : Option Position} {s t : Session}

/-! ## Literals -/

theorem elements_assembly (sound : level.Sound)
    (h : (elements level node items).Yields limits s result t) :
    Assembly limits [.element] node s result t := by
  obtain ⟨addresses, -, inner, rfl⟩ := yields_elements h
  exact (eachPart_assembly (fun _ _ _ _ _ part => sound.expression part) inner rfl rfl).adjust (.set _ _ _)

theorem entry_built (sound : level.Sound) {u : Unit}
    (h : (entry level site source).Yields limits s u t) : Built limits [site] s t := by
  cases isEntry : source.mapEntry? with
  | none =>
    rw [entry, isEntry] at h
    exact unknown_built h
  | some pair =>
    obtain ⟨v, w, key, value, rfl⟩ := yields_entry isEntry h
    have fresh := (Node.Holds.make site .mapEntry).withTags [.composite]
    have keyed := Assembly.single ((Node.make site .mapEntry).withTags [.composite]) .key
      (by decide) (sound.expression key)
    have valued := Assembly.single (((Node.make site .mapEntry).withTags [.composite]).relate .key
      (site.child Role.key.label)) .value (by decide) (sound.expression value)
    exact ((keyed.trans valued (by decide)).adjust (.withPosition _ source.position)).emit fresh

theorem entries_assembly (sound : level.Sound)
    (h : (entries level node items).Yields limits s result t) :
    Assembly limits [.entry] node s result t := by
  obtain ⟨addresses, -, inner, rfl⟩ := yields_entries h
  exact (eachPart_assembly (fun _ _ _ _ _ part => entry_built sound part) inner rfl rfl).adjust (.set _ _ _)

theorem mapBody_assembly (sound : level.Sound)
    (h : (mapBody level node items).Yields limits s result t) :
    Assembly limits [.base, .entry] node s result t := by
  unfold mapBody at h
  split at h
  · obtain ⟨middle, u, based, rest⟩ := yields_bind h
    exact (child_assembly sound based rfl).trans (entries_assembly sound rest) (by decide)
  · exact (entries_assembly sound h).weaken (by decide)

/-- Bounds stand in roles of their own, so the roles must differ. -/
theorem bounds_assembly (sound : level.Sound) {parts : List (Role × Option Source)}
    (h : (bounds level node parts).Yields limits s result t)
    (structural : ∀ part ∈ parts, part.1.isStructural = true)
    (distinct : (parts.map (·.1)).Nodup) :
    Assembly limits (parts.map (·.1)) node s result t := by
  induction parts generalizing node s with
  | nil =>
      obtain ⟨rfl, rfl⟩ := yields_pure h
      exact .refl node s
  | cons part parts ih =>
      obtain ⟨role, bound⟩ := part
      obtain ⟨new, others⟩ := List.nodup_cons.mp distinct
      have rest := fun part member => structural part (List.mem_cons_of_mem _ member)
      cases bound with
      | none => exact (ih h rest others).weaken (List.subset_cons_self _ _)
      | some bound =>
          obtain ⟨middle, u, first, last⟩ := yields_bind h
          have kept := child_assembly sound first (structural (role, some bound) List.mem_cons_self)
          refine kept.trans (ih last rest others) fun other member => ?_
          rwa [List.mem_singleton.mp member]

theorem segments_build (sound : level.Sound) :
    Segment.Builds limits (fun address value (_ : Unit) => level.expression address value)
      (fun _ _ => True) :=
  ⟨fun _ h => ⟨sound.expression h, trivial⟩, fun _ _ => trivial⟩

/-- The node of a literal grows from one that has no parts. -/
theorem literalNode_assembly (sound : level.Sound) {shape : Literal}
    (h : (literalNode level site position shape).Yields limits s result t) :
    ∃ (node : Node) (roles : List Role), node.address = site ∧ node.Holds [] ∧
      Assembly limits roles node s result t := by
  have scalar : ∀ kind value, (scalarNode site kind value).Holds [] := fun kind value =>
    ((Node.Holds.make site kind).withTags _).set _ _
  have composite : ∀ kind, (compositeNode site kind).Holds [] := fun kind =>
    (Node.Holds.make site kind).withTags _
  cases shape with
  | nil =>
      obtain ⟨rfl, rfl⟩ := yields_pure h
      exact ⟨_, _, rfl, (Node.Holds.make site _).withTags _, .refl _ _⟩
  | list items =>
      obtain ⟨middle, u, first, rest⟩ := yields_bind h
      have filled := elements_assembly sound first
      split at rest
      · obtain ⟨rfl, rfl⟩ := yields_pure rest
        exact ⟨_, _, rfl, composite _, filled⟩
      · exact ⟨_, _, rfl, composite _, filled.trans (child_assembly sound rest rfl) (by decide)⟩
  | keywordList items => exact ⟨_, _, rfl, composite _, entries_assembly sound h⟩
  | tuple items => exact ⟨_, _, rfl, composite _, elements_assembly sound h⟩
  | map items => exact ⟨_, _, rfl, composite _, mapBody_assembly sound h⟩
  | struct typeRef fields =>
      obtain ⟨middle, u, first, rest⟩ := yields_bind h
      have typed := child_assembly sound first rfl
      dsimp only at rest
      split at rest
      · exact ⟨_, _, rfl, composite _, (typed.adjust (.set _ _ _)).trans
          (mapBody_assembly sound rest) (by decide)⟩
      · exact ⟨_, _, rfl, composite _, typed.trans (mapBody_assembly sound rest) (by decide)⟩
  | range first last step =>
      exact ⟨_, _, rfl, composite _, bounds_assembly sound h (by simp; decide) (by simp)⟩
  | sigil letter content modifiers =>
      have fresh := (((Node.Holds.make site .sigilLiteral).withTags scalarTags).set "letter"
        letter).set "modifiers" (modifierText modifiers)
      dsimp only [literalNode] at h
      split at h
      · obtain ⟨rfl, rfl⟩ := yields_pure h
        exact ⟨_, _, rfl, fresh, .set _ _ _⟩
      · exact ⟨_, _, rfl, fresh, child_assembly sound h rfl⟩
  | binary segments =>
      obtain ⟨found, u, inner, rest⟩ := yields_bind h
      obtain ⟨_, v, read, last⟩ := yields_bind rest
      obtain rfl := yields_readAll read
      obtain ⟨rfl, rfl⟩ := yields_pure last
      have assembly := (Segment.buildAll_assembly (segments_build sound) trivial inner).2 position
        fun _ => true
      rw [List.filter_true] at assembly
      exact ⟨_, _, rfl, composite _, assembly⟩
  | _ =>
      obtain ⟨rfl, rfl⟩ := yields_pure h
      exact ⟨_, _, rfl, scalar _ _, .refl _ _⟩

theorem literal_built (sound : level.Sound) {shape : Literal} {u : Unit}
    (h : (literal level site source shape).Yields limits s u t) : Built limits [site] s t := by
  obtain ⟨result, s₁, inner, last⟩ := yields_bind h
  obtain rfl := yields_emit last
  obtain ⟨node, roles, rfl, fresh, assembly⟩ := literalNode_assembly sound inner
  exact (assembly.adjust (.withPosition _ _)).emit fresh

/-! ## Calls -/

theorem functionReference_holds (site : Address) (module? : Option String) (name : String)
    (arity : Nat) : (functionReference site module? name arity).Holds [] := by
  have fresh := fun qualified : String => (((Node.Holds.make site .functionReference).set "name"
    name).set "arity" arity).set "qualified_name" qualified
  cases module? with
  | none => exact fresh name
  | some module => exact (fresh _).set "module" module

theorem functionReference_address (site : Address) (module? : Option String) (name : String)
    (arity : Nat) : (functionReference site module? name arity).address = site := by
  cases module? <;> rfl

/-- The name of a called or captured function is a part of its own. -/
theorem functionReference_assembly (limits : Limits) (s : Session) (node : Node) (module? : Option String) (name : String)
    (arity : Nat) :
    Assembly limits [.callee] node s (node.relate .callee (node.address.child Role.callee.label))
      (s.emit (functionReference (node.address.child Role.callee.label) module? name arity)) := by
  refine .single node .callee (by decide) ?_
  have leaf := Built.leaf limits s
    (functionReference_holds (node.address.child Role.callee.label) module? name arity)
  rwa [functionReference_address] at leaf

theorem receiver_assembly (sound : level.Sound)
    (h : (receiver level node source).Yields limits s result t) :
    Assembly limits [.receiver] node s result t := by
  unfold receiver at h
  split at h
  · obtain ⟨rfl, rfl⟩ := yields_pure h
    exact (Assembly.refl node s).weaken (List.nil_subset _)
  · exact child_assembly sound h rfl

theorem callee_assembly (sound : level.Sound) {target : Callee} {arity : Nat}
    (h : (callee level node target arity).Yields limits s result t) :
    Assembly limits [.receiver, .callee] node s result t := by
  cases target with
  | named name =>
      obtain ⟨rfl, rfl⟩ := yields_callee_named h
      have named : Assembly limits ([] ++ [.callee]) node s _ _ := (Assembly.set node "name" name).trans
        (functionReference_assembly limits s (node.set "name" name) none name arity) (by decide)
      exact named.weaken (by decide)
  | remote source name =>
      obtain ⟨middle, u, first, rfl, rfl⟩ := yields_callee_remote h
      have received : Assembly limits ([] ++ [.receiver]) node s _ _ :=
        (Assembly.set node "name" name).trans (receiver_assembly sound first) (by decide)
      have referred := functionReference_assembly limits u middle (receiverModule? source) name arity
      rw [received.address] at referred
      exact received.trans referred (by decide)
  | anonymous function => exact (child_assembly sound h rfl).weaken (by decide)

theorem call_built (sound : level.Sound) {kind : NodeKind} {target : Callee} {u : Unit}
    (h : (call level site source kind target items).Yields limits s u t) :
    Built limits [site] s t := by
  obtain ⟨middle, s₁, first, rest⟩ := yields_bind h
  obtain ⟨addresses, s₂, parts, last⟩ := yields_bind rest
  obtain rfl := yields_emit last
  have fresh := (((Node.Holds.make site kind).withTags [.expression, .call]).set "arity"
    items.length).withPosition source.position
  have called := callee_assembly sound first
  have same : middle.address = site := by rw [called.address]; simp
  subst same
  have filled : Assembly limits [.argument] middle s₁ _ s₂ :=
    eachPart_assembly (fun _ _ _ _ _ part => sound.expression part) parts rfl rfl
  have whole := (called.trans filled (by decide)).emit fresh
  simpa using whole

/-! ## Heads of clauses -/

theorem introduces_nil (s : Session) : ∀ b ∈ ([] : Bindings), b.Introduced s.nodes.toList :=
  fun _ member => (nomatch member)

theorem patternChild_assembly (sound : level.Sound) {bindings : Bindings}
    {found : Node × Bindings}
    (h : (patternChild level node role source bindings).Yields limits s found t)
    (structural : role.isStructural = true) :
    Assembly limits [role] node s found.1 t ∧ Adds s t bindings found.2 := by
  obtain ⟨more, u, inner, last⟩ := yields_bind h
  obtain ⟨rfl, rfl⟩ := yields_pure last
  obtain ⟨built, adds⟩ := sound.binding inner
  exact ⟨.single node role structural built, adds⟩

/-- Patterns at the positions of one role. -/
theorem foldPatterns_assembly (build : Address → Source → Bindings → Build Bindings)
    (step : ∀ address source s bindings t bindings',
      (build address source bindings).Yields limits s bindings' t →
      Built limits [address] s t ∧ Adds s t bindings bindings')
    {bindings : Bindings} {found : List Address × Bindings}
    (h : (foldParts node.address role build 0 items bindings).Yields limits s found t)
    (structural : role.isStructural = true) (ordered : role.isOrdered = true) :
    Assembly limits [role] node s ((node.declare role).relateAll role found.1) t ∧
      Adds s t bindings found.2 := by
  obtain ⟨same, built, adds⟩ := foldParts_built (fun u => Adds s u bindings)
    (fun address part _ s value t value' before inner =>
      (step address part s value t value' inner).imp_right before.trans) (.refl s bindings) h
  rw [same]
  exact ⟨.numbered role structural ordered built, adds⟩

/-- Parameters in a role that keeps no order share one address, so there must be just one. -/
theorem parameters_assembly (sound : level.Sound) {found : Node × Bindings}
    (fits : role.isOrdered = true ∨ items.length = 1)
    (h : (parameters level node role items).Yields limits s found t)
    (structural : role.isStructural = true) :
    Assembly limits [role] node s found.1 t ∧ Adds s t [] found.2 := by
  by_cases ordered : role.isOrdered = true
  · obtain ⟨addresses, more, inner, rfl⟩ := yields_parameters_of_ordered ordered h
    exact foldPatterns_assembly level.pattern (fun _ _ _ _ _ _ part => sound.binding part)
      inner structural ordered
  · obtain ⟨bindings, inner, rfl⟩ := yields_parameters_of_not_ordered ordered h
    obtain ⟨item, rfl⟩ := List.length_eq_one_iff.mp (fits.resolve_left ordered)
    rw [List.foldlM_cons] at inner
    obtain ⟨more, v, only, stop⟩ := yields_bind inner
    obtain ⟨rfl, rfl⟩ := yields_pure stop
    obtain ⟨built, adds⟩ := sound.binding only
    exact ⟨.single node role structural built, adds⟩

theorem clauseHead_assembly (sound : level.Sound) {clause : Clause}
    {found : Node × List String} (fits : role.isOrdered = true ∨ clause.arity = 1)
    (h : (clauseHead level node role clause).Yields limits s found t)
    (structural : role.isStructural = true)
    (other : ∀ r ∈ [role], r ∉ [Role.guard]) :
    Assembly limits ([role] ++ [.guard]) node s found.1 t := by
  obtain ⟨middle, bindings, v, final, params, guard, rfl⟩ := yields_clauseHead h
  obtain ⟨assembly, adds⟩ := parameters_assembly sound fits params structural
  exact (assembly.headed adds).trans (optionalChild_assembly sound guard rfl) other

/-! ## Patterns -/

theorem patternNode_holds (site : Address) (kind : NodeKind) (source : Source) :
    (patternNode site kind source).Holds [] :=
  ((Node.Holds.make site kind).withTags _).withPosition _

@[simp] theorem patternNode_address (site : Address) (kind : NodeKind) (source : Source) :
    (patternNode site kind source).address = site := by
  simp [patternNode]

theorem patternElements_assembly (sound : level.Sound) {bindings : Bindings}
    {found : Node × Bindings}
    (h : (patternElements level node items bindings).Yields limits s found t) :
    Assembly limits [.element] node s found.1 t ∧ Adds s t bindings found.2 := by
  obtain ⟨addresses, more, -, inner, rfl⟩ := yields_patternElements h
  exact foldPatterns_assembly level.pattern (fun _ _ _ _ _ _ part => sound.binding part) inner rfl rfl

theorem patternEntry_built (sound : level.Sound) {bindings found : Bindings}
    (h : (patternEntry level site source bindings).Yields limits s found t) :
    Built limits [site] s t ∧ Adds s t bindings found := by
  obtain ⟨key, value, v, w, -, keyed, valued, rfl⟩ := yields_patternEntry h
  obtain ⟨keyBuilt, -⟩ := sound.binding keyed
  obtain ⟨valueBuilt, adds⟩ := sound.binding valued
  have fresh := (Node.Holds.make site .mapEntry).withTags [.composite, .pattern]
  have keyed := Assembly.single ((Node.make site .mapEntry).withTags [.composite, .pattern]) .key
    (by decide) keyBuilt
  have valued := Assembly.single (((Node.make site .mapEntry).withTags
    [.composite, .pattern]).relate .key (site.child Role.key.label)) .value (by decide) valueBuilt
  exact ⟨((keyed.trans valued (by decide)).adjust (.withPosition _ source.position)).emit fresh,
    ((Adds.ofBuilt keyBuilt bindings).trans adds).emit _⟩

theorem patternEntries_assembly (sound : level.Sound) {bindings : Bindings}
    {found : Node × Bindings}
    (h : (patternEntries level node items bindings).Yields limits s found t) :
    Assembly limits [.entry] node s found.1 t ∧ Adds s t bindings found.2 := by
  obtain ⟨addresses, more, -, inner, rfl⟩ := yields_patternEntries h
  exact foldPatterns_assembly (patternEntry level)
    (fun _ _ _ _ _ _ part => patternEntry_built sound part) inner rfl rfl

theorem patternSegments_build (sound : level.Sound) (s : Session) (bindings : Bindings) :
    Segment.Builds limits level.pattern (fun u => Adds s u bindings) :=
  ⟨fun before h => (sound.binding h).imp_right before.trans, fun node adds => adds.emit node⟩

/-- The node of a pattern is emitted once its parts are assembled. -/
theorem emitPattern_built {roles : List Role} {kind : NodeKind} {bindings found : Bindings}
    (assembly : Assembly limits roles (patternNode site kind source) s result t)
    (adds : Adds s t bindings found) :
    Built limits [site] s (t.emit result) ∧ Adds s (t.emit result) bindings found := by
  have whole := assembly.emit (patternNode_holds site kind source)
  rw [patternNode_address] at whole
  exact ⟨whole, adds.emit _⟩

/-- A variable pattern stands and adds the one binding it introduces. -/
theorem variablePattern_built (limits : Limits) (site : Address) (source : Source) (s : Session)
    (name : String) (bindings : Bindings) :
    let t := s.emit ((patternNode site .variablePattern source)
      |>.withTags [.binding]
      |>.set "name" name
      |>.set "ignored" (isIgnored name))
    Built limits [site] s t ∧ Adds s t bindings (bindings ++ [⟨name, some site, source.position⟩]) := by
  have fresh := (((patternNode_holds site .variablePattern source).withTags [.binding]).set "name"
    name).set "ignored" (isIgnored name)
  have leaf := Built.leaf limits s fresh
  simp only [Node.set_address, Node.withTags_address, patternNode_address] at leaf
  refine ⟨leaf, [_], Session.emit_nodes _ _, fun b member => ?_⟩
  rcases List.mem_append.mp member with old | new
  · exact .inl old
  · obtain rfl := List.mem_singleton.mp new
    refine .inr ⟨_, List.mem_singleton_self _, by simp, ?_, ?_⟩
    · simp [patternNode]
    · rw [Node.text?_set_of_ne _ _ (by decide), Node.text?_set_self]

/-- Every pattern runs along a route and introduces what it binds. -/
theorem patternStep_built (sound : level.Sound) {sameDepth : Address → Source → Build Unit}
    (here : ∀ {s t}, (sameDepth site source).Yields limits s () t → Built limits [site] s t)
    {bindings found : Bindings}
    (h : (patternStep level sameDepth site source bindings).Yields limits s found t) :
    Built limits [site] s t ∧ Adds s t bindings found := by
  have run := yields_patternStep h
  generalize source.pattern = shape at run
  cases run with
  | literal inner => exact ⟨literal_built sound inner, .ofBuilt (literal_built sound inner) bindings⟩
  | value inner => exact ⟨here inner, .ofBuilt (here inner) bindings⟩
  | @signed number kind value stated =>
    have fresh := (((Node.Holds.make site kind).withTags [.literal, .pattern]).set "value"
      value).withPosition source.position
    have leaf := Built.leaf limits s fresh
    simp only [Node.withPosition_address, Node.set_address, Node.withTags_address,
      Node.make_address] at leaf
    exact ⟨leaf, (Adds.refl s bindings).emit _⟩
  | symbol => exact variablePattern_built limits site source s _ bindings
  | wildcard => exact emitPattern_built (.refl _ _) (.refl s bindings)
  | pin _ inner =>
    have pinned := (Assembly.set _ _ _).trans (child_assembly sound inner rfl) (by decide)
    exact emitPattern_built pinned (pinned.adds (patternNode_holds _ _ _) bindings)
  | tuple inner | list inner =>
    obtain ⟨assembly, adds⟩ := patternElements_assembly sound inner
    exact emitPattern_built assembly adds
  | listTail inner tail =>
    obtain ⟨assembly, adds⟩ := patternElements_assembly sound inner
    obtain ⟨assembly', adds'⟩ := patternChild_assembly sound tail rfl
    exact emitPattern_built (assembly.trans assembly' (by decide)) (adds.trans adds')
  | map inner =>
    obtain ⟨assembly, adds⟩ := patternEntries_assembly sound inner
    exact emitPattern_built assembly adds
  | struct inner name fields =>
    obtain ⟨typed, adds⟩ := patternChild_assembly sound inner rfl
    obtain ⟨assembly, adds'⟩ := patternEntries_assembly sound fields
    split at name <;> subst name
    · exact emitPattern_built ((typed.adjust (.set _ _ _)).trans assembly (by decide)) (adds.trans adds')
    · exact emitPattern_built (typed.trans assembly (by decide)) (adds.trans adds')
  | binary inner =>
    obtain ⟨adds, assembly⟩ :=
      Segment.buildAll_assembly (patternSegments_build sound s bindings) (.refl s bindings) inner
    exact emitPattern_built (assembly source.position _) (adds.readAll _ _)
  | both inner whole =>
    obtain ⟨first, adds⟩ := patternChild_assembly sound inner rfl
    obtain ⟨second, adds'⟩ := patternChild_assembly sound whole rfl
    exact emitPattern_built (first.trans second (by decide)) (adds.trans adds')
  | textHead inner =>
    obtain ⟨assembly, adds⟩ := patternChild_assembly sound inner rfl
    exact emitPattern_built ((Assembly.set _ _ _).trans assembly (by decide)) adds
  | fallback inner value =>
    obtain ⟨assembly, adds⟩ := patternChild_assembly sound inner rfl
    exact emitPattern_built (assembly.trans (child_assembly sound value rfl) (by decide))
      (adds.trans (.ofBuilt (sound.expression (yields_child value).1) _))

end SyntaxGraph.Build
