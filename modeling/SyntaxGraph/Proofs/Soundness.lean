import SyntaxGraph.Compiler
import SyntaxGraph.Proofs.Parts
import SyntaxGraph.Proofs.Reports

/-!
# Every build runs along a route

The remaining builders, one lemma each: branches, chains of generators, closures,
definitions and operators. The last result says it of every level, by induction on the
levels that are left, and with it of every construct.
-/

namespace SyntaxGraph.Build

variable {limits : Limits} {level inner : Level} {node result : Node} {role : Role}
  {site : Address} {source : Source} {items : List Source} {s t : Session}

/-! ## Branches -/

theorem branchClause_framed (sound : level.Sound) {clause : Clause} (single : clause.arity = 1)
    {u : Unit} (h : (branchClause level site clause).Yields limits s u t) :
    BuiltInFrame limits site s t := by
  obtain ⟨middle, names, v, final, w, head, body, rfl⟩ := yields_branchClause h
  have fresh := ((Node.Holds.make site .caseClause).withTags [.controlFlow]).withPosition
    clause.position
  have whole := ((clauseHead_assembly sound (.inr single) head rfl (by decide)).trans
    (optionalChild_assembly sound body rfl) (by decide)).emit fresh
  rw [Node.withPosition_address] at whole
  exact ⟨_, _, whole, rfl⟩

theorem branchClauses_assembly (sound : level.Sound)
    (h : (branchClauses level node role items).Yields limits s result t)
    (structural : role.isStructural = true)
    (ordered : role.isOrdered = true) :
    Assembly limits [role] node s result t := by
  obtain ⟨clauses, addresses, -, single, -, parts, rfl⟩ := yields_branchClauses h
  exact eachPart_assembly (fun _ clause member _ _ part =>
    (branchClause_framed sound (single clause member) part).built) parts structural ordered

theorem branch_assembly (sound : level.Sound) {branch : Option Source}
    (h : (Build.branch level node role branch).Yields limits s result t)
    (structural : role.isStructural = true) :
    Assembly limits [role] node s result t := by
  cases branch with
  | none =>
      obtain ⟨rfl, rfl⟩ := yields_pure h
      exact (Assembly.refl node s).weaken (List.nil_subset _)
  | some source =>
      obtain ⟨u, inner, rfl⟩ := yields_inScope h
      exact (child_assembly sound inner structural).framed

theorem controlNode_holds (site : Address) (kind : NodeKind) (source : Source) :
    (controlNode site kind source).Holds [] :=
  ((Node.Holds.make site kind).withTags _).withPosition _

@[simp] theorem controlNode_address (site : Address) (kind : NodeKind) (source : Source) :
    (controlNode site kind source).address = site := by
  simp [controlNode]

/-- The node of a control flow expression is emitted once its parts are assembled. -/
theorem emitControl_built {roles : List Role} {kind : NodeKind}
    (assembly : Assembly limits roles (controlNode site kind source) s result t) :
    Built limits [site] s (t.emit result) := by
  have whole := assembly.emit (controlNode_holds site kind source)
  rwa [controlNode_address] at whole

theorem conditional_built (sound : level.Sound) {negated : Bool} {condition branches : Source}
    {u : Unit} (h : (conditional level site source negated condition branches).Yields limits s u t) :
    Built limits [site] s t := by
  obtain ⟨n₁, s₁, n₂, s₂, n₃, s₃, first, second, third, rfl⟩ := yields_conditional h
  have assembly := ((child_assembly sound first rfl).trans (branch_assembly sound second rfl)
    (by decide)).trans (branch_assembly sound third rfl) (by decide)
  exact emitControl_built assembly

theorem caseExpression_built (sound : level.Sound) {subject branches : Source} {u : Unit}
    (h : (caseExpression level site source subject branches).Yields limits s u t) :
    Built limits [site] s t := by
  obtain ⟨n₁, s₁, first, rest⟩ := yields_bind h
  obtain ⟨n₂, s₂, second, last⟩ := yields_bind rest
  obtain rfl := yields_emit last
  exact emitControl_built
    ((child_assembly sound first rfl).trans (branchClauses_assembly sound second rfl rfl) (by decide))

theorem condClause_framed (sound : level.Sound) {clause : Clause} {u : Unit}
    (h : (condClause level site clause).Yields limits s u t) : BuiltInFrame limits site s t := by
  obtain ⟨middle, v, final, w, first, second, rfl⟩ := yields_condClause h
  have fresh := ((Node.Holds.make site .condClause).withTags [.controlFlow]).withPosition
    clause.position
  have whole := ((optionalChild_assembly sound first rfl).trans
    (optionalChild_assembly sound second rfl) (by decide)).emit fresh
  rw [Node.withPosition_address] at whole
  exact ⟨_, _, whole, rfl⟩

theorem condExpression_built (sound : level.Sound) {branches : Source} {u : Unit}
    (h : (condExpression level site source branches).Yields limits s u t) :
    Built limits [site] s t := by
  obtain ⟨clauses, addresses, v, -, -, parts, rfl⟩ := yields_condExpression h
  have same : site = (controlNode site .condExpression source).address := by simp
  rw [same] at parts
  exact emitControl_built
    (eachPart_assembly (fun _ _ _ _ _ part => (condClause_framed sound part).built) parts rfl rfl)

/-! ## Chains of generators -/

/-- A match: the value is built with a log, then the pattern, whose bindings enter the frame, then
whatever else the node holds. -/
theorem match_built {ofValue ofPattern : Role} {slots : List Slot} {bindings : Bindings}
    {u v w : Session}
    (valued : Built limits [node.address.at (ofValue, none)] { s with readLogs := ∅ :: s.readLogs } u)
    (pattern : Built limits [node.address.at (ofPattern, none)] { u with readLogs := u.readLogs.tail } v)
    (adds : Adds { u with readLogs := u.readLogs.tail } v [] bindings)
    (rest : Built limits (slots.map node.address.at)
      (bindings.foldl (fun s b => s.bindSymbol (some u.logged) b) v) w)
    (holds : node.Holds ([(ofValue, none), (ofPattern, none)] ++ slots))
    (isMatch : node.Matches ofValue ofPattern) : Built limits [node.address] s (w.emit node) := by
  obtain ⟨g, valued⟩ := valued
  obtain ⟨k, pattern⟩ := pattern
  obtain ⟨l, rest⟩ := rest
  exact ⟨_, .matched valued pattern (adds.introduced pattern) rest holds isMatch⟩

theorem generator_built (sound : level.Sound) {u : Unit} (ofValue : role = .value ∨ role = .enumerable)
    (h : (generator level role site source).Yields limits s u t) :
    Built limits [site] s t := by
  obtain ⟨parts, n₁, v, n₂, bindings, w, n₃, x, -, valued, matched, guarded, rfl⟩ := yields_generator h
  have fresh := (((Node.Holds.make site .generator).withTags [.controlFlow, .binding]).set
    "binary" parts.isBinary).withPosition source.position
  have kind : ((((Node.make site .generator).withTags [.controlFlow, .binding]).set "binary"
      parts.isBinary).withPosition source.position).kind = .generator := by simp
  have address : ((((Node.make site .generator).withTags [.controlFlow, .binding]).set "binary"
      parts.isBinary).withPosition source.position).address = site := by simp
  generalize ((((Node.make site .generator).withTags [.controlFlow, .binding]).set "binary"
    parts.isBinary).withPosition source.position) = start at valued fresh kind address
  obtain ⟨value, rfl⟩ := yields_child valued
  obtain ⟨more, s₅, pattern, last⟩ := yields_bind matched
  obtain ⟨same, rfl⟩ := yields_pure last
  obtain ⟨rfl, rfl⟩ := Prod.mk.inj same
  obtain ⟨patternBuilt, adds⟩ := sound.binding pattern
  have structural : role.isStructural = true := by rcases ofValue with rfl | rfl <;> rfl
  have differs : role ≠ .pattern := by rcases ofValue with rfl | rfl <;> decide
  have both := (fresh.relate (role, none) structural (fun _ member => (nomatch member))
    (.inr fun _ member => (nomatch member))).relate (.pattern, none) rfl
    (fun slot member => .inl (by rw [List.mem_singleton.mp member]; exact differs))
    (.inr fun slot member => by rw [List.mem_singleton.mp member]; exact differs)
  obtain ⟨added, holds, -, guardBuilt⟩ := (optionalChild_assembly sound guarded rfl).fills _ both
    (by rcases ofValue with rfl | rfl <;> simp)
  have final := (optionalChild_assembly sound guarded rfl).address
  have sort : n₃.kind = .generator := by
    cases guard : parts.guard with
    | none =>
        rw [guard] at guarded
        rw [← (yields_pure guarded).1]
        exact kind
    | some guardSource =>
        rw [guard] at guarded
        rw [(yields_child guarded).2]
        exact kind
  have whole : Built limits [n₃.address] s (x.emit n₃) := by
    simp only [Node.relate_address] at final
    replace holds : n₃.Holds ([(role, none), (.pattern, none)] ++ added) := holds
    refine match_built (u := v) ?_ ?_ adds ?_ holds (.inr ⟨sort, ofValue, rfl⟩)
    · rw [final]
      exact sound.expression value
    · rw [final]
      exact patternBuilt
    · rw [final]
      exact guardBuilt
  rw [final] at whole
  rwa [← address]

theorem chainClauses_address {isGenerator : Source → Bool}
    {buildGenerator buildOther : Address → Source → Build Unit} {otherwise : Role} {index : Nat}
    (h : (chainClauses isGenerator buildGenerator otherwise buildOther index items node).Yields
      limits s result t) : result.address = node.address := by
  induction items generalizing index node s with
  | nil => exact congrArg Node.address (yields_pure h).1.symm
  | cons clause items ih =>
      obtain ⟨u, -, rest⟩ := yields_chainClauses_cons h
      have kept := ih rest
      exact kept

/-- A chain numbers its clauses through, whatever their roles. -/
theorem chainClauses_fills {isGenerator : Source → Bool}
    {buildGenerator buildOther : Address → Source → Build Unit} {otherwise : Role}
    (generators : ∀ {address source s t},
      (buildGenerator address source).Yields limits s () t → Built limits [address] s t)
    (others : ∀ {address source s t},
      (buildOther address source).Yields limits s () t → Built limits [address] s t)
    (structural : otherwise.isStructural = true) (ordered : otherwise.isOrdered = true)
    {index : Nat}
    (h : (chainClauses isGenerator buildGenerator otherwise buildOther index items node).Yields
      limits s result t)
    {held : List Slot} (holds : node.Holds held)
    (below : ∀ slot ∈ held, slot.1 ∈ [.generator, otherwise] → ∃ i < index, slot.2 = some i) :
    ∃ added, result.Holds (held ++ added) ∧
      (∀ slot ∈ added, slot.1 ∈ [.generator, otherwise] ∧ ∃ i ≥ index, slot.2 = some i) ∧
      Built limits (added.map node.address.at) s t := by
  induction items generalizing index node s held with
  | nil =>
      obtain ⟨rfl, rfl⟩ := yields_pure h
      exact ⟨[], by simpa using holds, fun _ member => (nomatch member), .done s⟩
  | cons clause items ih =>
      -- Both kinds of clauses fill the slot of their role at the running position.
      have choice : ∃ role ∈ [.generator, otherwise], role.isStructural = true ∧
          role.isOrdered = true ∧ ∃ u, Built limits [node.address.at (role, some index)] s u ∧
          (chainClauses isGenerator buildGenerator otherwise buildOther (index + 1) items
            (node.relate role (node.address.at (role, some index)))).Yields limits u result t := by
        obtain ⟨u, first, rest⟩ := yields_chainClauses_cons h
        by_cases arrow : isGenerator clause = true
        · simp only [arrow, if_true] at first rest
          exact ⟨.generator, by simp, rfl, rfl, u, generators first, rest⟩
        · simp only [arrow] at first rest
          exact ⟨otherwise, by simp, structural, ordered, u, others first, rest⟩
      obtain ⟨role, known, structural', ordered', u, built, rest⟩ := choice
      have apart : ∀ slot ∈ held, slot.Apart (role, some index) := by
        intro slot member
        by_cases same : slot.1 = role
        · obtain ⟨i, less, position⟩ := below slot member (same ▸ known)
          exact .inr ⟨i, index, position, rfl, by omega⟩
        · exact .inl same
      have grown := holds.relate (role, some index) structural' apart (.inl ordered')
      obtain ⟨added, holds', later, built'⟩ := ih rest grown (by
        intro slot member known'
        rcases List.mem_append.mp member with old | new
        · obtain ⟨i, less, position⟩ := below slot old known'
          exact ⟨i, by omega, position⟩
        · obtain rfl := List.mem_singleton.mp new
          exact ⟨index, by omega, rfl⟩)
      refine ⟨(role, some index) :: added, by simpa using holds', ?_, ?_⟩
      · intro slot member
        rcases List.mem_cons.mp member with rfl | member
        · exact ⟨known, index, by omega, rfl⟩
        · obtain ⟨known', i, more, position⟩ := later slot member
          exact ⟨known', i, by omega, position⟩
      · refine built.next built' ?_
        intro x hx y hy
        rw [List.mem_singleton.mp hx]
        obtain ⟨slot, member, rfl⟩ := List.mem_map.mp hy
        obtain ⟨-, i, more, position⟩ := later slot member
        exact node.address.at_apart (p := (role, some index))
          (.inr ⟨index, i, rfl, position, by omega⟩)

theorem chainClauses_assembly {isGenerator : Source → Bool}
    {buildGenerator buildOther : Address → Source → Build Unit} {otherwise : Role}
    (generators : ∀ {address source s t},
      (buildGenerator address source).Yields limits s () t → Built limits [address] s t)
    (others : ∀ {address source s t},
      (buildOther address source).Yields limits s () t → Built limits [address] s t)
    (h : (chainClauses isGenerator buildGenerator otherwise buildOther 0 items node).Yields
      limits s result t)
    (structural : otherwise.isStructural = true)
    (ordered : otherwise.isOrdered = true) :
    Assembly limits [.generator, otherwise] node s result t := by
  refine ⟨chainClauses_address h, fun held holds free => ?_⟩
  obtain ⟨added, holds', later, built⟩ := chainClauses_fills generators others structural ordered h
    holds fun slot member known => absurd known (free slot member)
  exact ⟨added, holds', fun slot member => (later slot member).1, built⟩

theorem withExpression_built (sound : level.Sound) (deeper : inner.Sound) {clauses : List Source}
    {options : Source} {u : Unit}
    (h : (withExpression level inner site source clauses options).Yields limits s u t) :
    Built limits [site] s t := by
  obtain ⟨n₁, v, n₂, w, -, clauses, body, rest⟩ := yields_withExpression h
  have chained := (chainClauses_assembly (generator_built deeper (by simp))
    sound.expression clauses rfl rfl).trans
    (optionalChild_assembly sound body rfl) (by decide)
  have assembly := (Assembly.declare (controlNode site .withExpression source) .generator).trans
    chained.framed (by decide)
  obtain ⟨-, rfl⟩ | ⟨alternatives, n₃, x, -, fallback, rfl⟩ := rest
  · exact emitControl_built assembly
  · exact emitControl_built (assembly.trans (branchClauses_assembly sound fallback rfl rfl) (by decide))

/-- The qualifiers of a comprehension are followed by its body: a list of clauses if it reduces, an
expression otherwise. -/
theorem qualifiers_assembly (sound : level.Sound) (deeper : inner.Sound) {qualifiers : List Source}
    {options : Source}
    (h : (inScope .comprehension do
      let node ← chainClauses Generator.isQualifier (generator inner .enumerable) .filter
        level.expression 0 qualifiers (node.declare .generator)
      match options.keyword? "reduce" with
      | some _ => branchClauses level node .clause (clauseItems (options.keyword? "do"))
      | none => optionalChild level node .body (options.keyword? "do")).Yields limits s result t) :
    Assembly limits ([.generator, .filter] ++ [.clause, .body]) node s result t := by
  obtain ⟨v, chain, rfl⟩ := yields_inScope h
  obtain ⟨n₂, s₃, clauses, body⟩ := yields_bind chain
  have chained := (Assembly.declare node .generator).trans
    (chainClauses_assembly (generator_built deeper (by simp)) sound.expression clauses rfl rfl)
    (by decide)
  split at body
  · have last := (branchClauses_assembly sound body rfl rfl).weaken (show _ ⊆ [.clause, .body] by decide)
    exact (chained.trans last (by decide)).framed
  · have last := (optionalChild_assembly sound body rfl).weaken (show _ ⊆ [.clause, .body] by decide)
    exact (chained.trans last (by decide)).framed

theorem comprehension_built (sound : level.Sound) (deeper : inner.Sound)
    {qualifiers : List Source} {options : Source} {u : Unit}
    (h : (comprehension level inner site source qualifiers options).Yields limits s u t) :
    Built limits [site] s t := by
  obtain ⟨n₁, v, n₂, w, n₃, x, -, into, reduce, framed, rfl⟩ := yields_comprehension h
  have opened := (optionalChild_assembly sound into rfl).trans (optionalChild_assembly sound reduce rfl)
    (by decide)
  split at framed
  · have filled := qualifiers_assembly sound deeper framed
    exact emitControl_built ((opened.adjust (.set _ _ _)).trans filled (by decide))
  · have filled := qualifiers_assembly sound deeper framed
    exact emitControl_built (opened.trans filled (by decide))

/-! ## Closures -/

theorem closureClause_framed (sound : level.Sound) {clause : Clause} {u : Unit}
    (h : (closureClause level site clause).Yields limits s u t) : BuiltInFrame limits site s t := by
  obtain ⟨middle, names, v, final, w, head, body, rfl⟩ := yields_closureClause h
  have fresh := ((Node.Holds.make site .anonymousFunctionClause).withTags [.closure]).withPosition
    clause.position
  have headed := (clauseHead_assembly sound (.inl rfl) head rfl (by decide)).andThen ⟨_, .bound _ names⟩
  have whole := (headed.trans (optionalChild_assembly sound body rfl) (by decide)).emit fresh
  rw [Node.withPosition_address] at whole
  exact ⟨_, _, whole, rfl⟩

/-- What was built inside a closure leaves it the innermost open one. -/
theorem opened_closure {roots : List Address} (built : Built limits roots (s.openClosure site) t) :
    ∃ opened others, t.closures = opened :: others ∧ opened.tracker.closure = site := by
  obtain ⟨gain, course⟩ := built.course
  have follows := course.follows
  generalize t.closures = closures at follows
  cases follows with
  | cons head others => exact ⟨_, _, rfl, head.closure⟩

/-- Closing a closure gives its node the nodes of what it captures. The node may still be changed
before it is emitted, as long as it keeps those. -/
theorem closeClosure_built (slots : List Slot) (final : Node) {u : Session}
    (inner : Built limits (slots.map node.address.at) (s.openClosure node.address) t)
    (h : (closeClosure node).Yields limits t result u)
    (holds : ∀ count, result = (node.declare .captures).relateAll .captures
        ((Slot.numbered .captures 0 count).map node.address.at) →
      final.address = node.address ∧ final.Holds (slots ++ Slot.numbered .captures 0 count)) :
    Built limits [node.address] s (u.emit final) := by
  obtain ⟨opened, others, top, closure⟩ := opened_closure inner
  obtain ⟨gain, route⟩ := inner
  obtain ⟨report, reported, rfl, rfl⟩ := yields_closeClosure top h
  have same : report.closure = node.address := (Tracker.report_closure reported).trans closure
  obtain ⟨address, held⟩ :=
    holds report.captures.length (by rw [ClosureReport.captureNodes_addresses, same])
  rw [← address] at route ⊢
  exact ⟨_, .closure route top reported held⟩

/-- The captures of a closure fill a role that its node has not used. -/
theorem captures_holds {slots : List Slot} (holds : node.Holds slots)
    (free : ∀ slot ∈ slots, slot.1 ≠ .captures) (count : Nat) :
    ((node.declare .captures).relateAll .captures
      ((Slot.numbered .captures 0 count).map node.address.at)).Holds
      (slots ++ Slot.numbered .captures 0 count) := by
  refine (holds.declare .captures).relateAll .captures _ (by decide) (by decide)
    (fun slot member => Slot.role_of_mem_numbered member) (Slot.numbered_apart .captures 0 count) ?_
  intro slot member new hnew
  refine .inl fun same => free slot member ?_
  rw [same, Slot.role_of_mem_numbered hnew]

theorem anonymousFunction_built (sound : level.Sound) {u : Unit}
    (h : (anonymousFunction level site source items).Yields limits s u t) :
    Built limits [site] s t := by
  obtain ⟨clauses, arity, addresses, v, w, final, -, -, parts, closed, rfl⟩ := yields_anonymousFunction h
  have fresh := ((((Node.Holds.make site .anonymousFunction).withTags [.expression, .closure]).set
    "arity" arity).set "clause_count" clauses.length).withPosition source.position
  obtain ⟨rfl, built⟩ :=
    eachPart_built (fun _ _ _ _ _ part => (closureClause_framed sound part).built) parts
  have holds := (fresh.declare .clause).relateAll .clause
    (Slot.numbered .clause 0 clauses.length) (by decide) (by decide)
    (fun slot member => Slot.role_of_mem_numbered member) (Slot.numbered_apart _ _ _)
    (fun _ member => (nomatch member))
  simp only [Node.declare_address, Node.withPosition_address, Node.set_address,
    Node.withTags_address, Node.make_address, List.nil_append] at holds
  have whole := closeClosure_built _ final (by simpa using built) closed fun count same =>
    ⟨by rw [same]; simp, by
      rw [same]
      exact captures_holds holds (fun slot member role => by
        rw [Slot.role_of_mem_numbered member] at role
        cases role) count⟩
  simpa using whole

theorem functionCapture_built (sound : level.Sound) {f : CapturedFunction} {u : Unit}
    (h : (functionCapture level site source f).Yields limits s u t) : Built limits [site] s t := by
  have fresh := ((((Node.Holds.make site .functionCapture).withTags [.expression, .closure]).set
    "arity" f.arity).withPosition source.position).set "name" f.name
  have finish : ∀ {n final : Node} {s t : Session}, n.address = site → n.Holds [] →
      Assembly limits [.receiver] n s final t →
      Built limits [site] s
        ((t.emit (functionReference (site.child Role.callee.label) (f.receiver.bind receiverModule?)
          f.name f.arity)).emit (final.relate .callee (site.child Role.callee.label))) := by
    rintro n final s t rfl fresh received
    have referred := functionReference_assembly limits t final
      (f.receiver.bind receiverModule?) f.name f.arity
    rw [received.address] at referred
    exact (received.trans referred (by decide)).emit fresh
  obtain ⟨n₁, s₁, ⟨-, rfl, rfl⟩ | ⟨target, -, received⟩, rfl⟩ := yields_functionCapture h
  · refine finish (by simp) fresh (Assembly.weaken ?_ (List.nil_subset _))
    split
    · exact .set _ _ _
    · exact .refl _ _
  · refine finish (by simp) fresh ((receiver_assembly sound received).adjust ?_)
    split
    · exact .set _ _ _
    · exact .refl _ _

theorem shorthandClosure_built (sound : level.Sound) {body : Source} {u : Unit}
    (h : (shorthandClosure level site source body).Yields limits s u t) :
    Built limits [site] s t := by
  obtain ⟨v, closed, w, inner, closing, rfl⟩ := yields_shorthandClosure h
  have fresh := ((Node.Holds.make site .shorthandClosure).withTags
    [.expression, .closure]).withPosition source.position
  obtain ⟨gain, route⟩ := sound.expression inner
  have whole := closeClosure_built [(.body, none)]
    ((closed.set "arity" (v.placeholders.head?.getD 0)).relate .body (site.child Role.body.label))
    (by simpa using ⟨gain, .counted route⟩) closing fun count same => by
      have held := captures_holds fresh (fun _ member => (nomatch member)) count
      rw [← same, List.nil_append] at held
      have address : closed.address = site := by rw [same]; simp
      have last := (held.set "arity" (v.placeholders.head?.getD 0)).relate (.body, none) (by decide)
        (fun slot member => .inl (by rw [Slot.role_of_mem_numbered member]; decide))
        (.inr fun slot member => by rw [Slot.role_of_mem_numbered member]; decide)
      rw [Node.set_address, address] at last
      exact ⟨by simp [address], last.perm List.perm_append_comm⟩
  simpa using whole

theorem capture_built (sound : level.Sound) {body : Source} {u : Unit}
    (h : (capture level site source body).Yields limits s u t) : Built limits [site] s t := by
  unfold capture at h
  split at h
  · exact functionCapture_built sound h
  · exact shorthandClosure_built sound h

theorem placeholder_built {index : Int64} {u : Unit}
    (h : (placeholder site source index).Yields limits s u t) : Built limits [site] s t := by
  obtain ⟨greatest, others, top, rfl⟩ := yields_placeholder h
  have leaf := Built.leaf limits { s with placeholders := max greatest index :: others }
    ((((Node.Holds.make site .capturePlaceholder).withTags [.expression]).set "index"
      index).withPosition source.position)
  rw [Node.withPosition_address] at leaf
  exact Built.after ⟨_, .placeholder index top⟩ leaf

/-! ## Definitions -/

theorem functionClause_framed (sound : level.Sound) {clause : Clause} {u : Unit}
    (h : (functionClause level site clause).Yields limits s u t) : BuiltInFrame limits site s t := by
  obtain ⟨middle, names, v, final, w, head, body, rfl⟩ := yields_functionClause h
  have fresh := (Node.Holds.make site .functionClause).withPosition clause.position
  have whole := ((clauseHead_assembly sound (.inl rfl) head rfl (by decide)).trans
    (optionalChild_assembly sound body rfl) (by decide)).emit fresh
  rw [Node.withPosition_address] at whole
  exact ⟨_, _, whole, rfl⟩

theorem definition_built (sound : level.Sound) {u : Unit}
    (h : (definition level site items).Yields limits s u t) : Built limits [site] s t := by
  obtain ⟨first, others, arity, addresses, v, -, -, -, parts, rfl⟩ := yields_definition h
  have fresh := ((((((Node.Holds.make site .functionDefinition).withTags [.expression]).set "name"
    first.name).set "arity" arity).set "visibility" first.visibility).set "clause_count"
    (first :: others).length).withPosition first.clause.position
  obtain ⟨rfl, built⟩ :=
    eachPart_built (fun _ _ _ _ _ part => (functionClause_framed sound part).built) parts
  have assembly := Assembly.numbered .clause (by decide) (by decide)
    (by simpa using built.framed) |>.emit fresh
  simpa using assembly

/-! ## Operators, blocks and all other expressions -/

/-- The node of a binary operator holds its two operands. -/
theorem binaryNode_holds (site : Address) (kind : NodeKind) (sign : String) :
    (binaryNode site kind sign (site.at (.leftOperand, none)) (site.at (.rightOperand, none))).Holds
      [(.leftOperand, none), (.rightOperand, none)] := by
  have left := (((Node.Holds.make site kind).withTags
    [.expression, .operator, .binaryOperator]).set "symbol" sign).relate
    (.leftOperand, none) (by decide) (fun _ member => (nomatch member))
    (.inr fun _ member => (nomatch member))
  exact left.relate (.rightOperand, none) (by decide)
    (fun slot member => .inl (by rw [List.mem_singleton.mp member]; decide))
    (.inr fun slot member => by rw [List.mem_singleton.mp member]; decide)

theorem operands_apart {p q : Slot} (apart : p.Apart q) :
    ∀ x ∈ [site.at p], ∀ y ∈ [site.at q], x.Apart y := by
  intro x hx y hy
  rw [List.mem_singleton.mp hx, List.mem_singleton.mp hy]
  exact site.at_apart apart

theorem matching_built (sound : level.Sound) {sign : String} {left right : Source} {u : Unit}
    (h : (matching level site source sign left right).Yields limits s u t) :
    Built limits [site] s t := by
  obtain ⟨v, bindings, w, value, pattern, rfl⟩ := yields_matching h
  obtain ⟨patternBuilt, adds⟩ := sound.binding pattern
  have holds := (((binaryNode_holds site .matchOperator sign).withTags [.binding]).withPosition
    source.position).perm (.swap _ _ _)
  have address : (((binaryNode site .matchOperator sign (site.at (.leftOperand, none))
    (site.at (.rightOperand, none))).withTags [.binding]).withPosition source.position).address = site := by
    simp [binaryNode]
  have whole := match_built (by rw [address]; exact sound.expression value)
    (by rw [address]; exact patternBuilt) adds (.done _) holds
    (.inl ⟨(Node.withPosition_kind _ _).trans rfl, rfl, rfl⟩)
  rwa [address] at whole

theorem binaryOperator_built (sound : level.Sound) {kind : NodeKind} {sign : String}
    {left right : Source} {u : Unit}
    (h : (binaryOperator level site source kind sign left right).Yields limits s u t) :
    Built limits [site] s t := by
  obtain ⟨_, s₁, first, rest⟩ := yields_bind h
  obtain ⟨_, s₂, second, last⟩ := yields_bind rest
  obtain rfl := yields_emit last
  obtain ⟨gain, operands⟩ := (sound.expression first).next (sound.expression second)
    (operands_apart (p := (.leftOperand, none)) (q := (.rightOperand, none)) (.inl (by decide)))
  have holds := (binaryNode_holds site kind sign).withPosition source.position
  have address : ((binaryNode site kind sign (site.at (.leftOperand, none))
    (site.at (.rightOperand, none))).withPosition source.position).address = site := by
    simp [binaryNode]
  have whole : Built limits _ s (s₂.emit _) := ⟨_, .node (by rw [address]; exact operands) holds⟩
  rwa [address] at whole

theorem unaryOperator_built (sound : level.Sound) {kind : NodeKind} {sign : String}
    {operand : Source} {u : Unit}
    (h : (unaryOperator level site source kind sign operand).Yields limits s u t) :
    Built limits [site] s t := by
  obtain ⟨middle, s₁, inner, last⟩ := yields_bind h
  obtain rfl := yields_emit last
  have fresh := (((Node.Holds.make site kind).withTags
    [.expression, .operator, .unaryOperator]).set "symbol" sign).withPosition source.position
  have whole := (child_assembly sound inner rfl).emit fresh
  rwa [Node.withPosition_address] at whole

theorem block_built (sound : level.Sound) {u : Unit}
    (h : (block level site source items).Yields limits s u t) : Built limits [site] s t := by
  obtain ⟨addresses, s₁, parts, last⟩ := yields_bind h
  obtain rfl := yields_emit last
  have fresh := ((Node.Holds.make site .block).withTags [.expression]).withPosition source.position
  have same : site =
      (((Node.make site .block).withTags [.expression]).withPosition source.position).address := by
    simp
  rw [same] at parts
  have whole := (eachPart_assembly (fun _ _ _ _ _ part => sound.expression part) parts rfl rfl).emit fresh
  rwa [← same] at whole

theorem localCall_built (sound : level.Sound) {name : String} {u : Unit}
    (h : (localCall level site source name items).Yields limits s u t) :
    Built limits [site] s t := by
  unfold localCall at h
  split at h
  · exact definition_built sound h
  · dsimp only at h
    split at h
    · obtain ⟨v, inner, rfl⟩ := yields_inScope h
      exact (call_built sound inner).framed
    · exact call_built sound h

/-- The node of a name has no parts. -/
theorem nameNode_built {kind : NodeKind} {name : String} :
    Built limits [site] s (s.emit (nameNode site kind name source)) := by
  have leaf := Built.leaf limits s
    ((((Node.Holds.make site kind).withTags [.expression]).set "name" name).withPosition
      source.position)
  rwa [Node.withPosition_address] at leaf

theorem symbol_built {name : String} {u : Unit}
    (h : (do
      readSymbol name site source.position
      emit ((nameNode site .variable name source).set "ignored" (isIgnored name))).Yields
        limits s u t) : Built limits [site] s t := by
  obtain ⟨_, s₁, read, last⟩ := yields_bind h
  obtain rfl := yields_readSymbol read
  obtain rfl := yields_emit last
  have leaf := ((((Node.Holds.make site .variable).withTags [.expression]).set "name"
    name).withPosition source.position).set "ignored" (isIgnored name)
  have route : Route limits _ _ s ((s.readSymbol name _ source.position).emit _) :=
    .symbol leaf (by simp) ?_
  · simp only [Node.set_address, Node.withPosition_address, Node.withTags_address,
      Node.make_address] at route
    exact ⟨_, route⟩
  · rw [Node.text?_set_of_ne _ _ (by decide),
      Node.text?_withPosition _ _ (by decide) (by decide), Node.text?_set_self]

theorem expressionStep_built (sound : level.Sound) (deeper : inner.Sound) {u : Unit}
    (h : (expressionStep level inner site source).Yields limits s u t) :
    Built limits [site] s t := by
  unfold expressionStep at h
  split at h
  · exact literal_built sound h
  · exact symbol_built h
  · obtain rfl := yields_emit h
    exact nameNode_built
  · obtain rfl := yields_emit h
    exact nameNode_built
  · split at h
    · rename_i name _
      obtain rfl := yields_emit h
      have leaf := Built.leaf limits s
        ((((Node.Holds.make site .alias).withTags [.expression]).set "qualified_name"
          name).withPosition source.position)
      rwa [Node.withPosition_address] at leaf
    · exact unknown_built h
  · exact unaryOperator_built sound h
  · exact matching_built sound h
  · exact binaryOperator_built sound h
  · exact block_built sound h
  · exact conditional_built sound h
  · exact caseExpression_built sound h
  · exact condExpression_built sound h
  · exact withExpression_built sound deeper h
  · exact comprehension_built sound deeper h
  · exact anonymousFunction_built sound h
  · exact capture_built sound h
  · exact placeholder_built h
  · exact localCall_built sound h
  · exact call_built sound h
  · exact call_built sound h
  · exact unknown_built h

end SyntaxGraph.Build

namespace SyntaxGraph.Level

theorem bottom_sound : bottom.Sound :=
  ⟨fun h => absurd h Build.not_yields_tooDeep, fun h => absurd h Build.not_yields_tooDeep⟩

theorem above_sound {room : Nat} {level inner : Level} (sound : level.Sound)
    (deeper : inner.Sound) : (above room (fun _ => level) (fun _ => inner)).Sound :=
  ⟨fun h => Build.expressionStep_built sound deeper h, fun h =>
    Build.patternStep_built sound (fun h => Build.expressionStep_built sound deeper h) h⟩

/-- Whatever is built at any level runs along a route. -/
theorem ofRoom_sound : ∀ room, (ofRoom room).Sound
  | 0 => bottom_sound
  | 1 => above_sound bottom_sound bottom_sound
  | room + 2 => above_sound (ofRoom_sound (room + 1)) (ofRoom_sound room)

/-- What is built at a level is built from levels below it. -/
theorem yields_expression {room : Nat} {site : Address} {source : Source} {limits : Limits}
    {s t : Session} {u : Unit} (h : ((ofRoom room).expression site source).Yields limits s u t) :
    (Build.expressionStep (ofRoom (room - 1)) (ofRoom (room - 2)) site source).Yields limits s u t := by
  match room, h with
  | 0, h => exact absurd h Build.not_yields_tooDeep
  | 1, h => exact h
  | room + 2, h => exact h

end SyntaxGraph.Level

namespace SyntaxGraph

/-- What runs when a construct is compiled. -/
def Construct.build (k : Construct) (c : Compiler) : Build Unit :=
  match k with
  | .expression root source => c.level.expression root source
  | .function root clauses => Compiler.buildFunction root clauses c.limits.maxDepth
  | .pattern root source => (fun _ => ()) <$> c.level.pattern root source []

namespace Compiler

variable {c : Compiler} {k : Construct} {compiled : Compiled}

theorem run_eq_ok {α : Type} {root : Address} {build : Build α} {result : Compiled × α}
    (h : c.run root build = .ok result) :
    ∃ t, build.Yields c.limits c.session result.2 t ∧ result.1 = finish root t := by
  unfold run at h
  split at h
  · rename_i value t success
    cases h
    exact ⟨t, success, rfl⟩
  · cases h

/-- A compiled construct is what its build amounts to. -/
theorem construct_eq_ok (h : c.construct k = .ok compiled) :
    ∃ t, (k.build c).Yields c.limits c.session () t ∧ compiled = finish k.root t := by
  cases k with
  | expression root source =>
      obtain ⟨result, run, rfl⟩ := except_map_eq_ok h
      exact run_eq_ok run
  | function root clauses =>
      obtain ⟨result, run, rfl⟩ := except_map_eq_ok h
      exact run_eq_ok run
  | pattern root source =>
      obtain ⟨found, compiledPattern, rfl⟩ := except_map_eq_ok h
      obtain ⟨result, run, rfl⟩ := except_map_eq_ok compiledPattern
      obtain ⟨t, success, finished⟩ := run_eq_ok run
      exact ⟨t, success.map, finished⟩

/-- Every construct is built along a route. -/
theorem construct_route {s t : Session} (h : (k.build c).Yields c.limits s () t) :
    Built c.limits [k.root] s t := by
  cases k with
  | expression root source => exact (Level.ofRoom_sound _).expression h
  | function root clauses =>
      unfold Construct.build buildFunction at h
      cases depth : c.limits.maxDepth with
      | zero =>
          rw [depth] at h
          exact absurd h Build.not_yields_tooDeep
      | succ room =>
          rw [depth] at h
          exact Build.definition_built (Level.ofRoom_sound room) h
  | pattern root source =>
      obtain ⟨bindings, success, -⟩ := Build.yields_map h
      exact ((Level.ofRoom_sound _).binding success).1

/-- Every construct is built along a course. -/
theorem construct_built {s t : Session} (h : (k.build c).Yields c.limits s () t) :
    ∃ gain, Course c.limits [k.root] gain s t :=
  (construct_route h).course

end Compiler

end SyntaxGraph
