import SyntaxGraph.Proofs.Runs
import SyntaxGraph.Proofs.Tally

/-!
# What builders count

Counts are written apart from the targets that they count: the size of a collection after its
parts are built, the number of arguments and of clauses before, the number of parameters of a
clause on the node around it. One lemma per builder says that what is written agrees with the
targets. An ordered role lists every target that was added; a role that is not ordered keeps
each target once, so that a single pattern is a single target.
-/

namespace SyntaxGraph

/-! ## Nodes under construction -/

namespace Node

variable {n m : Node} {role other : Role} {name : String} {stands : Address → Node → Prop}

@[simp] theorem declare_kind (n : Node) (role : Role) : (n.declare role).kind = n.kind := rfl

theorem related_relate_of_ne (n : Node) (ne : other ≠ role) (target : Address) :
    (n.relate role target).related other = n.related other :=
  related_congr other (n.relation_relate_of_ne ne target)

/-- The first target of a role stands alone, however the role is kept. -/
theorem related_relate_of_fresh (fresh : n.related role = []) (target : Address) :
    (n.relate role target).related role = [target] := by
  rw [← relation_targets] at fresh ⊢
  rw [relation_relate_self, Relation.push_targets_of_empty fresh]

/-- The targets of an ordered role without targets are those that are added. -/
theorem related_numbered (fresh : n.relation role = .empty true) (targets : List Address) :
    ((n.declare role).relateAll role targets).related role = targets := by
  rw [related_relateAll_of_ordered _ _ (by rw [relation_declare, fresh]; rfl), ← relation_targets,
    relation_declare, fresh]
  rfl

/-- What differs in its position alone states the same counts. -/
theorem Counted.withPosition (counted : n.Counted stands) (position : Option Position) :
    (n.withPosition position).Counted stands := by
  have related : ∀ role, (n.withPosition position).related role = n.related role := fun role =>
    related_congr role (relation_congr role (n.withPosition_relations position))
  have property : ∀ {name}, name ≠ "line" → name ≠ "column" →
      (n.withPosition position).property? name = n.property? name :=
    fun line column => n.property?_withPosition position line column
  unfold Counted at counted ⊢
  rw [withPosition_kind]
  simp only [related]
  have clauses : n.CountsClauses stands → (n.withPosition position).CountsClauses stands := by
    rintro ⟨some, clauses, arity, states, each⟩
    constructor
    · rwa [related]
    · rw [related]
      exact clauses.congr (property (by decide) (by decide))
    · rw [related]
      exact ⟨arity, states.congr (property (by decide) (by decide)), each⟩
  have arguments : n.CountsArguments stands → (n.withPosition position).CountsArguments stands := by
    rintro ⟨arguments, callee⟩
    constructor
    · rw [related]
      exact arguments.congr (property (by decide) (by decide))
    · rw [related, property (by decide) (by decide), n.text?_withPosition position (by decide) (by decide)]
      exact callee
  split at counted
  · exact clauses counted
  · exact clauses counted
  · exact arguments counted
  · exact arguments counted
  · exact arguments counted
  · exact counted.congr (property (by decide) (by decide))
  · exact counted.congr (property (by decide) (by decide))
  · exact counted.congr (property (by decide) (by decide))
  · exact counted.congr (property (by decide) (by decide))
  · exact counted.congr (property (by decide) (by decide))
  · exact counted.congr (property (by decide) (by decide))
  all_goals exact counted

end Node

namespace Node

variable {n : Node} {stands : Address → Node → Prop}

theorem Counted.ofFunction (kind : n.kind = .anonymousFunction ∨ n.kind = .functionDefinition)
    (counts : n.CountsClauses stands) : n.Counted stands := by
  unfold Counted
  rcases kind with kind | kind <;> rwa [kind]

theorem Counted.ofElements (kind : n.kind = .listLiteral ∨ n.kind = .tupleLiteral)
    (states : n.States "size" (n.related .element).length) : n.Counted stands := by
  unfold Counted
  rcases kind with kind | kind <;> rwa [kind]

theorem Counted.ofEntries (kind : n.kind = .keywordList ∨ n.kind = .mapLiteral ∨ n.kind = .structLiteral)
    (states : n.States "size" (n.related .entry).length) : n.Counted stands := by
  unfold Counted
  rcases kind with kind | kind | kind <;> rwa [kind]

theorem Counted.ofCall (kind : n.kind ∈ [.localCall, .remoteCall, .anonymousCall])
    (counts : n.CountsArguments stands) : n.Counted stands := by
  simp only [List.mem_cons, List.not_mem_nil, or_false] at kind
  unfold Counted
  rcases kind with kind | kind | kind <;> rwa [kind]

end Node

/-- The node of a capture counts the reads. -/
theorem ClosureReport.captureNode_counted (r : ClosureReport) (index : Nat) (capture : Capture)
    (stands : Address → Node → Prop) : (r.captureNode index capture).Counted stands := by
  unfold Node.Counted
  rw [r.captureNode_kind index capture]
  -- Where the symbol comes from is noted in other properties and in a role of its own.
  have finish : ∀ n : Node, n.property? "reference_count" = some (.ofNat capture.referenceCount) →
      n.relation .reference = .empty true →
      (n.relateAll .reference capture.references).States "reference_count"
        ((n.relateAll .reference capture.references).related .reference).length := by
    intro n stated fresh
    have listed : (n.relateAll .reference capture.references).related .reference = capture.references := by
      rw [Node.related_relateAll_of_ordered _ _ (by rw [fresh]; rfl), ← Node.relation_targets, fresh]
      rfl
    rw [listed]
    exact .ofNat (by rw [Node.property?_relateAll, stated]; rfl)
  unfold captureNode
  cases capture.supply with
  | none =>
      refine finish _ ?_ rfl
      dsimp only
      rw [Node.property?_set_of_ne _ _ (by decide), Node.property?_set_self]
  | some supply =>
      have counted : ∀ n : Node, n.property? "reference_count" = some (.ofNat capture.referenceCount) →
          ((n.set "frame_kind" supply.kind.name).set "frame_distance" supply.distance).property?
            "reference_count" = some (.ofNat capture.referenceCount) := by
        intro n stated
        rw [Node.property?_set_of_ne _ _ (by decide), Node.property?_set_of_ne _ _ (by decide), stated]
      dsimp only
      cases supply.binding with
      | none =>
          refine finish _ (counted _ ?_) rfl
          rw [Node.property?_set_of_ne _ _ (by decide), Node.property?_set_self]
      | some binding =>
          refine finish _ ?_ ?_
          · rw [Node.property?_relate]
            apply counted
            rw [Node.property?_set_of_ne _ _ (by decide), Node.property?_set_self]
          · rw [Node.relation_relate_of_ne _ (by decide)]
            rfl

namespace Build

variable {limits : Limits} {level : Level} {site : Address} {node result : Node} {role : Role}
  {source : Source} {items : List Source} {s t : Session} {stands : Address → Node → Prop} {α β : Type}

/-! ## Collections -/

theorem length_foldParts {build : Address → α → β → Build β} {index : Nat} {parts : List α} {value : β}
    {found : List Address × β}
    (h : (foldParts site role build index parts value).Yields limits s found t) :
    found.1.length = parts.length := by
  induction parts generalizing index value s found with
  | nil =>
      obtain ⟨rfl, rfl⟩ := yields_foldParts_nil h
      rfl
  | cons part parts ih =>
      obtain ⟨middle, addresses, u, first, others, addressed⟩ := yields_foldParts_cons h
      have counted : addresses.length = parts.length := ih others
      rw [addressed, List.length_cons, counted, List.length_cons]

theorem length_eachPart {build : Address → α → Build Unit} {parts : List α} {addresses : List Address}
    (h : (eachPart site role build parts).Yields limits s addresses t) :
    addresses.length = parts.length := length_foldParts (yields_eachPart h)

/-- The size of a collection is the number of parts built for it. -/
theorem states_size {build : Address → α → Build Unit} {parts : List α} {addresses : List Address}
    (fresh : node.relation role = .empty true)
    (h : (eachPart site role build parts).Yields limits s addresses t) :
    (((node.declare role).relateAll role addresses).set "size" parts.length).States "size"
      ((((node.declare role).relateAll role addresses).set "size" parts.length).related role).length := by
  have listed : (((node.declare role).relateAll role addresses).set "size" parts.length).related role =
      addresses := Node.related_numbered fresh addresses
  rw [listed, length_eachPart h]
  exact Node.states_set _ _ _

theorem elements_states (fresh : node.relation .element = .empty true)
    (h : (elements level node items).Yields limits s result t) :
    result.States "size" (result.related .element).length := by
  obtain ⟨addresses, -, parts, rfl⟩ := yields_elements h
  exact states_size fresh parts

theorem entries_states (fresh : node.relation .entry = .empty true)
    (h : (entries level node items).Yields limits s result t) :
    result.States "size" (result.related .entry).length := by
  obtain ⟨addresses, -, parts, rfl⟩ := yields_entries h
  exact states_size fresh parts

/-- The base that entries update is not counted. -/
theorem mapBody_states (fresh : node.relation .entry = .empty true)
    (h : (mapBody level node items).Yields limits s result t) :
    result.States "size" (result.related .entry).length := by
  unfold mapBody at h
  split at h
  · obtain ⟨middle, u, based, rest⟩ := yields_bind h
    obtain ⟨-, rfl⟩ := yields_child based
    exact entries_states ((node.relation_relate_of_ne (by decide) _).trans fresh) rest
  · exact entries_states fresh h

/-- An entry has one key and one value. -/
theorem entryNode_counted (site : Address) (tags : List NodeTag) (key value : Address)
    (position : Option Position) :
    ((((Node.make site .mapEntry).withTags tags).relate .key key).relate .value value
      |>.withPosition position).Counted stands := by
  apply Node.Counted.withPosition
  refine And.intro ?_ ?_
  · rw [Node.related_relate_of_ne _ (by decide), Node.related_relate_of_fresh rfl]
    rfl
  · rw [Node.related_relate_of_fresh]
    · rfl
    · rw [Node.related_relate_of_ne _ (by decide)]
      rfl

/-! ## Calls -/

theorem functionReference_named (site : Address) (module? : Option String) (name : String) (arity : Nat) :
    (functionReference site module? name arity).address = site ∧
      (functionReference site module? name arity).kind = .functionReference ∧
      (functionReference site module? name arity).property? "arity" = some (.ofNat arity) ∧
      (functionReference site module? name arity).text? "name" = some name := by
  have base : ∀ qualified : String,
      ((((Node.make site .functionReference).set "name" name).set "arity" arity).set "qualified_name"
        qualified).property? "arity" = some (.ofNat arity) ∧
      ((((Node.make site .functionReference).set "name" name).set "arity" arity).set "qualified_name"
        qualified).text? "name" = some name := by
    intro qualified
    constructor
    · rw [Node.property?_set_of_ne _ _ (by decide), Node.property?_set_self]
    · rw [Node.text?_set_of_ne _ _ (by decide), Node.text?_set_of_ne _ _ (by decide), Node.text?_set_self]
  cases module? with
  | none => exact ⟨rfl, rfl, base name⟩
  | some module =>
      obtain ⟨counted, named⟩ := base (module ++ "." ++ name)
      exact ⟨rfl, rfl, (Node.property?_set_of_ne _ _ (by decide)).trans counted,
        (Node.text?_set_of_ne _ _ (by decide)).trans named⟩

/-- What a call points at is a reference of its name that stands and counts the same arguments. -/
theorem callee_refers {target : Callee} {arity : Nat} (fresh : node.related .callee = [])
    (h : (callee level node target arity).Yields limits s result t) :
    result.property? "arity" = node.property? "arity" ∧
      ∀ address ∈ result.related .callee, ∃ reference, t.Stands address reference ∧
        reference.kind = .functionReference ∧ reference.property? "arity" = some (.ofNat arity) ∧
        ∃ name, result.text? "name" = some name ∧ reference.text? "name" = some name := by
  have named : ∀ (module? : Option String) (name : String) (n : Node) (u : Session),
      n.related .callee = [] → n.text? "name" = some name →
      ∀ address ∈ (n.relate .callee (node.address.child Role.callee.label)).related .callee,
        ∃ reference, (u.emit (functionReference (node.address.child Role.callee.label) module? name
          arity)).Stands address reference ∧ reference.kind = .functionReference ∧
          reference.property? "arity" = some (.ofNat arity) ∧
          ∃ name, n.text? "name" = some name ∧ reference.text? "name" = some name := by
    intro module? name n u fresh named address member
    rw [Node.related_relate_of_fresh fresh, List.mem_singleton] at member
    obtain ⟨here, kind, counted, called⟩ :=
      functionReference_named (node.address.child Role.callee.label) module? name arity
    exact ⟨_, ⟨(u.stands_emit _).1, here.trans member.symm⟩, kind, counted, name, named, called⟩
  cases target with
  | named name =>
      obtain ⟨rfl, rfl⟩ := yields_callee_named h
      exact ⟨node.property?_set_of_ne _ (by decide),
        named none name (node.set "name" name) s fresh (node.text?_set_self _ _)⟩
  | remote source name =>
      obtain ⟨middle, u, received, rfl, rfl⟩ := yields_callee_remote h
      obtain ⟨properties, callees⟩ : middle.properties = (node.set "name" name).properties ∧
          middle.related .callee = [] := by
        unfold receiver at received
        split at received
        · obtain ⟨rfl, rfl⟩ := yields_pure received
          exact ⟨rfl, fresh⟩
        · obtain ⟨-, rfl⟩ := yields_child received
          exact ⟨rfl, (Node.related_relate_of_ne _ (by decide) _).trans fresh⟩
      have same : ∀ asked, middle.property? asked = (node.set "name" name).property? asked := by
        intro asked
        unfold Node.property?
        rw [properties]
      refine ⟨(same "arity").trans (node.property?_set_of_ne _ (by decide)),
        named _ name middle u callees ?_⟩
      rw [Node.text?, same "name"]
      exact node.text?_set_self _ _
  | anonymous function =>
      obtain ⟨-, rfl⟩ := yields_child h
      refine ⟨rfl, fun address member => ?_⟩
      rw [Node.related_relate_of_ne _ (by decide), fresh] at member
      cases member

/-! ## Clauses -/

theorem optionalChild_related {part : Option Source} {other : Role} (ne : other ≠ role)
    (h : (optionalChild level node role part).Yields limits s result t) :
    result.related other = node.related other := by
  cases part with
  | none =>
      obtain ⟨rfl, rfl⟩ := yields_pure h
      rfl
  | some source =>
      obtain ⟨-, rfl⟩ := yields_child h
      exact node.related_relate_of_ne ne _

/-- Parameters in an ordered role are all listed, and a single one is listed in any role. -/
theorem parameters_related {found : Node × Bindings} (fresh : node.relation role = .empty role.isOrdered)
    (every : role.isOrdered = true ∨ items.length = 1)
    (h : (parameters level node role items).Yields limits s found t) :
    (found.1.related role).length = items.length := by
  by_cases ordered : role.isOrdered = true
  · obtain ⟨addresses, more, inner, rfl⟩ := yields_parameters_of_ordered ordered h
    rw [ordered] at fresh
    dsimp only
    rw [Node.related_numbered fresh]
    exact length_foldParts inner
  · obtain ⟨bindings, inner, rfl⟩ := yields_parameters_of_not_ordered ordered h
    obtain ⟨item, rfl⟩ := List.length_eq_one_iff.mp (every.resolve_left ordered)
    dsimp only
    rw [List.map_singleton, Node.relateAll_cons, Node.relateAll_nil, Node.related_relate_of_fresh]
    · rfl
    · rw [← Node.relation_targets, fresh]
      rfl

/-- The guard of a clause is no parameter. -/
theorem clauseHead_related {clause : Clause} {found : Node × List String}
    (fresh : node.relation role = .empty role.isOrdered)
    (every : role.isOrdered = true ∨ clause.arity = 1) (other : role ≠ .guard)
    (h : (clauseHead level node role clause).Yields limits s found t) :
    (found.1.related role).length = clause.arity := by
  obtain ⟨middle, bindings, v, final, params, guard, rfl⟩ := yields_clauseHead h
  dsimp only
  rw [optionalChild_related other guard]
  exact parameters_related fresh every params

/-- Every part that is built stands, if no later one takes it away. -/
theorem eachPart_stands {build : Address → α → Build Unit} {parts : List α} {addresses : List Address}
    {P : α → Node → Prop}
    (step : ∀ address part s t, address.size = site.size + 2 → (build address part).Yields limits s () t →
      (∀ a m, s.Stands a m → t.Stands a m) ∧ ∃ node, t.Stands address node ∧ P part node)
    (h : (eachPart site role build parts).Yields limits s addresses t) :
    ∀ address ∈ addresses, ∃ part ∈ parts, ∃ node, t.Stands address node ∧ P part node := by
  have folded := yields_eachPart h
  generalize 0 = index at folded
  clear h
  have both : (∀ a m, s.Stands a m → t.Stands a m) ∧
      ∀ address ∈ addresses, ∃ part ∈ parts, ∃ node, t.Stands address node ∧ P part node := by
    induction parts generalizing index s addresses with
    | nil =>
        obtain ⟨none, rfl⟩ := yields_foldParts_nil folded
        obtain rfl : addresses = [] := congrArg Prod.fst none
        exact ⟨fun _ _ => id, fun _ member => (nomatch member)⟩
    | cons part parts ih =>
        obtain ⟨middle, others, u, first, rest, listed⟩ := yields_foldParts_cons folded
        obtain ⟨kept, node, here, holds⟩ := step _ part s u (by simp) first
        obtain ⟨later, each⟩ := ih _ rest
        obtain rfl : addresses = _ :: others := listed
        refine ⟨fun a m before => later a m (kept a m before), List.forall_mem_cons.mpr ⟨?_, ?_⟩⟩
        · exact ⟨part, List.mem_cons_self, node, later _ _ here, holds⟩
        · intro address member
          obtain ⟨other, among, found⟩ := each address member
          exact ⟨other, List.mem_cons_of_mem _ among, found⟩
  exact both.2

/-- A function whose clauses stand states how many there are and what each of them takes. -/
theorem countsClauses {clauses : List α} (takes : α → Nat) {arity : Nat} {addresses : List Address}
    (occupied : clauses ≠ []) (same : ∀ clause ∈ clauses, takes clause = arity)
    (counted : addresses.length = clauses.length)
    (standing : ∀ address ∈ addresses, ∃ clause ∈ clauses, ∃ node, stands address node ∧
      (node.related .parameter).length = takes clause)
    (listed : node.related .clause = addresses)
    (number : node.property? "clause_count" = some (.ofNat clauses.length))
    (stated : node.property? "arity" = some (.ofNat arity)) : node.CountsClauses stands := by
  refine ⟨?_, ?_, arity, .ofNat stated, fun target member => ?_⟩
  · rw [listed, counted]
    exact List.length_pos_iff.mpr occupied
  · rw [listed, counted]
    exact .ofNat number
  · obtain ⟨clause, among, found, here, parameters⟩ := standing target (listed ▸ member)
    exact ⟨found, here, parameters.trans (same clause among)⟩

end Build

end SyntaxGraph
