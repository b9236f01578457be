import SyntaxGraph.Proofs.Lockstep
import SyntaxGraph.Proofs.Soundness

/-!
# Every build has its counterpart

The remaining builders relate in any simulation: heads of clauses, branches, chains of
generators, calls, closures and definitions. `Level.ofRoom_related` says it of every level, by
induction on the levels that are left.

A branch that is free is built by two unrelated runs. What these have in common is a matter
of the simulation, so it is asked of the levels beforehand, as `Level.Free`.
-/

namespace SyntaxGraph

/-- Free branches at two levels, each in a frame of its own, are related whatever they hold. -/
structure Level.Free (K : Simulation) (level level' : Level) : Prop where
  branch : ∀ {stack world site site'} (s s'), K.like.free site → K.within stack site →
    K.address site site' →
    K.Relates stack world (fun v _ _ => K.part v site site')
      (Build.inScope .block (level.expression site s)) (Build.inScope .block (level'.expression site' s'))
  branchClause : ∀ {stack world site site'} (c c' : Clause), c.arity = 1 → c'.arity = 1 →
    K.like.free site → K.within stack site → K.address site site' →
    K.Relates stack world (fun v _ _ => K.part v site site') (Build.branchClause level site c)
      (Build.branchClause level' site' c')
  condClause : ∀ {stack world site site'} (c c'), K.like.free site → K.within stack site →
    K.address site site' →
    K.Relates stack world (fun v _ _ => K.part v site site') (Build.condClause level site c)
      (Build.condClause level' site' c')
  closureClause : ∀ {stack world site site'} (c c'), K.like.free site → K.within stack site →
    K.address site site' →
    K.Relates stack world (fun v _ _ => K.part v site site') (Build.closureClause level site c)
      (Build.closureClause level' site' c')
  functionClause : ∀ {stack world site site'} (c c'), K.like.free site → K.within stack site →
    K.address site site' →
    K.Relates stack world (fun v _ _ => K.part v site site') (Build.functionClause level site c)
      (Build.functionClause level' site' c')

/-- Where no branch is free, nothing is asked of the levels. -/
theorem Level.Free.ofNone {K : Simulation} (none : ∀ site, ¬ K.like.free site) (level level' : Level) :
    level.Free K level' :=
  ⟨fun _ _ free => absurd free (none _), fun _ _ _ _ free => absurd free (none _),
    fun _ _ free => absurd free (none _), fun _ _ free => absurd free (none _),
    fun _ _ free => absurd free (none _)⟩

namespace Simulation

open Build

variable {K : Simulation} {stack : K.Stack} {world : K.World} {level level' : Level}
  {site site' : Address} {n n' : Node} {role : Role}

/-! ## Clauses split off before anything is built -/

section Splitting

variable {alike : Address → Clause → Clause → Prop} {clauses clauses' : List Clause}

theorem relates_splitClauses {what : Malformation} {index : Nat} {items items' : List Source}
    (at' : K.address site site')
    (each : Each (fun address s s' => K.like.free address ∨
      Option.Rel (alike address) (Clause.ofSource? s) (Clause.ofSource? s')) site role index items items') :
    K.Relates stack world
      (fun _ => Each (fun address c c' => K.like.free address ∨ alike address c c') site role index)
      (splitClauses site role.label what index items)
      (splitClauses site' role.label what index items') := by
  induction each with
  | nil => exact relates_pure .nil
  | @cons index s s' items items' first _ ih =>
      unfold splitClauses
      cases first with
      | inl free =>
          have varied := K.varied_indexed free
          cases Clause.ofSource? s with
          | none => exact .cut (K.varied_cut varied _)
          | some c =>
              cases Clause.ofSource? s' with
              | none => exact .lost (K.varied_lost varied _)
              | some c' => exact relates_bind ih fun _ _ _ _ rest => relates_pure (.cons (.inl free) rest)
      | inr same =>
          generalize Clause.ofSource? s = found at same ⊢
          generalize Clause.ofSource? s' = found' at same ⊢
          cases same with
          | none => exact relates_malformed (K.address_indexed _ _ at') what
          | some same => exact relates_bind ih fun _ _ _ _ rest => relates_pure (.cons (.inr same) rest)

theorem relates_commonArity {arities arities' : List Nat} (at' : K.address site site')
    (figure : K.Figure site arities arities') :
    K.Relates stack world (fun _ => K.Figure site) (commonArity site arities)
      (commonArity site' arities') := by
  cases figure with
  | inl same =>
      subst same
      cases arities with
      | nil => exact relates_pure (figure_refl 0)
      | cons first rest =>
          simp only [commonArity]
          split
          · exact relates_pure (figure_refl first)
          · exact .throw (K.fails_arity _ at')
  | inr varied =>
      refine relates_varied varied fun s s' a t b t' together first second => ?_
      obtain ⟨rfl, -⟩ := yields_commonArity first
      obtain ⟨rfl, -⟩ := yields_commonArity second
      exact ⟨world, K.grows_refl world, together, .inr varied⟩

/-- The clauses agree on how many parameters they take, or some of them is free. -/
theorem figure_arities (arity : ∀ address c c', alike address c c' → c.arity = c'.arity)
    (each : Each (fun address c c' => K.like.free address ∨ alike address c c') site role 0 clauses
      clauses') : K.Figure site (clauses.map Clause.arity) (clauses'.map Clause.arity) := by
  obtain ⟨index, free⟩ | same := each.free_or
  · exact .inr (K.varied_indexed free)
  · exact .inl (same.map_eq arity)

theorem relates_singleClauses {items items' : List Source}
    (arity : ∀ address c c', alike address c c' → c.arity = c'.arity) (at' : K.address site site')
    (each : K.like.Branches alike site role items items') :
    K.Relates stack world
      (fun _ cs cs' => Each (fun address c c' => K.like.free address ∨ alike address c c') site role 0
          cs cs' ∧ (∀ c ∈ cs, c.arity = 1) ∧ ∀ c ∈ cs', c.arity = 1)
      (singleClauses site role items) (singleClauses site' role items') := by
  refine Coupling.Relates.also ?_ (fun s cs t h => (yields_singleClauses h).2.1)
    fun s cs t h => (yields_singleClauses h).2.1
  refine relates_bind (relates_splitClauses at' each) fun v cs cs' grown each => ?_
  refine relates_bind (relates_commonArity at' (figure_arities arity each)) fun u a a' grown figure => ?_
  dsimp only
  have empty : cs.isEmpty = cs'.isEmpty := by
    cases each <;> rfl
  cases figure with
  | inl same =>
      subst same
      rw [← empty]
      split
      · cases figure_arities arity each with
        | inl counts =>
            rw [counts]
            exact fun _ _ _ => K.fails_arity _ at'
        | inr varied => exact fun _ _ _ => .inl (K.varied_cut varied _)
      · exact relates_pure each
  | inr varied =>
      split
      · exact .cut (K.varied_cut varied _)
      · split
        · exact .lost (K.varied_lost varied _)
        · exact relates_pure each

end Splitting

/-! ## Heads of clauses -/

section Heads

variable (related : level.Related K level')
include related

/-- Patterns at one address, one after the other. -/
theorem relates_patterns {params params' : List Source} {bindings bindings' : Bindings}
    (near : K.within stack site) (at' : K.address site site')
    (alike : List.Forall₂ (K.like.pattern site) params params')
    (bound : List.Forall₂ (K.binding world) bindings bindings') :
    K.Relates stack world
      (fun v found found' => List.Forall₂ (K.part v) (params.map fun _ => site)
        (params'.map fun _ => site') ∧ List.Forall₂ (K.binding v) found found')
      (params.foldlM (fun bindings param => level.pattern site param bindings) bindings)
      (params'.foldlM (fun bindings param => level'.pattern site' param bindings) bindings') := by
  induction alike generalizing world bindings bindings' with
  | nil => exact relates_pure ⟨.nil, bound⟩
  | cons first _ ih =>
      rw [List.foldlM_cons, List.foldlM_cons]
      refine relates_bind (related.pattern near at' first bound) fun v _ _ _ found => ?_
      refine relates_mono (ih found.2) fun u _ _ grown rest => ?_
      exact ⟨.cons (K.part_mono grown found.1) rest.1, rest.2⟩

theorem relates_parameters {params params' : List Source} (near : K.within stack site)
    (h : K.NodeAt world site site' n n') (alike : K.like.Parameters site role params params') :
    K.Relates stack world
      (fun v x y => K.NodeAt v site site' x.1 y.1 ∧ List.Forall₂ (K.binding v) x.2 y.2)
      (parameters level n role params) (parameters level' n' role params') := by
  have at' := nodeAt_address h
  obtain ⟨node, rfl, rfl⟩ := h
  unfold Likeness.Parameters at alike
  unfold parameters
  by_cases ordered : role.isOrdered = true
  · rw [if_pos ordered] at alike
    rw [if_pos ordered, if_pos ordered]
    refine relates_bind (relates_foldParts (fun v => List.Forall₂ (K.binding v)) near at'
      (fun _ _ _ _ _ _ _ _ near at' alike bound => related.pattern near at' alike bound) alike .nil)
      fun v x y grown found => ?_
    exact relates_pure ⟨nodeAt_relateAll (nodeAt_declare (nodeAt_mono grown ⟨node, rfl, rfl⟩) _) _
      found.1, found.2⟩
  · rw [if_neg ordered] at alike
    rw [if_neg ordered, if_neg ordered]
    refine relates_bind (relates_patterns related (K.within_child _ near) (K.address_child _ at')
      alike .nil) fun v _ _ grown found => ?_
    exact relates_pure ⟨nodeAt_relateAll (nodeAt_mono grown ⟨node, rfl, rfl⟩) _ found.1, found.2⟩

theorem relates_clauseHead {c c' : Clause} (near : K.within stack site)
    (h : K.NodeAt world site site' n n') (alike : K.like.Clause role site c c') :
    K.Relates stack world (fun v x y => K.NodeAt v site site' x.1 y.1 ∧ x.2 = y.2)
      (clauseHead level n role c) (clauseHead level' n' role c') := by
  refine relates_bind (relates_parameters related near h alike.params) fun v x y _ found => ?_
  refine relates_bind (relates_bindAll near found.2 .none) fun u _ _ grown _ => ?_
  refine relates_bind (relates_optionalChild related near (nodeAt_mono grown found.1) alike.guard)
    fun w n n' _ h => ?_
  exact relates_pure ⟨h, names_eq found.2⟩

/-- The rest of a clause: its body, then its node. -/
theorem relates_clauseBody {c c' : Clause} (near : K.within stack site)
    (h : K.NodeAt world site site' n n') (alike : K.like.Clause role site c c') :
    K.Relates stack world (fun v _ _ => K.part v site site')
      (do
        let node ← optionalChild level n .body c.body
        emit node)
      (do
        let node ← optionalChild level' n' .body c'.body
        emit node) :=
  relates_bind (relates_optionalChild related near h alike.body) fun _ _ _ _ h => relates_emit near h

end Heads

theorem arity_eq {c c' : Clause} (alike : K.like.Clause role site c c') : c.arity = c'.arity := by
  have params := alike.params
  unfold Likeness.Parameters at params
  split at params
  · exact params.length_eq
  · exact params.length_eq

/-! ## Branches -/

theorem controlNode_at (at' : K.address site site') {s s' : Source}
    (positions : K.like.position s.position s'.position) {kind : NodeKind} (other : kind ≠ .variable) :
    K.NodeAt world site site' (controlNode site kind s) (controlNode site' kind s') :=
  nodeAt_withPosition (nodeAt_withTags (nodeAt_make at' other) _) (.inl positions)

/-- A frame is left before a pure step as well as after it. -/
theorem inScope_bind_pure {α β : Type} (kind : ScopeKind) (m : Build α) (f : α → β) :
    inScope kind (m >>= fun a => pure (f a)) = inScope kind m >>= fun a => pure (f a) := by
  simp only [inScope, bind_assoc, pure_bind]

section Branches

variable (related : level.Related K level') (free : level.Free K level')
include related free

theorem relates_branchClause {c c' : Clause} (near : K.within stack site)
    (at' : K.address site site') (first : c.arity = 1) (second : c'.arity = 1)
    (alike : K.like.free site ∨ K.like.Clause .pattern site c c') :
    K.Relates stack world (fun v _ _ => K.part v site site') (branchClause level site c)
      (branchClause level' site' c') := by
  cases alike with
  | inl open' => exact free.branchClause c c' first second open' near at'
  | inr alike =>
      refine relates_inScope .clause fun inside start wider _ => ?_
      have node : K.NodeAt start site site' _ _ := nodeAt_withPosition (nodeAt_withTags
        (nodeAt_make at' (show NodeKind.caseClause ≠ .variable by decide)) [.controlFlow])
        (.inl alike.position)
      refine relates_bind (relates_clauseHead related (wider _ near) node alike) fun v x y _ head => ?_
      exact relates_clauseBody related (wider _ near) head.1 alike

theorem relates_branchClauses {items items' : List Source} (near : K.within stack site)
    (h : K.NodeAt world site site' n n')
    (alike : K.like.Branches (K.like.Clause .pattern) site role items items') :
    K.Relates stack world (fun v => K.NodeAt v site site') (branchClauses level n role items)
      (branchClauses level' n' role items') := by
  have at' := nodeAt_address h
  obtain ⟨node, rfl, rfl⟩ := h
  refine relates_bind (relates_singleClauses (fun _ _ _ => arity_eq) at' alike)
    fun v cs cs' grown split => ?_
  obtain ⟨each, singles, singles'⟩ := split
  rw [← each.length_eq]
  refine relates_bind (K.relates_fanout _ _ at') fun u _ _ further _ => ?_
  refine relates_bind (relates_eachPart near at' (fun _ _ _ c c' _ near at' alike =>
    relates_branchClause related free near at' alike.2.1 alike.2.2 alike.1)
    (each.attach singles singles')) fun w _ _ more parts => ?_
  exact relates_pure (nodeAt_relateAll (nodeAt_declare (nodeAt_mono
    (K.grows_trans grown (K.grows_trans further more)) ⟨node, rfl, rfl⟩) _) _ parts)

theorem relates_branch {s s' : Option Source} (near : K.within stack site)
    (h : K.NodeAt world site site' n n') (alike : K.like.Branch site role s s') :
    K.Relates stack world (fun v => K.NodeAt v site site') (branch level n role s)
      (branch level' n' role s') := by
  cases alike with
  | none => exact relates_pure h
  | some alike =>
      cases alike with
      | inl open' =>
          have at' := nodeAt_address h
          obtain ⟨node, rfl, rfl⟩ := h
          -- The frame ends before the part is related, so only the part itself is built freely.
          simp only [branch, Level.child]
          rw [inScope_bind_pure, inScope_bind_pure]
          refine relates_bind (free.branch _ _ open' (K.within_child _ near) (K.address_child _ at'))
            fun v _ _ grown part => ?_
          exact relates_pure (nodeAt_relate (nodeAt_mono grown ⟨node, rfl, rfl⟩) role part)
      | inr alike => exact relates_inScope .block fun _ _ wider grown =>
          relates_child related (wider _ near) (nodeAt_mono grown h) alike

theorem relates_conditional {s s' condition condition' branches branches' : Source} {negated : Bool}
    (near : K.within stack site) (at' : K.address site site')
    (positions : K.like.position s.position s'.position)
    (conditions : K.like.expression (site.child Role.condition.label) condition condition')
    (first : K.like.Branch site .thenBranch (branches.keyword? "do") (branches'.keyword? "do"))
    (second : K.like.Branch site .elseBranch (branches.keyword? "else") (branches'.keyword? "else")) :
    K.Relates stack world (fun v _ _ => K.part v site site')
      (conditional level site s negated condition branches)
      (conditional level' site' s' negated condition' branches') := by
  have other : (if negated then NodeKind.unlessExpression else .ifExpression) ≠ .variable := by
    cases negated <;> decide
  refine relates_bind (relates_child related near (controlNode_at at' positions other) conditions)
    fun v _ _ _ h => ?_
  refine relates_bind (relates_branch related free near h first) fun u _ _ _ h => ?_
  refine relates_bind (relates_branch related free near h second) fun w _ _ _ h => ?_
  exact relates_emit near h

theorem relates_caseExpression {s s' subject subject' branches branches' : Source}
    (near : K.within stack site) (at' : K.address site site')
    (positions : K.like.position s.position s'.position)
    (subjects : K.like.expression (site.child Role.subject.label) subject subject')
    (alike : K.like.Branches (K.like.Clause .pattern) site .clause
      (clauseItems (branches.keyword? "do")) (clauseItems (branches'.keyword? "do"))) :
    K.Relates stack world (fun v _ _ => K.part v site site')
      (caseExpression level site s subject branches)
      (caseExpression level' site' s' subject' branches') := by
  refine relates_bind (relates_child related near (controlNode_at at' positions (by decide)) subjects)
    fun v _ _ _ h => ?_
  refine relates_bind (relates_branchClauses related free near h alike) fun u _ _ _ h => ?_
  exact relates_emit near h

theorem relates_condClause {c c' : Clause} (near : K.within stack site)
    (at' : K.address site site') (alike : K.like.free site ∨ K.like.CondClause site c c') :
    K.Relates stack world (fun v _ _ => K.part v site site') (condClause level site c)
      (condClause level' site' c') := by
  cases alike with
  | inl open' => exact free.condClause c c' open' near at'
  | inr alike =>
      refine relates_inScope .block fun inside start wider _ => ?_
      have node : K.NodeAt start site site' _ _ := nodeAt_withPosition (nodeAt_withTags
        (nodeAt_make at' (show NodeKind.condClause ≠ .variable by decide)) [.controlFlow])
        (.inl alike.position)
      refine relates_bind (relates_optionalChild related (wider _ near) node alike.condition)
        fun v _ _ _ h => ?_
      refine relates_bind (relates_optionalChild related (wider _ near) h alike.body)
        fun u _ _ _ h => ?_
      exact relates_emit (wider _ near) h

theorem relates_condExpression {s s' branches branches' : Source}
    (near : K.within stack site) (at' : K.address site site')
    (positions : K.like.position s.position s'.position)
    (alike : K.like.Branches K.like.CondClause site .clause
      (clauseItems (branches.keyword? "do")) (clauseItems (branches'.keyword? "do"))) :
    K.Relates stack world (fun v _ _ => K.part v site site')
      (condExpression level site s branches) (condExpression level' site' s' branches') := by
  refine relates_bind (relates_singleClauses (fun _ _ _ same => same.arity) at' alike)
    fun v cs cs' _ split => ?_
  rw [← split.1.length_eq]
  refine relates_bind (K.relates_fanout _ _ at') fun u _ _ _ _ => ?_
  refine relates_bind (relates_eachPart near at' (fun _ _ _ c c' _ near at' alike =>
    relates_condClause related free near at' alike) split.1) fun w _ _ _ parts => ?_
  exact relates_emit near (nodeAt_relateAll (nodeAt_declare
    (controlNode_at at' positions (by decide)) _) _ parts)

end Branches

/-! ## Chains of generators -/

section Chains

variable (related : level.Related K level') {inner inner' : Level} (deeper : inner.Related K inner')

include related in
theorem relates_generator {s s' : Source} (near : K.within stack site) (at' : K.address site site')
    (alike : K.like.Generator role site s s') :
    K.Relates stack world (fun v _ _ => K.part v site site') (generator level role site s)
      (generator level' role site' s') := by
  obtain ⟨position, parts⟩ := alike
  unfold generator
  generalize Generator.ofSource? s = found at parts ⊢
  generalize Generator.ofSource? s' = found' at parts ⊢
  cases parts with
  | none => exact relates_malformed at' _
  | @some g g' alike =>
      obtain ⟨isBinary, value, pattern, guard⟩ := alike
      dsimp only
      rw [← isBinary]
      have node : ∀ v, K.NodeAt v site site' _ _ := fun v => nodeAt_withPosition (nodeAt_set
        (nodeAt_withTags (nodeAt_make at' (show NodeKind.generator ≠ .variable by decide))
        [.controlFlow, .binding]) "binary" (figure_refl (.boolean g.isBinary)) (by decide)) (.inl position)
      refine relates_bind (relates_trackReads near fun inside start near' _ =>
        relates_child related near' (node start) value) fun v x y _ tracked => ?_
      refine relates_bind (relates_patternChild related near tracked.1 pattern .nil)
        fun u x' y' _ found => ?_
      refine relates_bind (relates_bindAll near found.2 (.some tracked.2)) fun w _ _ grown _ => ?_
      refine relates_bind (relates_optionalChild related near (nodeAt_mono grown found.1) guard)
        fun z _ _ _ h => ?_
      exact relates_emit near h

/-- A chain numbers its clauses through in both runs. -/
theorem relates_chainClauses {isGenerator : Source → Bool} {otherwise : Role}
    {buildGenerator buildGenerator' buildOther buildOther' : Address → Source → Build Unit}
    (generators : ∀ {world site site' s s'}, K.within stack site → K.address site site' →
      K.like.Generator role site s s' →
      K.Relates stack world (fun v _ _ => K.part v site site') (buildGenerator site s)
        (buildGenerator' site' s'))
    (others : ∀ {world site site' s s'}, K.within stack site → K.address site site' →
      K.like.expression site s s' →
      K.Relates stack world (fun v _ _ => K.part v site site') (buildOther site s)
        (buildOther' site' s'))
    {index : Nat} {clauses clauses' : List Source} (near : K.within stack site)
    (h : K.NodeAt world site site' n n')
    (chain : K.like.Chain isGenerator role otherwise site index clauses clauses') :
    K.Relates stack world (fun v => K.NodeAt v site site')
      (chainClauses isGenerator buildGenerator otherwise buildOther index clauses n)
      (chainClauses isGenerator buildGenerator' otherwise buildOther' index clauses' n') := by
  have at' := nodeAt_address h
  induction chain generalizing world n n' with
  | nil => exact relates_pure h
  | generator first second alike _ ih =>
      obtain ⟨node, rfl, rfl⟩ := h
      simp only [chainClauses, first, second, if_true]
      refine relates_bind (generators (K.within_indexed _ _ near) (K.address_indexed _ _ at') alike)
        fun v _ _ grown part => ?_
      exact ih (nodeAt_relate (nodeAt_mono grown ⟨node, rfl, rfl⟩) _ part)
  | other first second alike _ ih =>
      obtain ⟨node, rfl, rfl⟩ := h
      simp only [chainClauses, first, second]
      refine relates_bind (others (K.within_indexed _ _ near) (K.address_indexed _ _ at') alike)
        fun v _ _ grown part => ?_
      exact ih (nodeAt_relate (nodeAt_mono grown ⟨node, rfl, rfl⟩) _ part)

include related deeper

theorem relates_withExpression (free : level.Free K level') {s s' options options' : Source}
    {clauses clauses' : List Source} (near : K.within stack site) (at' : K.address site site')
    (positions : K.like.position s.position s'.position)
    (chain : K.like.Chain Generator.isArrow .value .statement site 0 clauses clauses')
    (body : Likeness.Optional K.like.expression site .body (options.keyword? "do")
      (options'.keyword? "do"))
    (fallback : Option.Rel (fun items items' => K.like.Branches (K.like.Clause .pattern) site
      .elseBranch (clauseItems (some items)) (clauseItems (some items')))
      (options.keyword? "else") (options'.keyword? "else")) :
    K.Relates stack world (fun v _ _ => K.part v site site')
      (withExpression level inner site s clauses options)
      (withExpression level' inner' site' s' clauses' options') := by
  unfold withExpression
  rw [← chain.length_eq]
  refine relates_bind (K.relates_fanout _ _ at') fun v _ _ _ _ => ?_
  have node : K.NodeAt v site site' _ _ := nodeAt_declare (controlNode_at at' positions
    (show NodeKind.withExpression ≠ .variable by decide)) .generator
  refine relates_bind (relates_inScope .block fun inside start wider grown => ?_)
    fun u n n' _ (h : K.NodeAt u site site' n n') => ?_
  · refine relates_bind (relates_chainClauses
      (fun near at' alike => relates_generator deeper near at' alike)
      (fun near at' alike => related.expression near at' alike) (wider _ near)
      (nodeAt_mono grown node) chain) fun w _ _ _ h => ?_
    exact relates_optionalChild related (wider _ near) h body
  · generalize options.keyword? "else" = found at fallback ⊢
    generalize options'.keyword? "else" = found' at fallback ⊢
    cases fallback with
    | none => exact relates_emit near h
    | some alike =>
        refine relates_bind (relates_branchClauses related free near h alike) fun w _ _ _ h => ?_
        exact relates_emit near h

omit related deeper in
theorem nodeAt_uniq (h : K.NodeAt world site site' n n') (uniq : Option String) :
    K.NodeAt world site site'
      (match uniq with
        | some name => n.set "uniq" (name == "true")
        | none => n)
      (match uniq with
        | some name => n'.set "uniq" (name == "true")
        | none => n') := by
  cases uniq with
  | none => exact h
  | some name => exact nodeAt_set h _ (figure_refl _) (by decide)

theorem relates_comprehension (free : level.Free K level') {s s' options options' : Source}
    {qualifiers qualifiers' : List Source} (near : K.within stack site) (at' : K.address site site')
    (positions : K.like.position s.position s'.position)
    (chain : K.like.Chain Generator.isQualifier .enumerable .filter site 0 qualifiers qualifiers')
    (collected : K.like.Collected site options options') :
    K.Relates stack world (fun v _ _ => K.part v site site')
      (comprehension level inner site s qualifiers options)
      (comprehension level' inner' site' s' qualifiers' options') := by
  obtain ⟨into, reduce, uniq, clauses, body⟩ := collected
  unfold comprehension
  rw [← chain.length_eq]
  refine relates_bind (K.relates_fanout _ _ at') fun v _ _ _ _ => ?_
  refine relates_bind (relates_optionalChild related near
    (controlNode_at at' positions (by decide)) into) fun v _ _ _ h => ?_
  refine relates_bind (relates_optionalChild related near h reduce) fun v n n' _ h => ?_
  rw [← uniq]
  refine relates_bind (relates_inScope .comprehension fun inside start wider grown => ?_)
    fun u n n' _ (h : K.NodeAt u site site' n n') => relates_emit near h
  refine relates_bind (relates_chainClauses
    (fun near at' alike => relates_generator deeper near at' alike)
    (fun near at' alike => related.expression near at' alike) (wider _ near)
    (nodeAt_declare (nodeAt_mono grown (nodeAt_uniq h _)) .generator) chain) fun w _ _ _ h => ?_
  generalize options.keyword? "reduce" = found at reduce clauses body ⊢
  generalize options'.keyword? "reduce" = found' at reduce ⊢
  cases reduce with
  | none => exact relates_optionalChild related (wider _ near) h (body rfl)
  | some _ => exact relates_branchClauses related free (wider _ near) h (clauses rfl)

end Chains

/-! ## Calls -/

theorem functionReference_at (at' : K.address site site') (module? : Option String) (name : String)
    (arity : Nat) :
    K.NodeAt world site site' (functionReference site module? name arity)
      (functionReference site' module? name arity) := by
  have node : K.NodeAt world site site' _ _ := nodeAt_set (nodeAt_set (nodeAt_make at'
    (show NodeKind.functionReference ≠ .variable by decide)) "name" (figure_refl (.text name)) (by decide))
    "arity" (figure_refl (.ofNat arity)) (by decide)
  cases module? with
  | none => exact nodeAt_set node _ (figure_refl _) (by decide)
  | some module =>
      exact nodeAt_set (nodeAt_set node _ (figure_refl _) (by decide)) _ (figure_refl _) (by decide)

section Calls

variable (related : level.Related K level')
include related

theorem relates_receiver {s s' : Source} (near : K.within stack site)
    (h : K.NodeAt world site site' n n') (alike : K.like.Receiver site s s') :
    K.Relates stack world (fun v => K.NodeAt v site site') (receiver level n s)
      (receiver level' n' s') := by
  obtain ⟨named, value⟩ := alike
  unfold receiver
  rw [← named]
  cases found : receiverModule? s with
  | some module => exact relates_pure h
  | none => exact relates_child related near h (value found)

/-- What two calls name alike. -/
inductive CalleeAlike (like : Likeness) (site : Address) : Callee → Callee → Prop where
  | named (name) : CalleeAlike like site (.named name) (.named name)
  | remote {receiver receiver'} (name) (alike : like.Receiver site receiver receiver') :
      CalleeAlike like site (.remote receiver name) (.remote receiver' name)
  | anonymous {function function'}
      (alike : like.expression (site.child Role.receiver.label) function function') :
      CalleeAlike like site (.anonymous function) (.anonymous function')

theorem relates_callee {target target' : Callee} (arity : Nat) (near : K.within stack site)
    (h : K.NodeAt world site site' n n') (alike : CalleeAlike K.like site target target') :
    K.Relates stack world (fun v => K.NodeAt v site site') (callee level n target arity)
      (callee level' n' target' arity) := by
  have at' := nodeAt_address h
  have below := K.address_child Role.callee.label at'
  have near' := K.within_child Role.callee.label near
  obtain ⟨node, rfl, rfl⟩ := h
  cases alike with
  | named name =>
      refine relates_bind (relates_emit near' (functionReference_at below _ _ _))
        fun v _ _ grown part => ?_
      exact relates_pure (nodeAt_relate (nodeAt_set (nodeAt_mono grown ⟨node, rfl, rfl⟩) _
        (figure_refl _) (by decide)) _ part)
  | @remote source source' name alike =>
      refine relates_bind (relates_receiver related near
        (nodeAt_set ⟨node, rfl, rfl⟩ _ (figure_refl _) (by decide)) alike) fun v _ _ grown h => ?_
      rw [← alike.named]
      refine relates_bind (relates_emit near' (functionReference_at below _ _ _))
        fun u _ _ further part => ?_
      exact relates_pure (nodeAt_relate (nodeAt_mono further h) _ part)
  | anonymous alike => exact relates_child related near ⟨node, rfl, rfl⟩ alike

theorem relates_call {s s' : Source} {kind : NodeKind} (other : kind ≠ .variable)
    {target target' : Callee} {args args' : List Source} (near : K.within stack site)
    (at' : K.address site site') (positions : K.like.position s.position s'.position)
    (alike : CalleeAlike K.like site target target')
    (each : Each K.like.expression site .argument 0 args args') :
    K.Relates stack world (fun v _ _ => K.part v site site') (call level site s kind target args)
      (call level' site' s' kind target' args') := by
  unfold call
  rw [← each.length_eq]
  have node : K.NodeAt world site site' _ _ := nodeAt_withPosition (nodeAt_set (nodeAt_withTags
    (nodeAt_make at' other) [.expression, .call]) "arity" (figure_refl (.ofNat args.length)) (by decide))
    (.inl positions)
  refine relates_bind (relates_callee related _ near node alike) fun v _ _ _ h => ?_
  refine relates_bind (relates_eachPart near at' (fun _ _ _ _ _ _ near at' alike =>
    related.expression near at' alike) each) fun u _ _ grown parts => ?_
  exact relates_emit near (nodeAt_relateAll (nodeAt_declare (nodeAt_mono grown h) _) _ parts)

end Calls

/-! ## Closures -/

/-- How a function is qualified does not depend on where it is mentioned. -/
theorem functionReference_qualified (site site' : Address) (module? : Option String) (name : String)
    (arity : Nat) :
    (functionReference site module? name arity).text? "qualified_name" =
      (functionReference site' module? name arity).text? "qualified_name" := by
  cases module? <;> rfl

section Closures

variable (related : level.Related K level')
include related

theorem relates_closureClause (free : level.Free K level') {c c' : Clause}
    (near : K.within stack site) (at' : K.address site site')
    (alike : K.like.free site ∨ K.like.Clause .parameter site c c') :
    K.Relates stack world (fun v _ _ => K.part v site site') (closureClause level site c)
      (closureClause level' site' c') := by
  cases alike with
  | inl open' => exact free.closureClause c c' open' near at'
  | inr alike =>
      refine relates_inScope .clause fun inside start wider _ => ?_
      have node : K.NodeAt start site site' _ _ := nodeAt_withPosition (nodeAt_withTags
        (nodeAt_make at' (show NodeKind.anonymousFunctionClause ≠ .variable by decide)) [.closure])
        (.inl alike.position)
      refine relates_bind (relates_clauseHead related (wider _ near) node alike) fun v x y _ head => ?_
      obtain ⟨node, names⟩ := x
      obtain ⟨node', names'⟩ := y
      obtain ⟨h, same⟩ := head
      obtain rfl : names = names' := same
      refine relates_bind (relates_boundByClosure names) fun u _ _ grown _ => ?_
      exact relates_clauseBody related (wider _ near) (nodeAt_mono grown h) alike

theorem relates_anonymousFunction (free : level.Free K level') {s s' : Source}
    {items items' : List Source} (near : K.within stack site) (at' : K.address site site')
    (positions : K.like.position s.position s'.position)
    (alike : K.like.Branches (K.like.Clause .parameter) site .clause items items') :
    K.Relates stack world (fun v _ _ => K.part v site site') (anonymousFunction level site s items)
      (anonymousFunction level' site' s' items') := by
  refine relates_bind (relates_splitClauses at' alike) fun v cs cs' _ each => ?_
  have arities := figure_arities (fun _ _ _ => arity_eq) each
  have count := each.length_eq
  cases each with
  | nil => exact relates_refused at' _
  | @cons _ c c' cs cs' first rest =>
      dsimp only [List.isEmpty_cons]
      rw [← count]
      refine relates_bind (K.relates_fanout _ _ at') fun u _ _ _ _ => ?_
      refine relates_bind (relates_commonArity at' arities) fun w arity arity' _ figure => ?_
      have node : ∀ v, K.NodeAt v site site' _ _ := fun v => nodeAt_withPosition (nodeAt_set
        (nodeAt_set (nodeAt_withTags (nodeAt_make at'
        (show NodeKind.anonymousFunction ≠ .variable by decide)) [.expression, .closure]) "arity"
        (figure_map Property.ofNat figure) (by decide)) "clause_count"
        (figure_refl (.ofNat (c :: cs).length)) (by decide)) (.inl positions)
      refine K.relates_closure near at' (fun inside start near' => relates_eachPart near' at'
        (fun _ _ _ _ _ _ near at' alike => relates_closureClause related free near at' alike)
        (.cons first rest)) ?_ ?_ ?_
      · exact fun v w _ _ grown parts => parts.imp fun _ _ => K.part_mono grown
      · exact fun v _ _ parts => nodeAt_relateAll (nodeAt_declare (node v) _) _ parts
      · exact fun _ _ _ _ _ _ h => h

omit related in
/-- A captured function is referred to below its node, which takes over the qualified name. -/
theorem relates_capturedReference {module? other? : Option String} {name : String} {arity : Nat}
    (near : K.within stack site) (at' : K.address site site') (same : module? = other?)
    (h : K.NodeAt world site site' n n') :
    K.Relates stack world (fun v _ _ => K.part v site site')
      (do
        let reference := functionReference (site.child Role.callee.label) module? name arity
        emit reference
        emit ((match reference.text? "qualified_name" with
          | some name => n.set "qualified_name" name
          | none => n).relate .callee (site.child Role.callee.label)))
      (do
        let reference := functionReference (site'.child Role.callee.label) other? name arity
        emit reference
        emit ((match reference.text? "qualified_name" with
          | some name => n'.set "qualified_name" name
          | none => n').relate .callee (site'.child Role.callee.label))) := by
  subst same
  dsimp only
  rw [functionReference_qualified (site'.child Role.callee.label) (site.child Role.callee.label)]
  refine relates_bind (relates_emit (K.within_child _ near)
    (functionReference_at (K.address_child _ at') _ _ _)) fun u _ _ grown part => ?_
  exact relates_emit near (nodeAt_relate (nodeAt_mono grown (nodeAt_optionalText h _ _ (by decide))) _ part)

theorem relates_functionCapture {s s' : Source} {f f' : CapturedFunction} (near : K.within stack site)
    (at' : K.address site site') (positions : K.like.position s.position s'.position)
    (alike : K.like.Captured site f f') :
    K.Relates stack world (fun v _ _ => K.part v site site') (functionCapture level site s f)
      (functionCapture level' site' s' f') := by
  obtain ⟨receiver, name, arity⟩ := f
  obtain ⟨receiver', name', arity'⟩ := f'
  obtain ⟨named, counted, received⟩ := alike
  obtain rfl : name = name' := named
  obtain rfl : arity = arity' := counted
  have node : K.NodeAt world site site' _ _ := nodeAt_set (nodeAt_withPosition (nodeAt_set
    (nodeAt_withTags (nodeAt_make at' (show NodeKind.functionCapture ≠ .variable by decide))
    [.expression, .closure]) "arity" (figure_refl (.ofNat arity)) (by decide)) (.inl positions)) "name"
    (figure_refl (.text name)) (by decide)
  cases received with
  | none => exact relates_capturedReference near at' (rfl : none = none) node
  | @some source source' alike =>
      refine relates_bind (relates_receiver related near node alike) fun v n n' _ h => ?_
      exact relates_capturedReference near at' alike.named h

theorem relates_shorthandClosure {s s' body body' : Source} (near : K.within stack site)
    (at' : K.address site site') (positions : K.like.position s.position s'.position)
    (alike : K.like.expression (site.child Role.body.label) body body') :
    K.Relates stack world (fun v _ _ => K.part v site site') (shorthandClosure level site s body)
      (shorthandClosure level' site' s' body') := by
  have node : ∀ v, K.NodeAt v site site' _ _ := fun v => nodeAt_withPosition (nodeAt_withTags
    (nodeAt_make at' (show NodeKind.shorthandClosure ≠ .variable by decide)) [.expression, .closure])
    (.inl positions)
  refine K.relates_closure (m := trackPlaceholders (level.expression (site.child Role.body.label) body))
    near at' (fun inside start near' =>
    relates_trackPlaceholders near' fun within later near'' _ =>
      related.expression (K.within_child _ near'') (K.address_child _ at') alike) ?_ ?_ ?_
  · exact fun v w _ _ grown h => ⟨K.part_mono grown h.1, h.2⟩
  · exact fun v _ _ _ => node v
  · exact fun v _ _ _ _ h n => nodeAt_relate
      (nodeAt_set n _ (figure_map Property.integer h.2) (by decide)) _ h.1

theorem relates_capture {s s' body body' : Source} (near : K.within stack site)
    (at' : K.address site site') (positions : K.like.position s.position s'.position)
    (named : Option.Rel (K.like.Captured site) (capturedFunction? body) (capturedFunction? body'))
    (shorthand : capturedFunction? body = none →
      K.like.expression (site.child Role.body.label) body body') :
    K.Relates stack world (fun v _ _ => K.part v site site') (capture level site s body)
      (capture level' site' s' body') := by
  unfold capture
  generalize capturedFunction? body = found at named shorthand ⊢
  generalize capturedFunction? body' = found' at named ⊢
  cases named with
  | none => exact relates_shorthandClosure related near at' positions (shorthand rfl)
  | some alike => exact relates_functionCapture related near at' positions alike

end Closures

/-! ## Definitions -/

section Definitions

variable {ds ds' : List DefinitionClause}

theorem relates_definitionClauses {index : Nat} {items items' : List Source}
    (at' : K.address site site')
    (each : Each (fun address s s' => K.like.free address ∨ K.like.Form address s s') site .clause index
      items items') :
    K.Relates stack world
      (fun _ => Each (fun address d d' => K.like.free address ∨ K.like.DefinitionClause address d d')
        site .clause index)
      (definitionClauses site index items) (definitionClauses site' index items') := by
  induction each with
  | nil => exact relates_pure .nil
  | @cons index s s' items items' first _ ih =>
      unfold definitionClauses
      cases first with
      | inl free =>
          have varied := K.varied_indexed free
          cases DefinitionClause.ofSource s with
          | error what => exact .cut (K.varied_cut varied _)
          | ok d =>
              cases DefinitionClause.ofSource s' with
              | error what => exact .lost (K.varied_lost varied _)
              | ok d' => exact relates_bind ih fun _ _ _ _ rest => relates_pure (.cons (.inl free) rest)
      | inr form =>
          cases form with
          | refused first second =>
              rw [first, second]
              exact relates_malformed (K.address_indexed _ _ at') _
          | read first second alike =>
              rw [first, second]
              exact relates_bind ih fun _ _ _ _ rest => relates_pure (.cons (.inr alike) rest)

/-- The first form that belongs to another function than a given one has the same name in both
lists. -/
theorem find?_name_eq {d d' : DefinitionClause} (name : d.name = d'.name)
    (isPrivate : d.isPrivate = d'.isPrivate) {index : Nat}
    (each : Each K.like.DefinitionClause site role index ds ds') :
    (ds.find? fun c => c.name != d.name || c.isPrivate != d.isPrivate).map (·.name) =
      (ds'.find? fun c => c.name != d'.name || c.isPrivate != d'.isPrivate).map (·.name) := by
  induction each with
  | nil => rfl
  | @cons _ c c' _ _ first _ ih =>
      rw [List.find?_cons, List.find?_cons, ← first.name, ← first.isPrivate, ← name, ← isPrivate]
      cases c.name != d.name || c.isPrivate != d.isPrivate with
      | true => exact congrArg some first.name
      | false => rw [ih, name, isPrivate]

variable (related : level.Related K level') (free : level.Free K level')
include related free

theorem relates_functionClause {c c' : Clause} (near : K.within stack site)
    (at' : K.address site site') (alike : K.like.free site ∨ K.like.Clause .parameter site c c') :
    K.Relates stack world (fun v _ _ => K.part v site site') (functionClause level site c)
      (functionClause level' site' c') := by
  cases alike with
  | inl open' => exact free.functionClause c c' open' near at'
  | inr alike =>
      refine relates_inScope .clause fun inside start wider _ => ?_
      have node : K.NodeAt start site site' _ _ := nodeAt_withPosition
        (nodeAt_make at' (show NodeKind.functionClause ≠ .variable by decide)) (.inl alike.position)
      refine relates_bind (relates_clauseHead related (wider _ near) node alike) fun v x y _ head => ?_
      exact relates_clauseBody related (wider _ near) head.1 alike

/-- A function whose forms are read and found to belong together. -/
theorem relates_definitionOf {d d' : DefinitionClause}
    (each : Each (fun address d d' => K.like.free address ∨ K.like.DefinitionClause address d d')
      site .clause 0 (d :: ds) (d' :: ds')) (near : K.within stack site) (at' : K.address site site') :
    K.Relates stack world (fun v _ _ => K.part v site site')
      (do
        checkFanout site "clause" (d :: ds).length
        let arity ← commonArity site ((d :: ds).map (·.clause.arity))
        let node := (Node.make site .functionDefinition)
          |>.withTags [.expression]
          |>.set "name" d.name
          |>.set "arity" arity
          |>.set "visibility" d.visibility
          |>.set "clause_count" (d :: ds).length
          |>.withPosition d.clause.position
        let addresses ← inScope .function
          (eachPart site .clause (fun site c => functionClause level site c.clause) (d :: ds))
        emit ((node.declare .clause).relateAll .clause addresses))
      (do
        checkFanout site' "clause" (d' :: ds').length
        let arity ← commonArity site' ((d' :: ds').map (·.clause.arity))
        let node := (Node.make site' .functionDefinition)
          |>.withTags [.expression]
          |>.set "name" d'.name
          |>.set "arity" arity
          |>.set "visibility" d'.visibility
          |>.set "clause_count" (d' :: ds').length
          |>.withPosition d'.clause.position
        let addresses ← inScope .function
          (eachPart site' .clause (fun site c => functionClause level' site c.clause) (d' :: ds'))
        emit ((node.declare .clause).relateAll .clause addresses)) := by
  -- What the node says about its forms may differ if one of them is free, the first one or another.
  have arities : K.Figure site ((d :: ds).map (·.clause.arity)) ((d' :: ds').map (·.clause.arity)) := by
    obtain ⟨index, open'⟩ | same := each.free_or
    · exact .inr (K.varied_indexed open')
    · exact .inl (same.map_eq fun _ _ _ alike => arity_eq alike.clause)
  obtain ⟨name, visibility, position⟩ : K.Figure site d.name d'.name ∧
      K.Figure site d.visibility d'.visibility ∧
      (K.like.position d.clause.position d'.clause.position ∨ K.varied site) := by
    cases each with
    | cons first _ =>
        cases first with
        | inl open' =>
            have varied := K.varied_indexed open'
            exact ⟨.inr varied, .inr varied, .inr varied⟩
        | inr alike =>
            refine ⟨.inl alike.name, .inl ?_, .inl alike.clause.position⟩
            unfold DefinitionClause.visibility
            rw [alike.isPrivate]
  rw [← each.length_eq]
  refine relates_bind (K.relates_fanout _ _ at') fun v _ _ _ _ => ?_
  refine relates_bind (relates_commonArity at' arities) fun u _ _ _ figure => ?_
  have node : ∀ v, K.NodeAt v site site' _ _ := fun v => nodeAt_withPosition (nodeAt_set (nodeAt_set
    (nodeAt_set (nodeAt_set (nodeAt_withTags (nodeAt_make at'
    (show NodeKind.functionDefinition ≠ .variable by decide)) [.expression]) "name"
    (figure_map Property.text name) (by decide)) "arity" (figure_map Property.ofNat figure) (by decide))
    "visibility" (figure_map Property.text visibility) (by decide)) "clause_count"
    (figure_refl (.ofNat (d :: ds).length)) (by decide))
    position
  refine relates_bind (relates_inScope .function fun inside start wider _ =>
    relates_eachPart (wider _ near) at' (fun _ _ _ _ _ _ near at' alike =>
      relates_functionClause related free near at' (alike.imp id (·.clause))) each)
    fun w _ _ _ parts => ?_
  exact relates_emit near (nodeAt_relateAll (nodeAt_declare (node w) _) _ parts)

theorem relates_definition {items items' : List Source} (near : K.within stack site)
    (at' : K.address site site') (alike : K.like.Forms site items items') :
    K.Relates stack world (fun v _ _ => K.part v site site') (definition level site items)
      (definition level' site' items') := by
  refine relates_bind (relates_definitionClauses at' alike) fun v ds ds' _ each => ?_
  have whole := each
  cases each with
  | nil => exact relates_malformed at' _
  | @cons _ d d' ds ds' first rest =>
      dsimp only
      obtain ⟨index, open'⟩ | same := whole.free_or
      · have varied := K.varied_indexed open'
        split
        · exact .cut (K.varied_cut varied _)
        · split
          · exact .lost (K.varied_lost varied _)
          · exact relates_definitionOf related free whole near at'
      · obtain ⟨name, isPrivate⟩ : d.name = d'.name ∧ d.isPrivate = d'.isPrivate := by
          cases same with
          | cons first _ => exact ⟨first.name, first.isPrivate⟩
        have found := find?_name_eq name isPrivate same
        generalize (d :: ds).find? _ = other at found ⊢
        generalize (d' :: ds').find? _ = other' at found ⊢
        cases other with
        | none =>
            cases other' with
            | none => exact relates_definitionOf related free whole near at'
            | some c' => cases found
        | some c =>
            cases other' with
            | none => cases found
            | some c' =>
                obtain same : c.name = c'.name := Option.some.inj found
                dsimp only
                rw [← same, ← name]
                exact relates_malformed at' _

end Definitions

/-! ## Expressions -/

theorem nameNode_at (at' : K.address site site') {s s' : Source}
    (positions : K.like.position s.position s'.position) {kind : NodeKind} (other : kind ≠ .variable)
    (name : String) :
    K.NodeAt world site site' (nameNode site kind name s) (nameNode site' kind name s') :=
  nodeAt_withPosition (nodeAt_set (nodeAt_withTags (nodeAt_make at' other) _) _ (figure_refl _) (by decide))
    (.inl positions)

theorem binaryNode_at (at' : K.address site site') {kind : NodeKind} (other : kind ≠ .variable)
    (sign : String) {left left' right right' : Address} (lefts : K.part world left left')
    (rights : K.part world right right') :
    K.NodeAt world site site' (binaryNode site kind sign left right)
      (binaryNode site' kind sign left' right') :=
  nodeAt_relate (nodeAt_relate (nodeAt_set (nodeAt_withTags (nodeAt_make at' other) _) _
    (figure_refl _) (by decide)) _ lefts) _ rights

theorem operatorKind_ne (category : Operator) : category.nodeKind ≠ .variable := by
  cases category <;> decide

/-- Definitions are built form by form wherever they stand. -/
theorem expressionStep_definition {s : Source} (isDefinition : s.expression.isDefinition = true)
    (level inner : Level) (site : Address) :
    expressionStep level inner site s = definition level site [s] := by
  unfold expressionStep
  generalize s.expression = shape at isDefinition
  cases shape with
  | localCall name args => exact if_pos isDefinition
  | _ => cases isDefinition

theorem localCall_eq {s : Source} {name : String} {args : List Source}
    (other : (Expression.localCall name args).isDefinition = false) :
    localCall level site s name args =
      if name = "defmodule" then inScope .module (call level site s .localCall (.named name) args)
      else call level site s .localCall (.named name) args :=
  if_neg (ne_true_of_eq_false other)

section Expressions

variable (related : level.Related K level')
include related

theorem relates_matching {s s' left left' right right' : Source} {sign : String}
    (near : K.within stack site) (at' : K.address site site')
    (positions : K.like.position s.position s'.position)
    (lefts : K.like.pattern (site.child Role.leftOperand.label) left left')
    (rights : K.like.expression (site.child Role.rightOperand.label) right right') :
    K.Relates stack world (fun v _ _ => K.part v site site') (matching level site s sign left right)
      (matching level' site' s' sign left' right') := by
  refine relates_bind (relates_trackReads near fun inside start near' _ =>
    related.expression (K.within_child _ near') (K.address_child _ at') rights) fun v x y _ read => ?_
  refine relates_bind (related.pattern (K.within_child _ near) (K.address_child _ at') lefts .nil)
    fun u _ _ grown found => ?_
  refine relates_bind (relates_bindAll near found.2 (.some read.2)) fun w _ _ further _ => ?_
  exact relates_emit near (nodeAt_withPosition (nodeAt_withTags (binaryNode_at at' (by decide) sign
    (K.part_mono further found.1) (K.part_mono (K.grows_trans grown further) read.1)) _)
    (.inl positions))

theorem relates_binaryOperator {s s' left left' right right' : Source} {kind : NodeKind}
    (other : kind ≠ .variable) {sign : String} (near : K.within stack site)
    (at' : K.address site site') (positions : K.like.position s.position s'.position)
    (lefts : K.like.expression (site.child Role.leftOperand.label) left left')
    (rights : K.like.expression (site.child Role.rightOperand.label) right right') :
    K.Relates stack world (fun v _ _ => K.part v site site')
      (binaryOperator level site s kind sign left right)
      (binaryOperator level' site' s' kind sign left' right') := by
  refine relates_bind (related.expression (K.within_child _ near) (K.address_child _ at') lefts)
    fun v _ _ _ leftPart => ?_
  refine relates_bind (related.expression (K.within_child _ near) (K.address_child _ at') rights)
    fun u _ _ grown rightPart => ?_
  exact relates_emit near (nodeAt_withPosition (binaryNode_at at' other sign
    (K.part_mono grown leftPart) rightPart) (.inl positions))

theorem relates_unaryOperator {s s' operand operand' : Source} {kind : NodeKind}
    (other : kind ≠ .variable) {sign : String} (near : K.within stack site)
    (at' : K.address site site') (positions : K.like.position s.position s'.position)
    (alike : K.like.expression (site.child Role.operand.label) operand operand') :
    K.Relates stack world (fun v _ _ => K.part v site site')
      (unaryOperator level site s kind sign operand)
      (unaryOperator level' site' s' kind sign operand') := by
  have node : K.NodeAt world site site' _ _ := nodeAt_withPosition (nodeAt_set (nodeAt_withTags
    (nodeAt_make at' other) [.expression, .operator, .unaryOperator]) "symbol"
    (figure_refl (.text sign)) (by decide)) (.inl positions)
  exact relates_bind (relates_child related near node alike) fun _ _ _ _ h => relates_emit near h

theorem relates_block {s s' : Source} {statements statements' : List Source}
    (near : K.within stack site) (at' : K.address site site')
    (positions : K.like.position s.position s'.position)
    (alike : Each K.like.expression site .statement 0 statements statements') :
    K.Relates stack world (fun v _ _ => K.part v site site') (block level site s statements)
      (block level' site' s' statements') := by
  refine relates_bind (relates_eachPart near at' (fun _ _ _ _ _ _ near at' alike =>
    related.expression near at' alike) alike) fun v _ _ _ parts => ?_
  exact relates_emit near (nodeAt_relateAll (nodeAt_declare (nodeAt_withPosition (nodeAt_withTags
    (nodeAt_make at' (by decide)) _) (.inl positions)) _) _ parts)

/-- A call by name that defines no function. -/
theorem relates_localCall {s s' : Source} {name : String} {args args' : List Source}
    (near : K.within stack site) (at' : K.address site site')
    (positions : K.like.position s.position s'.position)
    (first : (Expression.localCall name args).isDefinition = false)
    (second : (Expression.localCall name args').isDefinition = false)
    (alike : Each K.like.expression site .argument 0 args args') :
    K.Relates stack world (fun v _ _ => K.part v site site') (localCall level site s name args)
      (localCall level' site' s' name args') := by
  rw [localCall_eq first, localCall_eq second]
  by_cases isModule : name = "defmodule"
  · simp only [if_pos isModule]
    exact relates_inScope .module fun _ _ wider _ =>
      relates_call related (by decide) (wider _ near) at' positions (.named name) alike
  · simp only [if_neg isModule]
    exact relates_call related (by decide) near at' positions (.named name) alike

theorem relates_expressionStep {inner inner' : Level} (deeper : inner.Related K inner')
    (free : level.Free K level') {s s' : Source} (near : K.within stack site)
    (at' : K.address site site') (alike : K.like.Expression site s s') :
    K.Relates stack world (fun v _ _ => K.part v site site') (expressionStep level inner site s)
      (expressionStep level' inner' site' s') := by
  cases alike with
  | definition first second form =>
      rw [expressionStep_definition first, expressionStep_definition second]
      exact relates_definition related free near at' form
  | shape first second positions alike =>
      unfold expressionStep
      generalize s.expression = shape at first alike ⊢
      generalize s'.expression = shape' at second alike ⊢
      cases alike with
      | literal alike => exact relates_literal related near at' positions alike
      | symbol name =>
          exact fun t t' together => K.session_symbol name near at' positions together
      | reserved name => exact relates_emit near (nameNode_at at' positions (by decide) name)
      | moduleAttribute name => exact relates_emit near (nameNode_at at' positions (by decide) name)
      | @moduleName segments segments' named =>
          dsimp only
          rw [← named]
          cases moduleText? segments with
          | none => exact relates_unknown near at' _ positions
          | some name =>
              exact relates_emit near (nodeAt_withPosition (nodeAt_set (nodeAt_withTags
                (nodeAt_make at' (by decide)) _) _ (figure_refl _) (by decide)) (.inl positions))
      | @unary category _ _ _ alike =>
          exact relates_unaryOperator related (operatorKind_ne category) near at' positions alike
      | matching lefts rights => exact relates_matching related near at' positions lefts rights
      | @binary category sign left left' right right' other lefts rights =>
          cases category with
          | matching => exact absurd rfl other
          | _ => exact relates_binaryOperator related (operatorKind_ne _) near at' positions lefts rights
      | block alike => exact relates_block related near at' positions alike
      | conditional conditions yes no =>
          exact relates_conditional related free near at' positions conditions yes no
      | case subjects alike =>
          exact relates_caseExpression related free near at' positions subjects alike
      | cond alike => exact relates_condExpression related free near at' positions alike
      | withChain chain body fallback =>
          exact relates_withExpression related deeper free near at' positions chain body fallback
      | comprehension chain collected =>
          exact relates_comprehension related deeper free near at' positions chain collected
      | closure alike => exact relates_anonymousFunction related free near at' positions alike
      | capture named shorthand => exact relates_capture related near at' positions named shorthand
      | placeholder index => exact K.relates_placeholder index near at' positions
      | localCall alike => exact relates_localCall related near at' positions first second alike
      | remoteCall receivers alike =>
          exact relates_call related (by decide) near at' positions (.remote _ receivers) alike
      | anonymousCall functions alike =>
          exact relates_call related (by decide) near at' positions (.anonymous functions) alike
      | unknown tag => exact relates_unknown near at' _ positions

end Expressions

end Simulation

/-! ## Levels and constructs -/

open Simulation

variable {K : Simulation}

/-- Nothing is built below the deepest level. -/
theorem Level.bottom_related (room : K.room 0 0) : Level.bottom.Related K Level.bottom where
  room := room
  expression _ at' _ := relates_tooDeep at'
  pattern _ at' _ _ := relates_tooDeep at'

/-- The first run may be cut off where the second one has a level left. -/
theorem Level.bottom_cut {level' : Level} {room : Nat} (cut : K.room 0 (room + 1))
    (left : level'.room = room + 1) : Level.bottom.Related K level' where
  room := left ▸ cut
  expression _ _ _ := relates_tooDeep_cut cut _
  pattern _ _ _ _ := relates_tooDeep_cut cut _

theorem Level.above_related (closed : K.like.Closed) {level level' inner inner' : Level}
    {room room' : Nat} (rooms : K.room room room') (related : level.Related K level')
    (deeper : inner.Related K inner') (free : level.Free K level') :
    (Level.above room (fun _ => level) (fun _ => inner)).Related K
      (Level.above room' (fun _ => level') (fun _ => inner')) where
  room := rooms
  expression near at' alike :=
    relates_expressionStep related deeper free near at' (closed.expression alike)
  pattern near at' alike bound :=
    relates_patternStep related near at' (closed.pattern alike) bound fun alike =>
      relates_expressionStep related deeper free near at' alike

theorem Level.ofRoom_succ (room : Nat) :
    ofRoom (room + 1) = above (room + 1) (fun _ => ofRoom room) (fun _ => ofRoom (room - 1)) := by
  cases room with
  | zero => rfl
  | succ room => rfl

/-- Levels with corresponding room build alike trees alike. -/
theorem Level.ofRoom_related (closed : K.like.Closed)
    (free : ∀ room room', (ofRoom room).Free K (ofRoom room')) (room room' : Nat)
    (rooms : K.room room room') : (ofRoom room).Related K (ofRoom room') := by
  induction room using Nat.strongRecOn generalizing room' with
  | ind room ih =>
      cases room with
      | zero =>
          cases room' with
          | zero => exact bottom_related rooms
          | succ room' => exact bottom_cut rooms (by rw [ofRoom_succ]; rfl)
      | succ room =>
          cases room' with
          | zero => exact absurd rooms K.room_succ
          | succ room' =>
              -- A generator takes a level of its own, so its parts are two levels further down.
              have below : K.room room room' := K.room_pred rooms
              rw [ofRoom_succ, ofRoom_succ]
              exact above_related closed rooms (ih room (by omega) room' below)
                (ih (room - 1) (by omega) (room' - 1) (K.room_pred below)) (free room room')

/-- Constructs at one root that are read alike. -/
inductive Likeness.Construct (like : Likeness) : Construct → Construct → Prop where
  | expression {root s s'} (alike : like.expression root s s') :
      Construct like (.expression root s) (.expression root s')
  | function {root forms forms'} (alike : like.Forms root forms forms') :
      Construct like (.function root forms) (.function root forms')
  | pattern {root s s'} (alike : like.pattern root s s') :
      Construct like (.pattern root s) (.pattern root s')

namespace Simulation

variable {stack : K.Stack} {world : K.World} {root root' : Address}

theorem relates_buildFunction (closed : K.like.Closed)
    (free : ∀ room room', (Level.ofRoom room).Free K (Level.ofRoom room'))
    {forms forms' : List Source} {room room' : Nat} (rooms : K.room room room')
    (near : K.within stack root) (at' : K.address root root') (alike : K.like.Forms root forms forms') :
    K.Relates stack world (fun v _ _ => K.part v root root') (Compiler.buildFunction root forms room)
      (Compiler.buildFunction root' forms' room') := by
  cases room with
  | zero =>
      cases room' with
      | zero => exact relates_tooDeep at'
      | succ room' => exact relates_tooDeep_cut rooms root
  | succ room =>
      cases room' with
      | zero => exact absurd rooms K.room_succ
      | succ room' =>
          exact relates_definition (Level.ofRoom_related closed free room room' (K.room_pred rooms))
            (free room room') near at' alike

/-- Constructs that are read alike are built alike. -/
theorem relates_construct (closed : K.like.Closed)
    (free : ∀ room room', (Level.ofRoom room).Free K (Level.ofRoom room')) {c c' : Compiler}
    (rooms : K.room c.limits.maxDepth c'.limits.maxDepth) {k k' : Construct}
    (alike : K.like.Construct k k') (near : K.within stack k.root) (at' : K.address k.root k'.root) :
    K.Relates stack world (fun v _ _ => K.part v k.root k'.root) (k.build c) (k'.build c') := by
  have related := Level.ofRoom_related closed free _ _ rooms
  cases alike with
  | expression alike => exact related.expression near at' alike
  | function alike => exact relates_buildFunction closed free rooms near at' alike
  | pattern alike =>
      simp only [Construct.build, map_eq_pure_bind]
      exact relates_bind (related.pattern near at' alike .nil) fun _ _ _ _ found => relates_pure found.1

end Simulation

end SyntaxGraph
