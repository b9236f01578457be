import SyntaxGraph.Build.Expression
import SyntaxGraph.Proofs.Balance

/-!
# Every builder is balanced

A builder is put together from operations that are balanced and from the builders of the levels
below. So the lemmas here follow the builders one by one, each under the assumption that the levels
it takes its parts from are balanced, and by induction on the room that is left every level is.
-/

namespace SyntaxGraph

/-- A level at which whatever is built is balanced. -/
structure Level.Balanced (level : Level) : Prop where
  expression : ∀ site source, (level.expression site source).Balanced
  pattern : ∀ site source bindings, (level.pattern site source bindings).Balanced

namespace Build

variable {α β : Type} {level inner : Level}

/-! ## Steps that build nothing -/

theorem balanced_add (bindings : Bindings) (binding : Binding) (site : Address) :
    (bindings.add binding site).Balanced := by
  unfold Bindings.add
  split
  · exact .malformed _ _
  · exact .pure _

theorem balanced_splitClauses (site : Address) (label : String) (what : Malformation) (index : Nat)
    (items : List Source) : (splitClauses site label what index items).Balanced := by
  induction items generalizing index with
  | nil => exact .pure _
  | cons item items ih =>
      unfold splitClauses
      split
      · exact .malformed _ _
      · exact (ih _).bind fun _ => .pure _

theorem balanced_commonArity (site : Address) (arities : List Nat) :
    (commonArity site arities).Balanced := by
  unfold commonArity
  split
  · exact .pure _
  · split
    · exact .pure _
    · exact .throw _

theorem balanced_singleClauses (site : Address) (role : Role) (items : List Source) :
    (singleClauses site role items).Balanced := by
  refine (balanced_splitClauses _ _ _ _ _).bind fun clauses => ?_
  refine (balanced_commonArity _ _).bind fun arity => ?_
  dsimp only
  split
  · exact (Balanced.throw _).bind fun _ => .pure _
  · exact .pure _

theorem balanced_definitionClauses (site : Address) (index : Nat) (forms : List Source) :
    (definitionClauses site index forms).Balanced := by
  induction forms generalizing index with
  | nil => exact .pure _
  | cons form forms ih =>
      unfold definitionClauses
      split
      · exact .malformed _ _
      · exact (ih _).bind fun _ => .pure _

theorem balanced_readPending (site : Address) (pending : List (Source × Nat)) (r : Segment.Reading) :
    (Segment.readPending site pending r).Balanced := by
  fun_induction Segment.readPending site pending r with
  | case1 r => exact .pure _
  | case2 spec rest r => exact .tooDeep _
  | case3 r note left right room rest ih => exact ih
  | case4 r word room rest split ih => exact ih

theorem balanced_placeholder (site : Address) (source : Source) (index : Int64) :
    (placeholder site source index).Balanced := by
  intro limits s _ t h
  obtain ⟨greatest, rest, seen, rfl⟩ := yields_placeholder h
  exact .of_balance ((Session.Balance.placeholder seen index).trans (.emit _ _)) rfl

/-! ## Parts of one node -/

section Parts

variable (balanced : level.Balanced)
include balanced

theorem balanced_child (node : Node) (role : Role) (source : Source) :
    (level.child node role source).Balanced :=
  (balanced.expression _ _).bind fun _ => .pure _

theorem balanced_optionalChild (node : Node) (role : Role) (source : Option Source) :
    (optionalChild level node role source).Balanced := by
  cases source with
  | none => exact .pure _
  | some source => exact balanced_child balanced node role source

theorem balanced_patternChild (node : Node) (role : Role) (source : Source) (bindings : Bindings) :
    (patternChild level node role source bindings).Balanced :=
  (balanced.pattern _ _ _).bind fun _ => .pure _

end Parts

/-! ## Literals and binaries -/

theorem balanced_segment {build : Address → Source → β → Build β}
    (each : ∀ site source value, (build site source value).Balanced) (room : Nat) (site : Address)
    (segment : Source) (state : β × List (String × Address)) :
    (Segment.step room build site segment state).Balanced := by
  unfold Segment.step
  refine (each _ _ _).bind fun value => ?_
  dsimp only
  split
  · exact (Balanced.emit _).bind fun _ => .pure _
  · exact (balanced_readPending _ _ _).bind fun _ => (Balanced.emit _).bind fun _ => .pure _

theorem balanced_segments {build : Address → Source → β → Build β}
    (each : ∀ site source value, (build site source value).Balanced) (room : Nat) (node : Node)
    (segments : List Source) (value : β) :
    (Segment.buildAll room build node segments value).Balanced :=
  (Balanced.checkFanout _ _ _).bind fun _ =>
    (Balanced.foldParts (balanced_segment each room) _ _ _).bind fun _ => .pure _

section Literals

variable (balanced : level.Balanced)
include balanced

theorem balanced_elements (node : Node) (items : List Source) :
    (elements level node items).Balanced :=
  (Balanced.checkFanout _ _ _).bind fun _ =>
    (Balanced.eachPart balanced.expression items).bind fun _ => .pure _

theorem balanced_entry (site : Address) (source : Source) : (entry level site source).Balanced := by
  unfold entry
  split
  · exact .unknown _ _ _
  · exact (balanced.expression _ _).bind fun _ => (balanced.expression _ _).bind fun _ => .emit _

theorem balanced_entries (node : Node) (items : List Source) :
    (entries level node items).Balanced :=
  (Balanced.checkFanout _ _ _).bind fun _ =>
    (Balanced.eachPart (balanced_entry balanced) items).bind fun _ => .pure _

theorem balanced_mapBody (node : Node) (items : List Source) :
    (mapBody level node items).Balanced := by
  unfold mapBody
  split
  · exact (balanced_child balanced _ _ _).bind fun node => balanced_entries balanced node _
  · exact balanced_entries balanced node _

theorem balanced_bounds (node : Node) (parts : List (Role × Option Source)) :
    (bounds level node parts).Balanced := by
  induction parts generalizing node with
  | nil => exact .pure _
  | cons part parts ih =>
      obtain ⟨role, bound⟩ := part
      cases bound with
      | none => exact ih node
      | some bound => exact (balanced_child balanced _ _ _).bind ih

theorem balanced_literalNode (site : Address) (position : Option Position) (shape : Literal) :
    (literalNode level site position shape).Balanced := by
  cases shape with
  | list items =>
      refine (balanced_elements balanced _ _).bind fun node => ?_
      split
      · exact .pure _
      · exact balanced_child balanced _ _ _
  | keywordList items => exact balanced_entries balanced _ _
  | tuple items => exact balanced_elements balanced _ _
  | map items => exact balanced_mapBody balanced _ _
  | struct typeRef fields =>
      exact (balanced_child balanced _ _ _).bind fun _ => balanced_mapBody balanced _ _
  | range first last step => exact balanced_bounds balanced _ _
  | sigil letter content modifiers =>
      dsimp only [literalNode]
      split
      · exact .pure _
      · exact balanced_child balanced _ _ _
  | binary segments =>
      refine (balanced_segments (fun site source _ => balanced.expression site source) _ _ _ _).bind
        fun _ => ?_
      exact (Balanced.readAll _ _).bind fun _ => .pure _
  | _ => exact .pure _

theorem balanced_literal (site : Address) (source : Source) (shape : Literal) :
    (literal level site source shape).Balanced :=
  (balanced_literalNode balanced _ _ _).bind fun _ => .emit _

end Literals

/-! ## Calls and heads -/

section Calls

variable (balanced : level.Balanced)
include balanced

theorem balanced_receiver (node : Node) (source : Source) :
    (receiver level node source).Balanced := by
  unfold receiver
  split
  · exact .pure _
  · exact balanced_child balanced _ _ _

theorem balanced_callee (node : Node) (target : Callee) (arity : Nat) :
    (callee level node target arity).Balanced := by
  cases target with
  | named name => exact (Balanced.emit _).bind fun _ => .pure _
  | remote source name =>
      exact (balanced_receiver balanced _ _).bind fun _ => (Balanced.emit _).bind fun _ => .pure _
  | anonymous function => exact balanced_child balanced _ _ _

theorem balanced_call (site : Address) (source : Source) (kind : NodeKind) (target : Callee)
    (args : List Source) : (call level site source kind target args).Balanced :=
  (balanced_callee balanced _ _ _).bind fun _ =>
    (Balanced.eachPart balanced.expression args).bind fun _ => .emit _

theorem balanced_parameters (node : Node) (role : Role) (params : List Source) :
    (parameters level node role params).Balanced := by
  unfold parameters
  split
  · exact (Balanced.foldParts balanced.pattern 0 params []).bind fun _ => .pure _
  · exact (Balanced.foldlM (fun bindings param => balanced.pattern _ param bindings) params []).bind
      fun _ => .pure _

theorem balanced_clauseHead (node : Node) (role : Role) (clause : Clause) :
    (clauseHead level node role clause).Balanced := by
  refine (balanced_parameters balanced _ _ _).bind fun found => ?_
  refine (Balanced.bindAll _ _).bind fun _ => ?_
  exact (balanced_optionalChild balanced _ _ _).bind fun _ => .pure _

end Calls

/-! ## Patterns -/

section Patterns

variable (balanced : level.Balanced)
include balanced

theorem balanced_patternElements (node : Node) (items : List Source) (bindings : Bindings) :
    (patternElements level node items bindings).Balanced :=
  (Balanced.checkFanout _ _ _).bind fun _ =>
    (Balanced.foldParts balanced.pattern 0 items bindings).bind fun _ => .pure _

theorem balanced_patternEntry (site : Address) (source : Source) (bindings : Bindings) :
    (patternEntry level site source bindings).Balanced := by
  unfold patternEntry
  split
  · exact .malformed _ _
  · refine (balanced.pattern _ _ _).bind fun keyBindings => ?_
    dsimp only
    split
    · exact (Balanced.malformed _ _).bind fun _ => (balanced.pattern _ _ _).bind fun _ =>
        (Balanced.emit _).bind fun _ => .pure _
    · exact (balanced.pattern _ _ _).bind fun _ => (Balanced.emit _).bind fun _ => .pure _

theorem balanced_patternEntries (node : Node) (items : List Source) (bindings : Bindings) :
    (patternEntries level node items bindings).Balanced :=
  (Balanced.checkFanout _ _ _).bind fun _ =>
    (Balanced.foldParts (balanced_patternEntry balanced) 0 items bindings).bind fun _ => .pure _

/-- A pattern is balanced if an expression in its place is. -/
theorem balanced_patternStep {sameDepth : Address → Source → Build Unit}
    (expression : ∀ site source, (sameDepth site source).Balanced) (site : Address) (source : Source)
    (bindings : Bindings) : (patternStep level sameDepth site source bindings).Balanced := by
  have emitted (node : Node) (found : Bindings) : Balanced (do
      emit node
      return found) := (Balanced.emit node).bind fun _ => .pure _
  unfold patternStep
  split
  · exact (balanced_literal balanced _ _ _).bind fun _ => .pure _
  · exact (expression _ _).bind fun _ => .pure _
  · split
    · exact .malformed _ _
    · exact emitted _ _
  · exact (balanced_add _ _ _).bind fun _ => emitted _ _
  · exact emitted _ _
  · split
    · exact .malformed _ _
    · exact (balanced_child balanced _ _ _).bind fun _ => emitted _ _
  · exact (balanced_patternElements balanced _ _ _).bind fun _ => emitted _ _
  · refine (balanced_patternElements balanced _ _ _).bind fun _ => ?_
    dsimp only
    split
    · exact (Balanced.pure _).bind fun _ => emitted _ _
    · exact (balanced_patternChild balanced _ _ _ _).bind fun _ => emitted _ _
  · exact (balanced_patternEntries balanced _ _ _).bind fun _ => emitted _ _
  · exact (balanced_patternChild balanced _ _ _ _).bind fun _ =>
      (balanced_patternEntries balanced _ _ _).bind fun _ => emitted _ _
  · exact (balanced_segments balanced.pattern _ _ _ _).bind fun _ =>
      (Balanced.readAll _ _).bind fun _ => emitted _ _
  · exact (balanced_patternChild balanced _ _ _ _).bind fun _ =>
      (balanced_patternChild balanced _ _ _ _).bind fun _ => emitted _ _
  · split
    · exact (balanced_patternChild balanced _ _ _ _).bind fun _ => emitted _ _
    · exact .malformed _ _
  · exact (balanced_patternChild balanced _ _ _ _).bind fun _ =>
      (balanced_child balanced _ _ _).bind fun _ => emitted _ _
  · exact .malformed _ _

end Patterns

/-! ## Branches -/

section Branches

variable (balanced : level.Balanced)
include balanced

theorem balanced_branchClause (site : Address) (clause : Clause) :
    (branchClause level site clause).Balanced :=
  .inScope _ ((balanced_clauseHead balanced _ _ _).bind fun _ =>
    (balanced_optionalChild balanced _ _ _).bind fun _ => .emit _)

theorem balanced_branchClauses (node : Node) (role : Role) (items : List Source) :
    (branchClauses level node role items).Balanced :=
  (balanced_singleClauses _ _ _).bind fun clauses => (Balanced.checkFanout _ _ _).bind fun _ =>
    (Balanced.eachPart (balanced_branchClause balanced) clauses).bind fun _ => .pure _

theorem balanced_branch (node : Node) (role : Role) (source : Option Source) :
    (branch level node role source).Balanced := by
  cases source with
  | none => exact .pure _
  | some source => exact .inScope _ (balanced_child balanced _ _ _)

theorem balanced_conditional (site : Address) (source : Source) (negated : Bool)
    (condition branches : Source) :
    (conditional level site source negated condition branches).Balanced :=
  (balanced_child balanced _ _ _).bind fun _ => (balanced_branch balanced _ _ _).bind fun _ =>
    (balanced_branch balanced _ _ _).bind fun _ => .emit _

theorem balanced_caseExpression (site : Address) (source subject branches : Source) :
    (caseExpression level site source subject branches).Balanced :=
  (balanced_child balanced _ _ _).bind fun _ =>
    (balanced_branchClauses balanced _ _ _).bind fun _ => .emit _

theorem balanced_condClause (site : Address) (clause : Clause) :
    (condClause level site clause).Balanced :=
  .inScope _ ((balanced_optionalChild balanced _ _ _).bind fun _ =>
    (balanced_optionalChild balanced _ _ _).bind fun _ => .emit _)

theorem balanced_condExpression (site : Address) (source branches : Source) :
    (condExpression level site source branches).Balanced :=
  (balanced_singleClauses _ _ _).bind fun clauses => (Balanced.checkFanout _ _ _).bind fun _ =>
    (Balanced.eachPart (balanced_condClause balanced) clauses).bind fun _ => .emit _

end Branches

/-! ## Chains -/

theorem balanced_chainClauses {isGenerator : Source → Bool}
    {buildGenerator buildOther : Address → Source → Build Unit} {otherwise : Role}
    (generators : ∀ site source, (buildGenerator site source).Balanced)
    (others : ∀ site source, (buildOther site source).Balanced) (index : Nat) (clauses : List Source)
    (node : Node) :
    (chainClauses isGenerator buildGenerator otherwise buildOther index clauses node).Balanced := by
  induction clauses generalizing index node with
  | nil => exact .pure _
  | cons clause clauses ih =>
      unfold chainClauses
      cases isGenerator clause with
      | true => exact (generators _ _).bind fun _ => ih _ _
      | false => exact (others _ _).bind fun _ => ih _ _

theorem balanced_generator (balanced : level.Balanced) (role : Role) (site : Address)
    (source : Source) : (generator level role site source).Balanced := by
  unfold generator
  split
  · refine (Balanced.trackReads (balanced_child balanced _ _ _)).bind fun _ => ?_
    refine (balanced_patternChild balanced _ _ _ _).bind fun _ => ?_
    refine (Balanced.bindAll _ _).bind fun _ => ?_
    exact (balanced_optionalChild balanced _ _ _).bind fun _ => .emit _
  · exact .malformed _ _

section Chains

variable (balanced : level.Balanced) (deeper : inner.Balanced)
include balanced deeper

theorem balanced_withExpression (site : Address) (source : Source) (clauses : List Source)
    (options : Source) : (withExpression level inner site source clauses options).Balanced := by
  refine (Balanced.checkFanout _ _ _).bind fun _ => ?_
  refine (Balanced.inScope _ ?_).bind fun node => ?_
  · exact (balanced_chainClauses (balanced_generator deeper _) balanced.expression _ _ _).bind
      fun _ => balanced_optionalChild balanced _ _ _
  · dsimp only
    split
    · exact (Balanced.pure _).bind fun _ => .emit _
    · exact (balanced_branchClauses balanced _ _ _).bind fun _ => .emit _

theorem balanced_comprehension (site : Address) (source : Source) (qualifiers : List Source)
    (options : Source) : (comprehension level inner site source qualifiers options).Balanced := by
  refine (Balanced.checkFanout _ _ _).bind fun _ => ?_
  refine (balanced_optionalChild balanced _ _ _).bind fun _ => ?_
  refine (balanced_optionalChild balanced _ _ _).bind fun _ => ?_
  refine (Balanced.inScope _ ?_).bind fun _ => .emit _
  refine (balanced_chainClauses (balanced_generator deeper _) balanced.expression _ _ _).bind
    fun _ => ?_
  split
  · exact balanced_branchClauses balanced _ _ _
  · exact balanced_optionalChild balanced _ _ _

end Chains

/-! ## Closures and definitions -/

section Functions

variable (balanced : level.Balanced)
include balanced

theorem balanced_closureClause (site : Address) (clause : Clause) :
    (closureClause level site clause).Balanced :=
  .inScope _ ((balanced_clauseHead balanced _ _ _).bind fun _ =>
    (Balanced.boundByClosure _).bind fun _ =>
      (balanced_optionalChild balanced _ _ _).bind fun _ => .emit _)

theorem balanced_anonymousFunction (site : Address) (source : Source) (clauses : List Source) :
    (anonymousFunction level site source clauses).Balanced := by
  refine (balanced_splitClauses _ _ _ _ _).bind fun clauses => ?_
  have rest : Balanced (do
      checkFanout site "clause" clauses.length
      let arity ← commonArity site (clauses.map Clause.arity)
      openClosure site
      let addresses ← eachPart site .clause (closureClause level) clauses
      let n ← closeClosure (((((Node.make site .anonymousFunction)
        |>.withTags [.expression, .closure]
        |>.set "arity" arity
        |>.set "clause_count" clauses.length
        |>.withPosition source.position)).declare .clause).relateAll .clause addresses)
      emit n) :=
    (Balanced.checkFanout _ _ _).bind fun _ => (balanced_commonArity _ _).bind fun _ =>
      .closure site (.eachPart (balanced_closureClause balanced) clauses) _ fun _ n => n
  dsimp only
  split
  · exact (Balanced.malformed _ _).bind fun _ => rest
  · exact rest

theorem balanced_functionCapture (site : Address) (source : Source) (f : CapturedFunction) :
    (functionCapture level site source f).Balanced := by
  dsimp only [functionCapture]
  split
  · exact (Balanced.pure _).bind fun _ => (Balanced.emit _).bind fun _ => .emit _
  · exact (balanced_receiver balanced _ _).bind fun _ => (Balanced.emit _).bind fun _ => .emit _

theorem balanced_shorthandClosure (site : Address) (source body : Source) :
    (shorthandClosure level site source body).Balanced :=
  .closure site (.trackPlaceholders (balanced.expression _ _)) _
    fun counted n => (n.set "arity" counted.2).relate .body (site.child Role.body.label)

theorem balanced_capture (site : Address) (source body : Source) :
    (capture level site source body).Balanced := by
  unfold capture
  split
  · exact balanced_functionCapture balanced _ _ _
  · exact balanced_shorthandClosure balanced _ _ _

theorem balanced_functionClause (site : Address) (clause : Clause) :
    (functionClause level site clause).Balanced :=
  .inScope _ ((balanced_clauseHead balanced _ _ _).bind fun _ =>
    (balanced_optionalChild balanced _ _ _).bind fun _ => .emit _)

theorem balanced_definition (site : Address) (forms : List Source) :
    (definition level site forms).Balanced := by
  have each (site : Address) (c : DefinitionClause) : (functionClause level site c.clause).Balanced :=
    balanced_functionClause balanced site c.clause
  refine (balanced_definitionClauses _ _ _).bind fun clauses => ?_
  split
  · exact .malformed _ _
  · split
    · exact .malformed _ _
    · refine (Balanced.checkFanout _ _ _).bind fun _ => (balanced_commonArity _ _).bind fun _ => ?_
      exact (Balanced.inScope _ (.eachPart each _)).bind fun _ => .emit _

end Functions

/-! ## Expressions -/

section Expressions

variable (balanced : level.Balanced)
include balanced

theorem balanced_matching (site : Address) (source : Source) (sign : String) (left right : Source) :
    (matching level site source sign left right).Balanced :=
  (Balanced.trackReads (balanced.expression _ _)).bind fun _ =>
    (balanced.pattern _ _ _).bind fun _ => (Balanced.bindAll _ _).bind fun _ => .emit _

theorem balanced_binaryOperator (site : Address) (source : Source) (kind : NodeKind) (sign : String)
    (left right : Source) : (binaryOperator level site source kind sign left right).Balanced :=
  (balanced.expression _ _).bind fun _ => (balanced.expression _ _).bind fun _ => .emit _

theorem balanced_unaryOperator (site : Address) (source : Source) (kind : NodeKind) (sign : String)
    (operand : Source) : (unaryOperator level site source kind sign operand).Balanced :=
  (balanced_child balanced _ _ _).bind fun _ => .emit _

theorem balanced_block (site : Address) (source : Source) (statements : List Source) :
    (block level site source statements).Balanced :=
  (Balanced.eachPart balanced.expression statements).bind fun _ => .emit _

theorem balanced_localCall (site : Address) (source : Source) (name : String) (args : List Source) :
    (localCall level site source name args).Balanced := by
  unfold localCall
  split
  · exact balanced_definition balanced _ _
  · dsimp only
    split
    · exact .inScope _ (balanced_call balanced _ _ _ _ _)
    · exact balanced_call balanced _ _ _ _ _

theorem balanced_expressionStep (deeper : inner.Balanced) (site : Address) (source : Source) :
    (expressionStep level inner site source).Balanced := by
  unfold expressionStep
  split
  · exact balanced_literal balanced _ _ _
  · exact (Balanced.readSymbol _ _ _).bind fun _ => .emit _
  · exact .emit _
  · exact .emit _
  · split
    · exact .emit _
    · exact .unknown _ _ _
  · exact balanced_unaryOperator balanced _ _ _ _ _
  · exact balanced_matching balanced _ _ _ _ _
  · exact balanced_binaryOperator balanced _ _ _ _ _ _
  · exact balanced_block balanced _ _ _
  · exact balanced_conditional balanced _ _ _ _ _
  · exact balanced_caseExpression balanced _ _ _ _
  · exact balanced_condExpression balanced _ _ _
  · exact balanced_withExpression balanced deeper _ _ _ _
  · exact balanced_comprehension balanced deeper _ _ _ _
  · exact balanced_anonymousFunction balanced _ _ _
  · exact balanced_capture balanced _ _ _
  · exact balanced_placeholder _ _ _
  · exact balanced_localCall balanced _ _ _ _
  · exact balanced_call balanced _ _ _ _ _
  · exact balanced_call balanced _ _ _ _ _
  · exact .unknown _ _ _

end Expressions

end Build

/-! ## Levels -/

namespace Level

open Build

theorem balanced_bottom : bottom.Balanced := ⟨fun _ _ => .tooDeep _, fun _ _ _ => .tooDeep _⟩

theorem balanced_above {room : Nat} {level inner : Level} (balanced : level.Balanced)
    (deeper : inner.Balanced) : (above room (fun _ => level) (fun _ => inner)).Balanced :=
  ⟨balanced_expressionStep balanced deeper,
    balanced_patternStep balanced (balanced_expressionStep balanced deeper)⟩

/-- Whatever is built at any level is balanced. -/
theorem balanced_ofRoom : ∀ room, (ofRoom room).Balanced
  | 0 => balanced_bottom
  | 1 => balanced_above balanced_bottom balanced_bottom
  | room + 2 => balanced_above (balanced_ofRoom (room + 1)) (balanced_ofRoom room)

/-- The builders that take their parts from a level, and those of generators from one further down. -/
inductive Builder (level inner : Level) : {α : Type} → Build α → Prop where
  | expression (site source) : Builder level inner (level.expression site source)
  | pattern (site source bindings) : Builder level inner (level.pattern site source bindings)
  | child (node role source) : Builder level inner (level.child node role source)
  | optionalChild (node role source) : Builder level inner (optionalChild level node role source)
  | patternChild (node role source bindings) :
      Builder level inner (patternChild level node role source bindings)
  | literal (site source shape) : Builder level inner (literal level site source shape)
  | literalNode (site position shape) : Builder level inner (literalNode level site position shape)
  | elements (node items) : Builder level inner (elements level node items)
  | entry (site source) : Builder level inner (entry level site source)
  | entries (node items) : Builder level inner (entries level node items)
  | mapBody (node items) : Builder level inner (mapBody level node items)
  | bounds (node parts) : Builder level inner (bounds level node parts)
  | segments (room node segments) :
      Builder level inner (Segment.buildAll room (fun site source (_ : Unit) =>
        level.expression site source) node segments ())
  | patternSegments (room node segments bindings) :
      Builder level inner (Segment.buildAll room level.pattern node segments bindings)
  | patternElements (node items bindings) :
      Builder level inner (patternElements level node items bindings)
  | patternEntry (site source bindings) :
      Builder level inner (patternEntry level site source bindings)
  | patternEntries (node items bindings) :
      Builder level inner (patternEntries level node items bindings)
  | receiver (node source) : Builder level inner (receiver level node source)
  | callee (node target arity) : Builder level inner (callee level node target arity)
  | call (site source kind target args) :
      Builder level inner (call level site source kind target args)
  | localCall (site source name args) : Builder level inner (localCall level site source name args)
  | matching (site source sign left right) :
      Builder level inner (matching level site source sign left right)
  | binaryOperator (site source kind sign left right) :
      Builder level inner (binaryOperator level site source kind sign left right)
  | unaryOperator (site source kind sign operand) :
      Builder level inner (unaryOperator level site source kind sign operand)
  | block (site source statements) : Builder level inner (block level site source statements)
  | branch (node role source) : Builder level inner (branch level node role source)
  | conditional (site source negated condition branches) :
      Builder level inner (conditional level site source negated condition branches)
  | caseExpression (site source subject branches) :
      Builder level inner (caseExpression level site source subject branches)
  | condClause (site clause) : Builder level inner (condClause level site clause)
  | condExpression (site source branches) :
      Builder level inner (condExpression level site source branches)
  | branchClause (site clause) : Builder level inner (branchClause level site clause)
  | branchClauses (node role items) : Builder level inner (branchClauses level node role items)
  | generator (role site source) : Builder level inner (generator level role site source)
  | withExpression (site source clauses options) :
      Builder level inner (withExpression level inner site source clauses options)
  | comprehension (site source qualifiers options) :
      Builder level inner (comprehension level inner site source qualifiers options)
  | parameters (node role params) : Builder level inner (parameters level node role params)
  | clauseHead (node role clause) : Builder level inner (clauseHead level node role clause)
  | closureClause (site clause) : Builder level inner (closureClause level site clause)
  | anonymousFunction (site source clauses) :
      Builder level inner (anonymousFunction level site source clauses)
  | capture (site source body) : Builder level inner (capture level site source body)
  | functionCapture (site source f) : Builder level inner (functionCapture level site source f)
  | shorthandClosure (site source body) :
      Builder level inner (shorthandClosure level site source body)
  | placeholder (site source index) : Builder level inner (placeholder site source index)
  | functionClause (site clause) : Builder level inner (functionClause level site clause)
  | definition (site forms) : Builder level inner (definition level site forms)
  | unknown (site tag position) : Builder level inner (unknown site tag position)

theorem Builder.balanced {level inner : Level} {α : Type} {step : Build α}
    (builder : Builder level inner step) (balanced : level.Balanced) (deeper : inner.Balanced) :
    step.Balanced := by
  cases builder with
  | expression => exact balanced.expression _ _
  | pattern => exact balanced.pattern _ _ _
  | child => exact balanced_child balanced _ _ _
  | optionalChild => exact balanced_optionalChild balanced _ _ _
  | patternChild => exact balanced_patternChild balanced _ _ _ _
  | literal => exact balanced_literal balanced _ _ _
  | literalNode => exact balanced_literalNode balanced _ _ _
  | elements => exact balanced_elements balanced _ _
  | entry => exact balanced_entry balanced _ _
  | entries => exact balanced_entries balanced _ _
  | mapBody => exact balanced_mapBody balanced _ _
  | bounds => exact balanced_bounds balanced _ _
  | segments =>
      exact balanced_segments (fun site source _ => balanced.expression site source) _ _ _ _
  | patternSegments => exact balanced_segments balanced.pattern _ _ _ _
  | patternElements => exact balanced_patternElements balanced _ _ _
  | patternEntry => exact balanced_patternEntry balanced _ _ _
  | patternEntries => exact balanced_patternEntries balanced _ _ _
  | receiver => exact balanced_receiver balanced _ _
  | callee => exact balanced_callee balanced _ _ _
  | call => exact balanced_call balanced _ _ _ _ _
  | localCall => exact balanced_localCall balanced _ _ _ _
  | matching => exact balanced_matching balanced _ _ _ _ _
  | binaryOperator => exact balanced_binaryOperator balanced _ _ _ _ _ _
  | unaryOperator => exact balanced_unaryOperator balanced _ _ _ _ _
  | block => exact balanced_block balanced _ _ _
  | branch => exact balanced_branch balanced _ _ _
  | conditional => exact balanced_conditional balanced _ _ _ _ _
  | caseExpression => exact balanced_caseExpression balanced _ _ _ _
  | condClause => exact balanced_condClause balanced _ _
  | condExpression => exact balanced_condExpression balanced _ _ _
  | branchClause => exact balanced_branchClause balanced _ _
  | branchClauses => exact balanced_branchClauses balanced _ _ _
  | generator => exact balanced_generator balanced _ _ _
  | withExpression => exact balanced_withExpression balanced deeper _ _ _ _
  | comprehension => exact balanced_comprehension balanced deeper _ _ _ _
  | parameters => exact balanced_parameters balanced _ _ _
  | clauseHead => exact balanced_clauseHead balanced _ _ _
  | closureClause => exact balanced_closureClause balanced _ _
  | anonymousFunction => exact balanced_anonymousFunction balanced _ _ _
  | capture => exact balanced_capture balanced _ _ _
  | functionCapture => exact balanced_functionCapture balanced _ _ _
  | shorthandClosure => exact balanced_shorthandClosure balanced _ _ _
  | placeholder => exact balanced_placeholder _ _ _
  | functionClause => exact balanced_functionClause balanced _ _
  | definition => exact balanced_definition balanced _ _
  | unknown => exact .unknown _ _ _

/-- A builder that succeeds leaves the stacks of the session as they were, from whatever session it
starts and however much room it has, as long as no frame shares its number. The current frame is the
same, the same closures, logs and counts are open, the old frames have the kinds, parents and
bindings they had, but for new names or bindings in the current one, and what was emitted, noted or
reported before is the beginning of what is there now. -/
theorem builder_balance {room deeper : Nat} {α : Type} {step : Build α} {limits : Limits}
    {s t : Session} {a : α} (builder : (ofRoom room).Builder (ofRoom deeper) step)
    (yields : step.Yields limits s a t) (small : t.scopes.size < 2 ^ 32) : s.Balance t :=
  (builder.balanced (balanced_ofRoom room) (balanced_ofRoom deeper) _ _ _ _ yields).2 small

/-- A closure that binds its parameter, matches a name of its own frame and holds another closure. -/
def nestedClosures : Source :=
  .form "fn" .empty [.form "->" .empty [.list [.symbol "x" .empty],
    .binary "=" (.symbol "y" .empty) (.form "&" .empty [.form "&" .empty [.integer 1]])]]

theorem builder_balance_closures : ∃ t : Session,
    Builder (ofRoom 8) (ofRoom 7) ((ofRoom 8).expression ⟨"expr/0"⟩ nestedClosures) ∧
      ((ofRoom 8).expression ⟨"expr/0"⟩ nestedClosures).Yields .standard
        (.start .initial .root) () t ∧
      t.scopes.size < 2 ^ 32 ∧ t.scopes.size = 4 ∧ t.reports.size = 2 ∧
      (Session.start .initial .root).Balance t := by
  obtain ⟨t, ran, frames, reports⟩ : ∃ t : Session,
      ((ofRoom 8).expression ⟨"expr/0"⟩ nestedClosures).Yields .standard
        (.start .initial .root) () t ∧ t.scopes.size = 4 ∧ t.reports.size = 2 := ⟨_, rfl, rfl, rfl⟩
  have small : t.scopes.size < 2 ^ 32 := by omega
  have builder : Builder (ofRoom 8) (ofRoom 7) ((ofRoom 8).expression ⟨"expr/0"⟩ nestedClosures) :=
    .expression _ _
  exact ⟨t, builder, ran, small, frames, reports, builder_balance builder ran small⟩

end Level

end SyntaxGraph
