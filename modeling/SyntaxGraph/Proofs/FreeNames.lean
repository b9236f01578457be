import SyntaxGraph.Proofs.Passages
import SyntaxGraph.Proofs.Shapes
import SyntaxGraph.Proofs.Soundness

/-!
# Builders follow the lexical recursion

A level is lexical if whatever it builds from a tree written for a term passes as the
recursion over the term says: the same names are in view afterwards, and the same uses are
free. Each builder hands this on from the level below, so that all levels are lexical.
-/

namespace SyntaxGraph

/-- Trees written for terms are built as the recursion over terms says. -/
structure Level.Lexical (level : Level) : Prop where
  expression : ∀ {limits : Limits} {s t : Session} {site : Address} {source : Source} {term : Term}
    {u : Unit}, source.Denotes term → (level.expression site source).Yields limits s u t →
    ∀ scope env, Passage scope env (term.scan env).1 (term.scan env).2 s t
  /-- A pattern collects the names it binds and leaves the names in view alone. -/
  pattern : ∀ {limits : Limits} {s t : Session} {site : Address} {source : Source}
    {pattern : PatternTerm} {bindings found : Bindings}, source.DenotesPattern pattern →
    (level.pattern site source bindings).Yields limits s found t →
    found.names = bindings.names ++ pattern.bound ∧
      ∀ scope env, Passage scope env env (Occurrence.free env pattern.pinned) s t

namespace Build

variable {limits : Limits} {level : Level} {node result : Node} {role : Role} {site : Address}
  {source : Source} {items : List Source} {terms : List Term} {s t : Session} {scope : ScopeId}
  {env : List String} {index : Nat}

/-! ## Parts in a row -/

theorem child_passage (lexical : level.Lexical) {term : Term} (denotes : source.Denotes term)
    (h : (level.child node role source).Yields limits s result t) :
    Passage scope env (term.scan env).1 (term.scan env).2 s t :=
  lexical.expression denotes (yields_child h).1 scope env

/-- Parts in a row thread the names in view, whatever builds them. -/
theorem foldParts_passage {related : Source → Term → Prop} {build : Address → Source → Build Unit}
    (step : ∀ {address part term s t}, related part term →
      (build address part).Yields limits s () t →
      ∀ env, Passage scope env (term.scan env).1 (term.scan env).2 s t)
    (each : List.Forall₂ related items terms) {result : List Address × Unit}
    (h : (foldParts site role (fun address part _ => build address part) index items ()).Yields
      limits s result t) :
    Passage scope env (Term.scanAll env terms).1 (Term.scanAll env terms).2 s t := by
  induction each generalizing index s env result with
  | nil =>
      obtain ⟨-, rfl⟩ := yields_foldParts_nil h
      exact .refl s
  | cons first _ ih =>
      obtain ⟨_, addresses, u, part, rest, -⟩ := yields_foldParts_cons h
      exact (step first part env).trans (ih rest)

theorem eachPart_passage (lexical : level.Lexical) (each : List.Forall₂ Source.Denotes items terms)
    {addresses : List Address}
    (h : (eachPart site role level.expression items).Yields limits s addresses t) :
    Passage scope env (Term.scanAll env terms).1 (Term.scanAll env terms).2 s t := by
  refine foldParts_passage ?_ each (yields_eachPart h)
  intro address part term s t denotes built env
  exact lexical.expression denotes built scope env

theorem optionalChild_passage (lexical : level.Lexical) {source : Option Source}
    (each : List.Forall₂ Source.Denotes source.toList terms)
    (h : (optionalChild level node role source).Yields limits s result t) :
    Passage scope env (Term.scanAll env terms).1 (Term.scanAll env terms).2 s t := by
  cases source with
  | none =>
      cases each
      obtain ⟨-, rfl⟩ := yields_pure h
      exact .refl s
  | some source =>
      cases each with
      | cons first rest =>
          cases rest
          exact (child_passage lexical first h).trans (.refl t)

theorem elements_passage (lexical : level.Lexical) (each : List.Forall₂ Source.Denotes items terms)
    (h : (elements level node items).Yields limits s result t) :
    Passage scope env (Term.scanAll env terms).1 (Term.scanAll env terms).2 s t := by
  obtain ⟨addresses, -, parts, -⟩ := yields_elements h
  exact eachPart_passage lexical each parts

/-! ## Literals -/

/-- An entry with an atom key is built like the pair it stands for. -/
theorem entry_passage (lexical : level.Lexical) {term : Term} {u : Unit}
    (pair : source.keywordPair?.isSome = true) (denotes : source.Denotes term)
    (h : (entry level site source).Yields limits s u t) :
    Passage scope env (term.scan env).1 (term.scan env).2 s t := by
  obtain ⟨key, value, encoded, isEntry⟩ := Source.mapEntry?_of_keywordPair? pair
  obtain ⟨terms, rfl, each⟩ := Source.denotes_of_tuple? encoded denotes
  obtain ⟨v, w, first, second, rfl⟩ := yields_entry isEntry h
  cases each with
  | cons hkey others =>
      cases others with
      | cons hvalue none =>
          cases none
          have keyed := lexical.expression hkey first scope env
          have valued := lexical.expression hvalue second scope
          exact (keyed.trans ((valued _).trans (.refl w))).emit _

theorem entries_passage (lexical : level.Lexical) (each : List.Forall₂ Source.Denotes items terms)
    (pairs : ∀ item ∈ items, item.keywordPair?.isSome = true)
    (h : (entries level node items).Yields limits s result t) :
    Passage scope env (Term.scanAll env terms).1 (Term.scanAll env terms).2 s t := by
  obtain ⟨addresses, -, parts, -⟩ := yields_entries h
  refine foldParts_passage ?_ ((List.forall₂_and_left _ _).mpr ⟨pairs, each⟩) (yields_eachPart parts)
  intro address part term s t both built env
  exact entry_passage lexical both.1 both.2 built

theorem scalar_passage {shape : Literal} {u : Unit} (scalar : shape.isScalar = true)
    (h : (literal level site source shape).Yields limits s u t) : Passage scope env env [] s t := by
  obtain ⟨result, s₁, inner, last⟩ := yields_bind h
  obtain rfl := yields_emit last
  cases shape <;> first
    | cases scalar; done
    | (obtain ⟨-, rfl⟩ := yields_pure inner
       exact (Passage.refl s).emit _)

theorem list_passage (lexical : level.Lexical) {u : Unit}
    (each : List.Forall₂ Source.Denotes items terms)
    (plain : Source.splitTail items = (items, none))
    (h : (literal level site source (.list items)).Yields limits s u t) :
    Passage scope env (Term.scanAll env terms).1 (Term.scanAll env terms).2 s t := by
  obtain ⟨result, s₁, inner, last⟩ := yields_bind h
  obtain rfl := yields_emit last
  rw [literalNode, plain] at inner
  obtain ⟨middle, s₂, first, rest⟩ := yields_bind inner
  obtain ⟨-, rfl⟩ := yields_pure rest
  exact (elements_passage lexical each first).emit _

theorem cons_passage (lexical : level.Lexical) {head tail : Source} {note : Meta} {rest : Term}
    {u : Unit} (each : List.Forall₂ Source.Denotes (items ++ [head]) terms)
    (htail : tail.Denotes rest)
    (h : (literal level site source (.list (items ++ [.form "|" note [head, tail]]))).Yields limits s
      u t) :
    Passage scope env (Term.scanAll env (terms ++ [rest])).1 (Term.scanAll env (terms ++ [rest])).2
      s t := by
  obtain ⟨result, s₁, inner, last⟩ := yields_bind h
  obtain rfl := yields_emit last
  rw [literalNode, Source.splitTail_cons] at inner
  obtain ⟨middle, s₂, first, more⟩ := yields_bind inner
  rw [Term.scanAll_append]
  have tailed : ∀ env, Passage scope env (Term.scanAll env [rest]).1 (Term.scanAll env [rest]).2
      s₂ s₁ := fun env => (child_passage lexical htail more).trans (.refl s₁)
  exact ((elements_passage lexical each first).trans (tailed _)).emit _

theorem keywordList_passage (lexical : level.Lexical) {u : Unit}
    (each : List.Forall₂ Source.Denotes items terms)
    (pairs : ∀ item ∈ items, item.keywordPair?.isSome = true)
    (h : (literal level site source (.keywordList items)).Yields limits s u t) :
    Passage scope env (Term.scanAll env terms).1 (Term.scanAll env terms).2 s t := by
  obtain ⟨result, s₁, inner, last⟩ := yields_bind h
  obtain rfl := yields_emit last
  exact (entries_passage lexical each pairs inner).emit _

theorem tuple_passage (lexical : level.Lexical) {u : Unit}
    (each : List.Forall₂ Source.Denotes items terms)
    (h : (literal level site source (.tuple items)).Yields limits s u t) :
    Passage scope env (Term.scanAll env terms).1 (Term.scanAll env terms).2 s t := by
  obtain ⟨result, s₁, inner, last⟩ := yields_bind h
  obtain rfl := yields_emit last
  exact (elements_passage lexical each inner).emit _

/-! ## Symbols, operators, calls and blocks -/

theorem symbol_passage {name : String} {u : Unit}
    (h : (do
      readSymbol name site source.position
      emit ((nameNode site .variable name source).set "ignored" (isIgnored name))).Yields
        limits s u t) :
    Passage scope env env (Occurrence.free env [⟨name, source.position⟩]) s t := by
  obtain ⟨_, s₁, read, last⟩ := yields_bind h
  obtain rfl := yields_readSymbol read
  obtain rfl := yields_emit last
  exact (Passage.read name site source.position).emit _

theorem unaryOperator_passage (lexical : level.Lexical) {kind : NodeKind} {sign : String}
    {operand : Source} {u : Unit} (each : List.Forall₂ Source.Denotes [operand] terms)
    (h : (unaryOperator level site source kind sign operand).Yields limits s u t) :
    Passage scope env (Term.scanAll env terms).1 (Term.scanAll env terms).2 s t := by
  obtain ⟨middle, s₁, inner, last⟩ := yields_bind h
  obtain rfl := yields_emit last
  have operands : List.Forall₂ Source.Denotes (some operand).toList terms := each
  exact (optionalChild_passage lexical operands inner).emit _

theorem binaryOperator_passage (lexical : level.Lexical) {kind : NodeKind} {sign : String}
    {left right : Source} {u : Unit} (each : List.Forall₂ Source.Denotes [left, right] terms)
    (h : (binaryOperator level site source kind sign left right).Yields limits s u t) :
    Passage scope env (Term.scanAll env terms).1 (Term.scanAll env terms).2 s t := by
  obtain ⟨_, s₁, first, rest⟩ := yields_bind h
  obtain ⟨_, s₂, second, last⟩ := yields_bind rest
  obtain rfl := yields_emit last
  cases each with
  | cons hleft others =>
      cases others with
      | cons hright none =>
          cases none
          have before := lexical.expression hleft first scope env
          have after := lexical.expression hright second scope
          exact (before.trans ((after _).trans (.refl s₂))).emit _

theorem call_passage (lexical : level.Lexical) {kind : NodeKind} {name : String} {u : Unit}
    (each : List.Forall₂ Source.Denotes items terms)
    (h : (call level site source kind (.named name) items).Yields limits s u t) :
    Passage scope env (Term.scanAll env terms).1 (Term.scanAll env terms).2 s t := by
  obtain ⟨middle, s₁, first, rest⟩ := yields_bind h
  obtain ⟨rfl, -⟩ := yields_callee_named first
  obtain ⟨addresses, s₃, parts, last⟩ := yields_bind rest
  obtain rfl := yields_emit last
  exact (((Passage.refl s).emit _).trans (eachPart_passage lexical each parts)).emit _

theorem block_passage (lexical : level.Lexical) {u : Unit}
    (each : List.Forall₂ Source.Denotes items terms)
    (h : (block level site source items).Yields limits s u t) :
    Passage scope env (Term.scanAll env terms).1 (Term.scanAll env terms).2 s t := by
  obtain ⟨addresses, s₁, parts, last⟩ := yields_bind h
  obtain rfl := yields_emit last
  exact (eachPart_passage lexical each parts).emit _

/-! ## Patterns -/

variable {patterns : List PatternTerm} {bindings : Bindings}

/-- What patterns in a row collect, at one address or at several. -/
theorem foldPatterns_passage (lexical : level.Lexical)
    (each : List.Forall₂ Source.DenotesPattern items patterns) {result : List Address × Bindings}
    (h : (foldParts site role level.pattern index items bindings).Yields limits s result t) :
    Bindings.names result.2 = bindings.names ++ PatternTerm.boundAll patterns ∧
      ∀ scope env, Passage scope env env (Occurrence.free env (PatternTerm.pinnedAll patterns)) s t := by
  induction each generalizing index s bindings result with
  | nil =>
      obtain ⟨rfl, rfl⟩ := yields_foldParts_nil h
      exact ⟨(List.append_nil _).symm, fun _ _ => .refl s⟩
  | cons first _ ih =>
      obtain ⟨middle, addresses, u, part, rest, -⟩ := yields_foldParts_cons h
      obtain ⟨names, passage⟩ := lexical.pattern first part
      obtain ⟨names', passage'⟩ := ih rest
      refine ⟨?_, ?_⟩
      · rw [names', names, List.append_assoc]
        rfl
      · intro scope env
        rw [PatternTerm.pinnedAll, Occurrence.free_append]
        exact (passage scope env).trans (passage' scope env)

theorem foldlM_pattern_passage (lexical : level.Lexical)
    (each : List.Forall₂ Source.DenotesPattern items patterns) {found : Bindings}
    (h : (items.foldlM (fun bindings param => level.pattern site param bindings) bindings).Yields
      limits s found t) :
    found.names = bindings.names ++ PatternTerm.boundAll patterns ∧
      ∀ scope env, Passage scope env env (Occurrence.free env (PatternTerm.pinnedAll patterns)) s t := by
  induction each generalizing s bindings with
  | nil =>
      obtain ⟨rfl, rfl⟩ := yields_pure h
      exact ⟨(List.append_nil _).symm, fun _ _ => .refl s⟩
  | cons first _ ih =>
      rw [List.foldlM_cons] at h
      obtain ⟨middle, u, part, rest⟩ := yields_bind h
      obtain ⟨names, passage⟩ := lexical.pattern first part
      obtain ⟨names', passage'⟩ := ih rest
      refine ⟨?_, ?_⟩
      · rw [names', names, List.append_assoc]
        rfl
      · intro scope env
        rw [PatternTerm.pinnedAll, Occurrence.free_append]
        exact (passage scope env).trans (passage' scope env)

theorem patternElements_passage (lexical : level.Lexical)
    (each : List.Forall₂ Source.DenotesPattern items patterns) {found : Node × Bindings}
    (h : (patternElements level node items bindings).Yields limits s found t) :
    Bindings.names found.2 = bindings.names ++ PatternTerm.boundAll patterns ∧
      ∀ scope env, Passage scope env env (Occurrence.free env (PatternTerm.pinnedAll patterns)) s t := by
  obtain ⟨addresses, more, -, parts, rfl⟩ := yields_patternElements h
  exact foldPatterns_passage lexical each parts

/-- A tree written for a pattern collects what the pattern binds, and uses what it pins. -/
theorem patternStep_passage (lexical : level.Lexical) {sameDepth : Address → Source → Build Unit}
    {pattern : PatternTerm} {found : Bindings} (denotes : source.DenotesPattern pattern)
    (h : (patternStep level sameDepth site source bindings).Yields limits s found t) :
    found.names = bindings.names ++ pattern.bound ∧
      ∀ scope env, Passage scope env env (Occurrence.free env pattern.pinned) s t := by
  have run := yields_patternStep h
  cases denotes with
  | @symbol name note named ordinary =>
      have shape : (Source.symbol name note).pattern = .symbol name := by
        rw [Source.pattern, if_neg named, if_neg ordinary]
      rw [shape] at run
      cases run with
      | symbol => exact ⟨List.map_append .., fun _ _ => (Passage.refl s).emit _⟩
  | wildcard =>
      cases run with
      | wildcard => exact ⟨(List.append_nil _).symm, fun _ _ => (Passage.refl s).emit _⟩
  | @pin name outer note ordinary =>
      cases run with
      | pin _ inner =>
          refine ⟨(List.append_nil _).symm, fun scope env => ?_⟩
          exact (child_passage lexical (.symbol ordinary) inner).emit _
  | scalar scalar =>
      obtain ⟨shape, isLiteral, isScalar⟩ := Source.pattern_of_isScalar scalar
      rw [isLiteral] at run
      cases run with
      | literal inner => exact ⟨(List.append_nil _).symm, fun _ _ => scalar_passage isScalar inner⟩
  | tuple encoded each =>
      rw [Source.pattern_of_tuple? encoded] at run
      cases run with
      | tuple inner =>
          obtain ⟨names, passage⟩ := patternElements_passage lexical each inner
          exact ⟨names, fun scope env => (passage scope env).emit _⟩
  | list each =>
      rw [Source.pattern_of_list each] at run
      cases run with
      | list inner =>
          obtain ⟨names, passage⟩ := patternElements_passage lexical each inner
          exact ⟨names, fun scope env => (passage scope env).emit _⟩
  | cons each htail =>
      rw [Source.pattern, Source.splitTail_cons] at run
      cases run with
      | listTail inner tail =>
      obtain ⟨_, w, tailed, same⟩ := yields_bind tail
      obtain ⟨same, rfl⟩ := yields_pure same
      cases same
      obtain ⟨names, passage⟩ := patternElements_passage lexical each inner
      obtain ⟨names', passage'⟩ := lexical.pattern htail tailed
      refine ⟨?_, fun scope env => ?_⟩
      · rw [names', names, PatternTerm.bound, PatternTerm.boundAll_append, List.append_assoc]
        simp [PatternTerm.boundAll]
      · have whole := ((passage scope env).trans (passage' scope env)).emit (t := w)
        rw [PatternTerm.pinned, PatternTerm.pinnedAll_append, Occurrence.free_append]
        simpa [PatternTerm.pinnedAll] using whole _

/-! ## Matches, clauses and branches -/

/-- A match evaluates its value, then its pins, and then binds. -/
theorem matching_passage (lexical : level.Lexical) {sign : String} {left right : Source}
    {pattern : PatternTerm} {value : Term} {u : Unit} (hleft : left.DenotesPattern pattern)
    (hright : right.Denotes value)
    (h : (matching level site source sign left right).Yields limits s u t) :
    Passage scope env ((Term.matching pattern value).scan env).1
      ((Term.matching pattern value).scan env).2 s t := by
  obtain ⟨v, bindings, w, inner, matched, rfl⟩ := yields_matching h
  obtain ⟨names, pinned⟩ := lexical.pattern hleft matched
  have opened : Passage scope env env [] s { s with readLogs := ∅ :: s.readLogs } :=
    .quiet rfl rfl (forall₂_follows_refl _)
  have closed : ∀ env, Passage scope env env [] v { v with readLogs := v.readLogs.tail } :=
    fun env => .quiet rfl rfl (forall₂_follows_refl _)
  have evaluated := (opened.trans (lexical.expression hright inner scope env)).trans (closed _)
  have whole := (evaluated.trans ((pinned scope _).trans (.bindAll names (some v.logged)))).emit
  simp only [List.nil_append, List.append_nil] at whole
  exact whole _

/-- The head of a clause binds what its parameters bind before the guard is evaluated. -/
theorem clauseHead_passage (lexical : level.Lexical) {clause : Clause} {guards : List Term}
    {found : Node × List String}
    (heads : List.Forall₂ Source.DenotesPattern clause.params patterns)
    (hguard : List.Forall₂ Source.Denotes clause.guard.toList guards)
    (h : (clauseHead level node role clause).Yields limits s found t) :
    Passage scope env (Term.scanAll (PatternTerm.boundAll patterns ++ env) guards).1
      (Occurrence.free env (PatternTerm.pinnedAll patterns) ++
        (Term.scanAll (PatternTerm.boundAll patterns ++ env) guards).2) s t := by
  obtain ⟨middle, bindings, u, final, params, guard, -⟩ := yields_clauseHead h
  obtain ⟨names, pinned⟩ : Bindings.names bindings = PatternTerm.boundAll patterns ∧
      ∀ scope env, Passage scope env env
        (Occurrence.free env (PatternTerm.pinnedAll patterns)) s u := by
    by_cases ordered : role.isOrdered = true
    · obtain ⟨addresses, more, inner, same⟩ := yields_parameters_of_ordered ordered params
      cases same
      exact foldPatterns_passage lexical heads inner
    · obtain ⟨more, inner, same⟩ := yields_parameters_of_not_ordered ordered params
      cases same
      exact foldlM_pattern_passage lexical heads inner
  have headed := (pinned scope env).trans (.bindAll names none)
  rw [List.append_nil] at headed
  exact headed.trans (optionalChild_passage lexical hguard guard)

/-- The head of a clause and its body, with nothing that matters between them. -/
theorem clause_passage (lexical : level.Lexical) {clause : Clause} {term : ClauseTerm}
    {found : Node × List String} {role' : Role} {u v : Session} (denotes : source.DenotesClause term)
    (split : Clause.ofSource? source = some clause)
    (head : (clauseHead level node role clause).Yields limits s found u)
    (between : ∀ env, Passage scope env env [] u v)
    (body : (optionalChild level found.1 role' clause.body).Yields limits v result t) :
    ∃ after, Passage scope env after (term.scan env) s t := by
  obtain ⟨patterns, guards, steps, rfl, heads, hguard, hbody⟩ := denotes.split split
  have headed : Passage scope env _ _ s u := clauseHead_passage lexical heads hguard head
  have whole := (headed.trans (between _)).trans (optionalChild_passage lexical hbody body)
  rw [List.append_nil, List.append_assoc] at whole
  rw [ClauseTerm.scan, Term.scanAll_append]
  exact ⟨_, whole⟩

/-- What a clause of an anonymous function binds is gone at its end. -/
theorem closureClause_passage (lexical : level.Lexical) {clause : Clause} {term : ClauseTerm}
    {u : Unit} (denotes : source.DenotesClause term) (split : Clause.ofSource? source = some clause)
    (h : (closureClause level site clause).Yields limits s u t) :
    Passage scope env env (term.scan env) s t := by
  obtain ⟨middle, names, v, final, w, head, body, rfl⟩ := yields_closureClause h
  have noted : ∀ env, Passage scope env env [] v (v.boundByClosure names) := fun env =>
    .quiet (v.boundByClosure_scopes names) (v.boundByClosure_current names)
      (v.boundByClosure_follows names)
  obtain ⟨after, whole⟩ := clause_passage lexical denotes split head noted body
  exact (whole.emit _).framed

/-- So is what a clause of a `case` binds. -/
theorem branchClause_passage (lexical : level.Lexical) {clause : Clause} {term : ClauseTerm}
    {u : Unit} (denotes : source.DenotesClause term) (split : Clause.ofSource? source = some clause)
    (h : (branchClause level site clause).Yields limits s u t) :
    Passage scope env env (term.scan env) s t := by
  obtain ⟨middle, names, v, final, w, head, body, rfl⟩ := yields_branchClause h
  obtain ⟨after, whole⟩ := clause_passage lexical denotes split head (fun _ => .refl v) body
  exact (whole.emit _).framed

/-- Clauses start from the same names, each of them. -/
theorem eachClause_passage {clauses : List Clause} {terms : List ClauseTerm}
    {build : Address → Clause → Build Unit} {addresses : List Address}
    (step : ∀ {source term clause address s t}, Source.DenotesClause source term →
      Clause.ofSource? source = some clause → (build address clause).Yields limits s () t →
      Passage scope env env (term.scan env) s t)
    (each : List.Forall₂ Source.DenotesClause items terms)
    (split : List.Forall₂ (fun item clause => Clause.ofSource? item = some clause) items clauses)
    (h : (eachPart site role build clauses).Yields limits s addresses t) :
    Passage scope env env (ClauseTerm.scanEach env terms) s t := by
  replace h := yields_eachPart h
  generalize 0 = index at h
  induction each generalizing index s addresses clauses with
  | nil =>
      cases split
      obtain ⟨-, rfl⟩ := yields_foldParts_nil h
      exact .refl s
  | cons first _ ih =>
      cases split with
      | cons here others =>
          obtain ⟨_, addresses, u, part, rest, -⟩ := yields_foldParts_cons h
          exact (step first here part).trans (ih others (index + 1) rest)

theorem branchClauses_passage (lexical : level.Lexical) {terms : List ClauseTerm}
    (each : List.Forall₂ Source.DenotesClause items terms)
    (h : (branchClauses level node role items).Yields limits s result t) :
    Passage scope env env (ClauseTerm.scanEach env terms) s t := by
  obtain ⟨clauses, addresses, split, -, -, parts, -⟩ := yields_branchClauses h
  refine eachClause_passage ?_ each split parts
  intro source term clause address s t denotes split built
  exact branchClause_passage lexical denotes split built

theorem branch_passage (lexical : level.Lexical) {source : Option Source}
    (each : List.Forall₂ Source.Denotes source.toList terms)
    (h : (branch level node role source).Yields limits s result t) :
    Passage scope env env (Term.scanEach env terms) s t := by
  cases source with
  | none =>
      cases each
      obtain ⟨-, rfl⟩ := yields_pure h
      exact .refl s
  | some source =>
      obtain ⟨u, inner, rfl⟩ := yields_inScope h
      cases each with
      | cons first rest =>
          cases rest
          have whole : Passage scope env _ _ (s.enter .block) u := child_passage lexical first inner
          rw [Term.scanEach, Term.scanEach, List.append_nil]
          exact whole.framed

theorem conditional_passage (lexical : level.Lexical) {test options body : Source} {condition : Term}
    {u : Unit} (htest : test.Denotes condition) (hasBody : options.keyword? "do" = some body)
    (each : List.Forall₂ Source.Denotes (body :: (options.keyword? "else").toList) terms)
    (h : (conditional level site source false test options).Yields limits s u t) :
    Passage scope env ((Term.conditional condition terms).scan env).1
      ((Term.conditional condition terms).scan env).2 s t := by
  obtain ⟨n₁, s₁, n₂, s₂, n₃, s₃, tested, first, second, rfl⟩ := yields_conditional h
  rw [hasBody] at first
  cases each with
  | @cons _ term _ others hbody hothers =>
      have here : List.Forall₂ Source.Denotes (some body).toList [term] := .cons hbody .nil
      have tested' : Passage scope env _ _ s s₁ := child_passage lexical htest tested
      have whole := ((tested'.trans (branch_passage lexical here first)).trans
        (branch_passage lexical hothers second)).emit
      simp only [Term.scanEach, List.append_nil, List.append_assoc] at whole
      exact whole _

theorem case_passage (lexical : level.Lexical) {value options body : Source} {subject : Term}
    {clauses : List ClauseTerm} {u : Unit} (hvalue : value.Denotes subject)
    (hasBody : options.keyword? "do" = some body)
    (each : List.Forall₂ Source.DenotesClause (clauseItems (some body)) clauses)
    (h : (caseExpression level site source value options).Yields limits s u t) :
    Passage scope env ((Term.select subject clauses).scan env).1
      ((Term.select subject clauses).scan env).2 s t := by
  obtain ⟨n₁, s₁, valued, rest⟩ := yields_bind h
  obtain ⟨n₂, s₂, branches, last⟩ := yields_bind rest
  obtain rfl := yields_emit last
  rw [hasBody] at branches
  have before : Passage scope env _ _ s s₁ := child_passage lexical hvalue valued
  exact (before.trans (branchClauses_passage lexical each branches)).emit _

/-! ## Closures -/

/-- The clauses of an anonymous function pass inside of its frame, and then it is reported. -/
theorem anonymousFunction_clauses (lexical : level.Lexical) {terms : List ClauseTerm} {u : Unit}
    (each : List.Forall₂ Source.DenotesClause items terms)
    (h : (anonymousFunction level site source items).Yields limits s u t) :
    ∃ v opened others report final,
      (∀ scope env, Passage scope env env (ClauseTerm.scanEach env terms) (s.openClosure site) v) ∧
      v.closures = opened :: others ∧ opened.enclosing = s.current ∧
      opened.tracker.report v.scopes opened.enclosing limits = .ok report ∧
      t = (v.close opened.enclosing others report).emit final := by
  obtain ⟨clauses, arity, addresses, v, w, final, split, -, parts, closed, rfl⟩ :=
    yields_anonymousFunction h
  have passage : ∀ scope env,
      Passage scope env env (ClauseTerm.scanEach env terms) (s.openClosure site) v := by
    intro scope env
    refine eachClause_passage ?_ each split parts
    intro source term clause address s t denotes split built
    exact closureClause_passage lexical denotes split built
  obtain ⟨moments, follows, -⟩ := (passage .root []).passed
  generalize top : v.closures = closures at follows
  cases follows with
  | @cons _ opened _ others head rest =>
      obtain ⟨report, reported, -, rfl⟩ := yields_closeClosure top closed
      exact ⟨v, opened, others, report, final, passage, top, head.1, reported, rfl⟩

theorem anonymousFunction_passage (lexical : level.Lexical) {terms : List ClauseTerm} {u : Unit}
    (each : List.Forall₂ Source.DenotesClause items terms)
    (h : (anonymousFunction level site source items).Yields limits s u t) :
    Passage scope env env (ClauseTerm.scanEach env terms) s t := by
  obtain ⟨v, opened, others, report, final, passage, top, enclosing, -, rfl⟩ :=
    anonymousFunction_clauses lexical each h
  have closed : Passage scope env env _ s (v.close opened.enclosing others report) :=
    (passage scope env).closed top rfl enclosing rfl
  exact closed.emit final

/-! ## All expressions -/

theorem localCall_passage (lexical : level.Lexical) {name : String} {u : Unit}
    (isCall : Source.IsLocalCall name items) (each : List.Forall₂ Source.Denotes items terms)
    (h : (localCall level site source name items).Yields limits s u t) :
    Passage scope env (Term.scanAll env terms).1 (Term.scanAll env terms).2 s t := by
  have ordinary := isCall.ordinary
  simp only [Source.specialForms, List.mem_cons, List.not_mem_nil, or_false, not_or] at ordinary
  have noDefinition : ((name = "def" || name = "defp") && !items.isEmpty) = false := by
    simp [ordinary]
  have noModule : name ≠ "defmodule" := by
    simp [ordinary]
  simp only [localCall, noDefinition, Bool.false_eq_true, if_false, if_neg noModule] at h
  exact call_passage lexical each h

/-- Every way of writing a term is built as the recursion over terms says. -/
theorem expressionStep_passage (lexical : level.Lexical) {inner : Level} {term : Term} {u : Unit}
    (denotes : source.Denotes term)
    (h : (expressionStep level inner site source).Yields limits s u t) :
    Passage scope env (term.scan env).1 (term.scan env).2 s t := by
  cases denotes with
  | @symbol name note ordinary =>
      have shape : (Source.symbol name note).expression = .symbol name :=
        if_neg ordinary
      rw [expressionStep, shape] at h
      exact symbol_passage h
  | scalar scalar =>
      obtain ⟨shape, isLiteral, isScalar⟩ := Source.literal?_of_isScalar scalar
      rw [expressionStep, Source.expression_of_literal isLiteral] at h
      exact scalar_passage isScalar h
  | tuple encoded each =>
      have isLiteral := Source.literal?_of_tuple? encoded
      rw [expressionStep, Source.expression_of_literal isLiteral] at h
      exact tuple_passage lexical each h
  | list each =>
      cases Source.expression_of_list each with
      | inl plain =>
          rw [expressionStep, plain.1] at h
          exact list_passage lexical each plain.2 h
      | inr keywords =>
          rw [expressionStep, keywords.1] at h
          exact keywordList_passage lexical each keywords.2 h
  | cons each htail =>
      rw [expressionStep, Source.expression_of_cons] at h
      exact cons_passage lexical each htail h
  | unary known each =>
      obtain ⟨category, shape⟩ := Source.expression_of_unary? known
      rw [expressionStep, shape] at h
      exact unaryOperator_passage lexical each h
  | binary known noMatch each =>
      obtain ⟨category, other, shape⟩ := Source.expression_of_binary? known noMatch
      rw [expressionStep, shape] at h
      cases category <;> first
        | exact absurd rfl other
        | exact binaryOperator_passage lexical each h
  | call isCall each =>
      rw [expressionStep, Source.expression_of_call isCall] at h
      exact localCall_passage lexical isCall each h
  | block each =>
      rw [expressionStep, Source.expression_of_block] at h
      exact block_passage lexical each h
  | matching hleft hright =>
      rw [expressionStep, Source.expression_of_matching] at h
      exact matching_passage lexical hleft hright h
  | conditional htest hasBody each =>
      rw [expressionStep, Source.expression_of_conditional hasBody] at h
      exact conditional_passage lexical htest hasBody each h
  | select hvalue hasBody each =>
      rw [expressionStep, Source.expression_of_case hasBody] at h
      exact case_passage lexical hvalue hasBody each h
  | closure each =>
      rw [expressionStep, Source.expression_of_closure] at h
      exact anonymousFunction_passage lexical each h

end Build

namespace Level

theorem bottom_lexical : bottom.Lexical :=
  ⟨fun _ h => absurd h Build.not_yields_tooDeep, fun _ h => absurd h Build.not_yields_tooDeep⟩

theorem above_lexical {room : Nat} {level inner : Level} (lexical : level.Lexical) :
    (above room (fun _ => level) (fun _ => inner)).Lexical :=
  ⟨fun denotes h _ _ => Build.expressionStep_passage lexical denotes h,
    fun denotes h => Build.patternStep_passage lexical denotes h⟩

/-- Every level is lexical, by induction on the levels below. -/
theorem ofRoom_lexical : ∀ room, (ofRoom room).Lexical
  | 0 => bottom_lexical
  | 1 => above_lexical bottom_lexical
  | room + 2 => above_lexical (ofRoom_lexical (room + 1))

end Level

end SyntaxGraph
