import Mathlib.Data.List.Forall2
import SyntaxGraph.Build.Expression
import SyntaxGraph.Proofs.Routes
import SyntaxGraph.Proofs.Yields

/-!
# What a builder that succeeds has done

One lemma per builder that takes several steps. A success comes apart into the successes
of the parts, in their order and each from the session where the last one ended, and the
session at the end is given in terms of them, with the node that was emitted last. A check
that was passed is stated as the fact it checks.

What is proved of builders cites these lemmas and unfolds no builder. Only where a
builder goes by cases on its tree, and does little in each of them, is it opened in place.
-/

namespace SyntaxGraph

namespace Build

section

variable (limits : Limits) (level : Level) (sameDepth : Address → Source → Build Unit) (site : Address)
  (source : Source) (bindings : Bindings) (s : Session)

/-- How a pattern of each shape is built at `site`, from the session `s` on and with `bindings`
collected before it. The indices are its shape, the bindings that are handed on and the session at
the end. -/
inductive PatternRun : Pattern → Bindings → Session → Prop
  | literal {shape t} (built : (Build.literal level site source shape).Yields limits s () t) :
      PatternRun (.literal shape) bindings t
  | value {t} (built : (sameDepth site source).Yields limits s () t) : PatternRun .value bindings t
  | signed {number kind value} (stated : signedNumber? number = some (kind, value)) :
      PatternRun (.signed number) bindings (s.emit ((Node.make site kind)
        |>.withTags [.literal, .pattern]
        |>.set "value" value
        |>.withPosition source.position))
  | symbol {name} (fresh : bindings.binds name = false) :
      PatternRun (.symbol name) (bindings ++ [⟨name, some site, source.position⟩])
        (s.emit ((patternNode site .variablePattern source)
          |>.withTags [.binding]
          |>.set "name" name
          |>.set "ignored" (isIgnored name)))
  | wildcard : PatternRun .wildcard bindings (s.emit (patternNode site .wildcardPattern source))
  | pin {pinned node v} {name : String} (named : pinned.symbol? = some name)
      (built : (level.child ((patternNode site .pinPattern source).set "name" name) .pinned
        pinned).Yields limits s node v) :
      PatternRun (.pin pinned) bindings (v.emit node)
  | tuple {items node found v}
      (built : (patternElements level (patternNode site .tuplePattern source) items bindings).Yields
        limits s (node, found) v) :
      PatternRun (.tuple items) found (v.emit node)
  | list {items node found v}
      (built : (patternElements level (patternNode site .listPattern source) items bindings).Yields
        limits s (node, found) v) :
      PatternRun (.list items none) found (v.emit node)
  | listTail {items tail middle more v node found w}
      (built : (patternElements level (patternNode site .listPattern source) items bindings).Yields
        limits s (middle, more) v)
      (tailed : (patternChild level middle .tail tail more).Yields limits v (node, found) w) :
      PatternRun (.list items (some tail)) found (w.emit node)
  | map {items node found v}
      (built : (patternEntries level (patternNode site .mapPattern source) items bindings).Yields
        limits s (node, found) v) :
      PatternRun (.map items) found (v.emit node)
  | struct {typeRef fields typed more v named node found w}
      (built : (patternChild level (patternNode site .structPattern source) .referencedType typeRef
        bindings).Yields limits s (typed, more) v)
      (name : named = match (typeRef.argsOf? "__aliases__").bind moduleText? with
        | some name => typed.set "type_name" name
        | none => typed)
      (filled : (patternEntries level named fields more).Yields limits v (node, found) w) :
      PatternRun (.struct typeRef fields) found (w.emit node)
  | binary {segments node found sizes v}
      (built : (Segment.buildAll level.room level.pattern (patternNode site .binaryPattern source)
        segments bindings).Yields limits s (node, found, sizes) v) :
      PatternRun (.binary segments) found
        (((sizes.filter fun size => !found.binds size.1).foldl
          (fun s read => s.readSymbol read.1 read.2 source.position) v).emit node)
  | both {left right middle more v node found w}
      (built : (patternChild level (patternNode site .asPattern source) .inner (asSides left right).1
        bindings).Yields limits s (middle, more) v)
      (named : (patternChild level middle .boundAs (asSides left right).2 more).Yields limits v
        (node, found) w) :
      PatternRun (.both left right) found (w.emit node)
  | textHead {value : String} {rest node found v}
      (built : (patternChild level ((patternNode site .stringPrefixPattern source).set "prefix" value)
        .tail rest bindings).Yields limits s (node, found) v) :
      PatternRun (.textHead (.text value) rest) found (v.emit node)
  | fallback {pattern value middle found v node w}
      (built : (patternChild level (patternNode site .defaultArgument source) .pattern pattern
        bindings).Yields limits s (middle, found) v)
      (valued : (level.child middle .defaultValue value).Yields limits v node w) :
      PatternRun (.fallback pattern value) found (w.emit node)

end

end Build

variable {limits : Limits} {level inner : Level} {node result : Node} {role : Role}
  {site : Address} {source : Source} {items : List Source} {bindings found : Bindings}
  {s t : Session} {u : Unit}

namespace Build

/-- A binding is added only if its name is new. -/
theorem yields_add {binding : Binding} (h : (bindings.add binding site).Yields limits s found t) :
    bindings.binds binding.name = false ∧ found = bindings ++ [binding] ∧ s = t := by
  unfold Bindings.add at h
  split at h
  · exact absurd h not_yields_malformed
  · rename_i fresh
    obtain ⟨rfl, rfl⟩ := yields_pure h
    exact ⟨by simpa using fresh, rfl, rfl⟩

/-- The node of a pattern is emitted last, and the bindings are handed on. -/
theorem yields_emitPattern {more : Bindings}
    (h : (do emit node; return more : Build Bindings).Yields limits s found t) :
    found = more ∧ t = s.emit node := by
  obtain ⟨_, v, emitted, last⟩ := yields_bind h
  obtain rfl := yields_emit emitted
  obtain ⟨rfl, rfl⟩ := yields_pure last
  exact ⟨rfl, rfl⟩

/-! ## Literals and calls -/

/-- The elements of a collection are built one by one, and its node gets them all. -/
theorem yields_elements (h : (elements level node items).Yields limits s result t) :
    ∃ addresses, items.length ≤ limits.maxFanout ∧
      (eachPart node.address .element level.expression items).Yields limits s addresses t ∧
      result = ((node.declare .element).relateAll .element addresses).set "size" items.length := by
  obtain ⟨_, v, checked, rest⟩ := yields_bind h
  obtain ⟨few, rfl⟩ := yields_checkFanout checked
  obtain ⟨addresses, w, parts, last⟩ := yields_bind rest
  obtain ⟨rfl, rfl⟩ := yields_pure last
  exact ⟨addresses, few, parts, rfl⟩

/-- So are its entries. -/
theorem yields_entries (h : (entries level node items).Yields limits s result t) :
    ∃ addresses, items.length ≤ limits.maxFanout ∧
      (eachPart node.address .entry (entry level) items).Yields limits s addresses t ∧
      result = ((node.declare .entry).relateAll .entry addresses).set "size" items.length := by
  obtain ⟨_, v, checked, rest⟩ := yields_bind h
  obtain ⟨few, rfl⟩ := yields_checkFanout checked
  obtain ⟨addresses, w, parts, last⟩ := yields_bind rest
  obtain ⟨rfl, rfl⟩ := yields_pure last
  exact ⟨addresses, few, parts, rfl⟩

/-- The key of an entry is built before its value. -/
theorem yields_entry {key value : Source} (isEntry : source.mapEntry? = some (key, value))
    (h : (entry level site source).Yields limits s u t) :
    ∃ v w, (level.expression (site.child Role.key.label) key).Yields limits s () v ∧
      (level.expression (site.child Role.value.label) value).Yields limits v () w ∧
      t = w.emit ((Node.make site .mapEntry)
        |>.withTags [.composite]
        |>.relate .key (site.child Role.key.label)
        |>.relate .value (site.child Role.value.label)
        |>.withPosition source.position) := by
  rw [entry, isEntry] at h
  obtain ⟨_, v, keyed, rest⟩ := yields_bind h
  obtain ⟨_, w, valued, last⟩ := yields_bind rest
  obtain rfl := yields_emit last
  exact ⟨v, w, keyed, valued, rfl⟩

/-- A name that is called is set on the call, and a reference to it is emitted. -/
theorem yields_callee_named {name : String} {arity : Nat}
    (h : (callee level node (.named name) arity).Yields limits s result t) :
    t = s.emit (functionReference (node.address.child Role.callee.label) none name arity) ∧
      result = (node.set "name" name).relate .callee (node.address.child Role.callee.label) := by
  obtain ⟨_, v, emitted, last⟩ := yields_bind h
  obtain rfl := yields_emit emitted
  obtain ⟨rfl, rfl⟩ := yields_pure last
  exact ⟨rfl, rfl⟩

/-- A receiver is built before the reference to the name that is called on it. -/
theorem yields_callee_remote {name : String} {arity : Nat}
    (h : (callee level node (.remote source name) arity).Yields limits s result t) :
    ∃ middle v, (receiver level (node.set "name" name) source).Yields limits s middle v ∧
      t = v.emit (functionReference (node.address.child Role.callee.label) (receiverModule? source)
        name arity) ∧
      result = middle.relate .callee (node.address.child Role.callee.label) := by
  obtain ⟨middle, v, received, rest⟩ := yields_bind h
  obtain ⟨_, w, emitted, last⟩ := yields_bind rest
  obtain rfl := yields_emit emitted
  obtain ⟨rfl, rfl⟩ := yields_pure last
  exact ⟨middle, v, received, rfl, rfl⟩

/-! ## Heads of clauses -/

/-- Splitting gives one clause per tree and builds nothing. -/
theorem yields_splitClauses {label : String} {what : Malformation} {index : Nat}
    {clauses : List Clause}
    (h : (splitClauses site label what index items).Yields limits s clauses t) :
    s = t ∧ List.Forall₂ (fun item clause => Clause.ofSource? item = some clause) items clauses := by
  induction items generalizing index clauses with
  | nil =>
      obtain ⟨rfl, rfl⟩ := yields_pure h
      exact ⟨rfl, .nil⟩
  | cons item items ih =>
      unfold splitClauses at h
      split at h
      · exact absurd h not_yields_malformed
      · rename_i clause found
        obtain ⟨rest, u, later, last⟩ := yields_bind h
        obtain ⟨rfl, rfl⟩ := yields_pure last
        obtain ⟨rfl, each⟩ := ih later
        exact ⟨rfl, .cons found each⟩

/-- Where every tree is read as something, that is what is read among the trees. -/
theorem filterMap_of_forall₂ {α β : Type} {f : α → Option β} {xs : List α} {ys : List β}
    (each : List.Forall₂ (fun x y => f x = some y) xs ys) : xs.filterMap f = ys := by
  induction each with
  | nil => rfl
  | cons found _ ih => rw [List.filterMap_cons_some found, ih]

/-- The common number of parameters is that of each clause. -/
theorem yields_commonArity {arities : List Nat} {arity : Nat}
    (h : (commonArity site arities).Yields limits s arity t) : s = t ∧ ∀ n ∈ arities, n = arity := by
  cases arities with
  | nil => exact ⟨(yields_pure h).2, fun _ member => (nomatch member)⟩
  | cons first rest =>
      simp only [commonArity] at h
      split at h
      · rename_i equal
        obtain ⟨rfl, rfl⟩ := yields_pure h
        refine ⟨rfl, fun n member => ?_⟩
        rcases List.mem_cons.mp member with same | later
        · exact same
        · exact beq_iff_eq.mp (List.all_eq_true.mp equal n later)
      · exact absurd h not_yields_throw

/-- In an ordered role the parameters have an address each. -/
theorem yields_parameters_of_ordered (ordered : role.isOrdered = true) {head : Node × Bindings}
    (h : (parameters level node role items).Yields limits s head t) :
    ∃ addresses more,
      (foldParts node.address role level.pattern 0 items []).Yields limits s (addresses, more) t ∧
      head = ((node.declare role).relateAll role addresses, more) := by
  rw [parameters, if_pos ordered] at h
  obtain ⟨⟨addresses, more⟩, v, parts, last⟩ := yields_bind h
  obtain ⟨rfl, rfl⟩ := yields_pure last
  exact ⟨addresses, more, parts, rfl⟩

/-- In any other role they share one. -/
theorem yields_parameters_of_not_ordered (shared : ¬ role.isOrdered = true) {head : Node × Bindings}
    (h : (parameters level node role items).Yields limits s head t) :
    ∃ more,
      (items.foldlM (fun bindings param => level.pattern (node.address.child role.label) param bindings)
        []).Yields limits s more t ∧
      head = (node.relateAll role (items.map fun _ => node.address.child role.label), more) := by
  rw [parameters, if_neg shared] at h
  obtain ⟨more, v, parts, last⟩ := yields_bind h
  obtain ⟨rfl, rfl⟩ := yields_pure last
  exact ⟨more, parts, rfl⟩

/-- The parameters of a clause enter the frame before its guard is built. -/
theorem yields_clauseHead {clause : Clause} {head : Node × List String}
    (h : (clauseHead level node role clause).Yields limits s head t) :
    ∃ middle bindings v final,
      (parameters level node role clause.params).Yields limits s (middle, bindings) v ∧
      (optionalChild level middle .guard clause.guard).Yields limits
        (bindings.foldl (fun s binding => s.bindSymbol none binding) v) final t ∧
      head = (final, bindings.names) := by
  obtain ⟨⟨middle, bindings⟩, v, params, rest⟩ := yields_bind h
  obtain ⟨_, w, bound, rest⟩ := yields_bind rest
  obtain rfl := yields_bindAll bound
  obtain ⟨final, x, guarded, last⟩ := yields_bind rest
  obtain ⟨rfl, rfl⟩ := yields_pure last
  exact ⟨middle, bindings, v, final, params, guarded, rfl⟩

/-! ## Patterns -/

/-- The elements of a pattern are built one by one, each with what those before it bind. -/
theorem yields_patternElements {made : Node × Bindings}
    (h : (patternElements level node items bindings).Yields limits s made t) :
    ∃ addresses more, items.length ≤ limits.maxFanout ∧
      (foldParts node.address .element level.pattern 0 items bindings).Yields limits s (addresses, more) t ∧
      made = ((node.declare .element).relateAll .element addresses, more) := by
  obtain ⟨_, v, checked, rest⟩ := yields_bind h
  obtain ⟨few, rfl⟩ := yields_checkFanout checked
  obtain ⟨⟨addresses, more⟩, w, parts, last⟩ := yields_bind rest
  obtain ⟨rfl, rfl⟩ := yields_pure last
  exact ⟨addresses, more, few, parts, rfl⟩

/-- So are its entries. -/
theorem yields_patternEntries {made : Node × Bindings}
    (h : (patternEntries level node items bindings).Yields limits s made t) :
    ∃ addresses more, items.length ≤ limits.maxFanout ∧
      (foldParts node.address .entry (patternEntry level) 0 items bindings).Yields limits s
        (addresses, more) t ∧
      made = ((node.declare .entry).relateAll .entry addresses, more) := by
  obtain ⟨_, v, checked, rest⟩ := yields_bind h
  obtain ⟨few, rfl⟩ := yields_checkFanout checked
  obtain ⟨⟨addresses, more⟩, w, parts, last⟩ := yields_bind rest
  obtain ⟨rfl, rfl⟩ := yields_pure last
  exact ⟨addresses, more, few, parts, rfl⟩

/-- The key of an entry binds nothing, and its value is built after it. -/
theorem yields_patternEntry (h : (patternEntry level site source bindings).Yields limits s found t) :
    ∃ key value v w, source.mapEntry? = some (key, value) ∧
      (level.pattern (site.child Role.key.label) key []).Yields limits s [] v ∧
      (level.pattern (site.child Role.value.label) value bindings).Yields limits v found w ∧
      t = w.emit ((Node.make site .mapEntry)
        |>.withTags [.composite, .pattern]
        |>.relate .key (site.child Role.key.label)
        |>.relate .value (site.child Role.value.label)
        |>.withPosition source.position) := by
  unfold patternEntry at h
  split at h
  · exact absurd h not_yields_malformed
  · rename_i key value isEntry
    obtain ⟨keys, v, keyed, rest⟩ := yields_bind h
    cases keys with
    | cons _ _ =>
        obtain ⟨_, _, failed, -⟩ := yields_bind rest
        exact absurd failed not_yields_malformed
    | nil =>
        obtain ⟨more, w, valued, rest⟩ := yields_bind rest
        obtain ⟨rfl, rfl⟩ := yields_emitPattern rest
        exact ⟨key, value, v, w, isEntry, keyed, valued, rfl⟩

/-- A pattern that is built is built the way its shape says. -/
theorem yields_patternStep {sameDepth : Address → Source → Build Unit}
    (h : (patternStep level sameDepth site source bindings).Yields limits s found t) :
    PatternRun limits level sameDepth site source bindings s source.pattern found t := by
  unfold patternStep at h
  generalize source.pattern = shape at h ⊢
  cases shape with
  | literal shape =>
      obtain ⟨_, v, built, last⟩ := yields_bind h
      obtain ⟨rfl, rfl⟩ := yields_pure last
      exact .literal built
  | value =>
      obtain ⟨_, v, built, last⟩ := yields_bind h
      obtain ⟨rfl, rfl⟩ := yields_pure last
      exact .value built
  | signed number =>
      dsimp only at h
      split at h
      · exact absurd h not_yields_malformed
      · rename_i kind value stated
        obtain ⟨rfl, rfl⟩ := yields_emitPattern h
        exact .signed stated
  | symbol name =>
      obtain ⟨more, v, added, rest⟩ := yields_bind h
      obtain ⟨fresh, rfl, rfl⟩ := yields_add added
      obtain ⟨rfl, rfl⟩ := yields_emitPattern rest
      exact .symbol fresh
  | wildcard =>
      obtain ⟨rfl, rfl⟩ := yields_emitPattern h
      exact .wildcard
  | pin pinned =>
      dsimp only at h
      split at h
      · exact absurd h not_yields_malformed
      · rename_i name named
        obtain ⟨node, v, built, rest⟩ := yields_bind h
        obtain ⟨rfl, rfl⟩ := yields_emitPattern rest
        exact .pin named built
  | tuple items =>
      obtain ⟨⟨node, more⟩, v, built, rest⟩ := yields_bind h
      obtain ⟨rfl, rfl⟩ := yields_emitPattern rest
      exact .tuple built
  | list items tail =>
      obtain ⟨⟨middle, more⟩, v, built, rest⟩ := yields_bind h
      cases tail with
      | none =>
          obtain ⟨_, w, same, rest⟩ := yields_bind rest
          obtain ⟨rfl, rfl⟩ := yields_pure same
          obtain ⟨rfl, rfl⟩ := yields_emitPattern rest
          exact .list built
      | some tail =>
          obtain ⟨⟨node, final⟩, w, tailed, rest⟩ := yields_bind rest
          obtain ⟨rfl, rfl⟩ := yields_emitPattern rest
          exact .listTail built tailed
  | map items =>
      obtain ⟨⟨node, more⟩, v, built, rest⟩ := yields_bind h
      obtain ⟨rfl, rfl⟩ := yields_emitPattern rest
      exact .map built
  | struct typeRef fields =>
      obtain ⟨⟨typed, more⟩, v, built, rest⟩ := yields_bind h
      obtain ⟨⟨node, final⟩, w, filled, rest⟩ := yields_bind rest
      obtain ⟨rfl, rfl⟩ := yields_emitPattern rest
      exact .struct built rfl filled
  | binary segments =>
      obtain ⟨⟨node, more, sizes⟩, v, built, rest⟩ := yields_bind h
      obtain ⟨_, w, read, rest⟩ := yields_bind rest
      obtain rfl := yields_readAll read
      obtain ⟨rfl, rfl⟩ := yields_emitPattern rest
      exact .binary built
  | both left right =>
      obtain ⟨⟨middle, more⟩, v, built, rest⟩ := yields_bind h
      obtain ⟨⟨node, final⟩, w, named, rest⟩ := yields_bind rest
      obtain ⟨rfl, rfl⟩ := yields_emitPattern rest
      exact .both built named
  | textHead head rest =>
      dsimp only at h
      split at h
      · obtain ⟨⟨node, more⟩, v, built, rest⟩ := yields_bind h
        obtain ⟨rfl, rfl⟩ := yields_emitPattern rest
        exact .textHead built
      · exact absurd h not_yields_malformed
  | fallback pattern value =>
      obtain ⟨⟨middle, more⟩, v, built, rest⟩ := yields_bind h
      obtain ⟨node, w, valued, rest⟩ := yields_bind rest
      obtain ⟨rfl, rfl⟩ := yields_emitPattern rest
      exact .fallback built valued
  | unknown tag => exact absurd h not_yields_malformed

/-! ## Branches -/

theorem yields_singleClauses {clauses : List Clause}
    (h : (singleClauses site role items).Yields limits s clauses t) :
    s = t ∧ (∀ clause ∈ clauses, clause.arity = 1) ∧
      List.Forall₂ (fun item clause => Clause.ofSource? item = some clause) items clauses := by
  obtain ⟨found, u, split, rest⟩ := yields_bind h
  obtain ⟨rfl, each⟩ := yields_splitClauses split
  obtain ⟨arity, v, common, rest⟩ := yields_bind rest
  obtain ⟨rfl, equal⟩ := yields_commonArity common
  dsimp only at rest
  split at rest
  · obtain ⟨_, _, failed, -⟩ := yields_bind rest
    exact absurd failed not_yields_throw
  · rename_i single
    obtain ⟨rfl, rfl⟩ := yields_pure rest
    refine ⟨rfl, fun clause member => ?_, each⟩
    have one : arity = 1 := by
      have occupied : found.isEmpty = false := by
        cases found with
        | nil => exact (nomatch member)
        | cons _ _ => rfl
      simpa [occupied] using single
    rw [equal clause.arity (List.mem_map.mpr ⟨clause, member, rfl⟩), one]

/-- A clause of a `case` has a frame of its own, in which its head and its body are built. -/
theorem yields_branchClause {clause : Clause} {u : Unit}
    (h : (branchClause level site clause).Yields limits s u t) :
    ∃ middle names v final w,
      (clauseHead level (((Node.make site .caseClause).withTags [.controlFlow]).withPosition clause.position)
        .pattern clause).Yields limits (s.enter .clause) (middle, names) v ∧
      (optionalChild level middle .body clause.body).Yields limits v final w ∧
      t = { w.emit final with current := s.current } := by
  obtain ⟨x, inner, rfl⟩ := yields_inScope h
  obtain ⟨⟨middle, names⟩, v, head, rest⟩ := yields_bind inner
  obtain ⟨final, w, body, last⟩ := yields_bind rest
  obtain rfl := yields_emit last
  exact ⟨middle, names, v, final, w, head, body, rfl⟩

/-- The clauses of a `case` have a single pattern each, and its node gets them all. -/
theorem yields_branchClauses (h : (branchClauses level node role items).Yields limits s result t) :
    ∃ clauses addresses,
      List.Forall₂ (fun item clause => Clause.ofSource? item = some clause) items clauses ∧
      (∀ clause ∈ clauses, clause.arity = 1) ∧ clauses.length ≤ limits.maxFanout ∧
      (eachPart node.address role (branchClause level) clauses).Yields limits s addresses t ∧
      result = (node.declare role).relateAll role addresses := by
  obtain ⟨clauses, s₁, split, rest⟩ := yields_bind h
  obtain ⟨rfl, single, each⟩ := yields_singleClauses split
  obtain ⟨_, s₂, checked, rest⟩ := yields_bind rest
  obtain ⟨few, rfl⟩ := yields_checkFanout checked
  obtain ⟨addresses, u, parts, last⟩ := yields_bind rest
  obtain ⟨rfl, rfl⟩ := yields_pure last
  exact ⟨clauses, addresses, each, single, few, parts, rfl⟩

/-- The condition comes before both branches. -/
theorem yields_conditional {negated : Bool} {condition branches : Source}
    (h : (conditional level site source negated condition branches).Yields limits s u t) :
    ∃ n₁ v n₂ w n₃ x,
      (level.child (controlNode site (if negated then .unlessExpression else .ifExpression) source)
        .condition condition).Yields limits s n₁ v ∧
      (branch level n₁ .thenBranch (branches.keyword? "do")).Yields limits v n₂ w ∧
      (branch level n₂ .elseBranch (branches.keyword? "else")).Yields limits w n₃ x ∧
      t = x.emit n₃ := by
  obtain ⟨n₁, v, tested, rest⟩ := yields_bind h
  obtain ⟨n₂, w, first, rest⟩ := yields_bind rest
  obtain ⟨n₃, x, second, last⟩ := yields_bind rest
  obtain rfl := yields_emit last
  exact ⟨n₁, v, n₂, w, n₃, x, tested, first, second, rfl⟩

/-- A clause of a `cond` has a frame of its own, in which its condition and its body are built. -/
theorem yields_condClause {clause : Clause} {u : Unit}
    (h : (condClause level site clause).Yields limits s u t) :
    ∃ middle v final w,
      (optionalChild level (((Node.make site .condClause).withTags [.controlFlow]).withPosition
        clause.position) .condition clause.params.head?).Yields limits (s.enter .block) middle v ∧
      (optionalChild level middle .body clause.body).Yields limits v final w ∧
      t = { w.emit final with current := s.current } := by
  obtain ⟨x, inner, rfl⟩ := yields_inScope h
  obtain ⟨middle, v, condition, rest⟩ := yields_bind inner
  obtain ⟨final, w, body, last⟩ := yields_bind rest
  obtain rfl := yields_emit last
  exact ⟨middle, v, final, w, condition, body, rfl⟩

/-- A `cond` builds its clauses, and its node gets them all. -/
theorem yields_condExpression {branches : Source} {u : Unit}
    (h : (condExpression level site source branches).Yields limits s u t) :
    ∃ clauses addresses v,
      List.Forall₂ (fun item clause => Clause.ofSource? item = some clause)
        (clauseItems (branches.keyword? "do")) clauses ∧
      clauses.length ≤ limits.maxFanout ∧
      (eachPart site .clause (condClause level) clauses).Yields limits s addresses v ∧
      t = v.emit (((controlNode site .condExpression source).declare .clause).relateAll .clause
        addresses) := by
  obtain ⟨clauses, s₁, split, rest⟩ := yields_bind h
  obtain ⟨rfl, -, each⟩ := yields_singleClauses split
  obtain ⟨_, s₂, checked, rest⟩ := yields_bind rest
  obtain ⟨few, rfl⟩ := yields_checkFanout checked
  obtain ⟨addresses, v, parts, last⟩ := yields_bind rest
  obtain rfl := yields_emit last
  exact ⟨clauses, addresses, v, each, few, parts, rfl⟩

/-! ## Chains of generators -/

/-- The value of a generator is built with a log of what it reads. What its pattern binds enters the
frame with that log, before the guard. -/
theorem yields_generator (h : (generator level role site source).Yields limits s u t) :
    ∃ parts n₁ v n₂ bindings w n₃ x, Generator.ofSource? source = some parts ∧
      (level.child ((Node.make site .generator)
        |>.withTags [.controlFlow, .binding]
        |>.set "binary" parts.isBinary
        |>.withPosition source.position) role parts.value).Yields limits
          { s with readLogs := ∅ :: s.readLogs } n₁ v ∧
      (patternChild level n₁ .pattern parts.pattern []).Yields limits
        { v with readLogs := v.readLogs.tail } (n₂, bindings) w ∧
      (optionalChild level n₂ .guard parts.guard).Yields limits
        (bindings.foldl (fun s binding => s.bindSymbol (some v.logged) binding) w) n₃ x ∧
      t = x.emit n₃ := by
  unfold generator at h
  split at h
  · rename_i parts split
    obtain ⟨⟨n₁, reads⟩, s₁, tracked, rest⟩ := yields_bind h
    obtain ⟨v, valued, logged, rfl⟩ := yields_trackReads tracked
    obtain rfl : reads = v.logged := logged
    obtain ⟨⟨n₂, bindings⟩, w, matched, rest⟩ := yields_bind rest
    obtain ⟨_, s₃, bound, rest⟩ := yields_bind rest
    obtain rfl := yields_bindAll bound
    obtain ⟨n₃, x, guarded, last⟩ := yields_bind rest
    obtain rfl := yields_emit last
    exact ⟨parts, n₁, v, n₂, bindings, w, n₃, x, split, valued, matched, guarded, rfl⟩
  · exact absurd h not_yields_malformed

theorem yields_chainClauses_cons {isGenerator : Source → Bool}
    {buildGenerator buildOther : Address → Source → Build Unit} {otherwise : Role} {index : Nat}
    {clause : Source}
    (h : (chainClauses isGenerator buildGenerator otherwise buildOther index (clause :: items)
      node).Yields limits s result t) :
    let role := if isGenerator clause then .generator else otherwise
    let build := if isGenerator clause then buildGenerator else buildOther
    ∃ u, (build (node.address.at (role, some index)) clause).Yields limits s () u ∧
      (chainClauses isGenerator buildGenerator otherwise buildOther (index + 1) items
        (node.relate role (node.address.at (role, some index)))).Yields limits u result t := by
  unfold chainClauses at h
  by_cases arrow : isGenerator clause = true
  · simp only [arrow, if_true] at h ⊢
    obtain ⟨_, u, first, rest⟩ := yields_bind h
    exact ⟨u, first, rest⟩
  · simp only [arrow] at h ⊢
    obtain ⟨_, u, first, rest⟩ := yields_bind h
    exact ⟨u, first, rest⟩

/-- The chain of a `with` and its body share a frame. The clauses behind `else`, if there are any, are
built after it. -/
theorem yields_withExpression {options : Source}
    (h : (withExpression level inner site source items options).Yields limits s u t) :
    ∃ n₁ v n₂ w, items.length ≤ limits.maxFanout ∧
      (chainClauses Generator.isArrow (generator inner .value) .statement level.expression 0 items
        ((controlNode site .withExpression source).declare .generator)).Yields limits (s.enter .block)
          n₁ v ∧
      (optionalChild level n₁ .body (options.keyword? "do")).Yields limits v n₂ w ∧
      (options.keyword? "else" = none ∧ t = Session.emit { w with current := s.current } n₂ ∨
        ∃ fallback n₃ x, options.keyword? "else" = some fallback ∧
          (branchClauses level n₂ .elseBranch (clauseItems (some fallback))).Yields limits
            { w with current := s.current } n₃ x ∧
          t = x.emit n₃) := by
  obtain ⟨_, s₁, checked, rest⟩ := yields_bind h
  obtain ⟨few, rfl⟩ := yields_checkFanout checked
  obtain ⟨n₂, s₂, framed, rest⟩ := yields_bind rest
  obtain ⟨w, chain, rfl⟩ := yields_inScope framed
  obtain ⟨n₁, v, chained, body⟩ := yields_bind chain
  refine ⟨n₁, v, n₂, w, few, chained, body, ?_⟩
  dsimp only at rest
  split at rest
  · rename_i absent
    obtain ⟨n₃, x, same, last⟩ := yields_bind rest
    obtain ⟨rfl, rfl⟩ := yields_pure same
    exact .inl ⟨absent, (yields_emit last).symm⟩
  · rename_i fallback given
    obtain ⟨n₃, x, branches, last⟩ := yields_bind rest
    exact .inr ⟨fallback, n₃, x, given, branches, (yields_emit last).symm⟩

/-- The options of a comprehension are built outside of its frame. -/
theorem yields_comprehension {options : Source}
    (h : (comprehension level inner site source items options).Yields limits s u t) :
    ∃ n₁ v n₂ w n₃ x, items.length ≤ limits.maxFanout ∧
      (optionalChild level (controlNode site .comprehension source) .into
        (options.keyword? "into")).Yields limits s n₁ v ∧
      (optionalChild level n₁ .reduce (options.keyword? "reduce")).Yields limits v n₂ w ∧
      (inScope .comprehension do
        let node ← chainClauses Generator.isQualifier (generator inner .enumerable) .filter
          level.expression 0 items ((match (options.keyword? "uniq").bind Source.atom? with
            | some name => n₂.set "uniq" (name == "true")
            | none => n₂).declare .generator)
        match options.keyword? "reduce" with
        | some _ => branchClauses level node .clause (clauseItems (options.keyword? "do"))
        | none => optionalChild level node .body (options.keyword? "do")).Yields limits w n₃ x ∧
      t = x.emit n₃ := by
  obtain ⟨_, s₁, checked, rest⟩ := yields_bind h
  obtain ⟨few, rfl⟩ := yields_checkFanout checked
  obtain ⟨n₁, v, into, rest⟩ := yields_bind rest
  obtain ⟨n₂, w, reduce, rest⟩ := yields_bind rest
  obtain ⟨n₃, x, framed, last⟩ := yields_bind rest
  obtain rfl := yields_emit last
  exact ⟨n₁, v, n₂, w, n₃, x, few, into, reduce, framed, rfl⟩

/-! ## Closures -/

/-- A clause of a closure has a frame of its own. What its head binds is noted in the closure before
its body is built. -/
theorem yields_closureClause {clause : Clause} {u : Unit}
    (h : (closureClause level site clause).Yields limits s u t) :
    ∃ middle names v final w,
      (clauseHead level (((Node.make site .anonymousFunctionClause).withTags [.closure]).withPosition
        clause.position) .parameter clause).Yields limits (s.enter .clause) (middle, names) v ∧
      (optionalChild level middle .body clause.body).Yields limits (v.boundByClosure names) final w ∧
      t = { w.emit final with current := s.current } := by
  obtain ⟨x, inner, rfl⟩ := yields_inScope h
  obtain ⟨⟨middle, names⟩, v, head, rest⟩ := yields_bind inner
  obtain ⟨_, noted, bound, rest⟩ := yields_bind rest
  obtain rfl := yields_boundByClosure bound
  obtain ⟨final, w, body, last⟩ := yields_bind rest
  obtain rfl := yields_emit last
  exact ⟨middle, names, v, final, w, head, body, rfl⟩

/-- An anonymous function opens its closure, builds its clauses and closes it again. -/
theorem yields_anonymousFunction {u : Unit}
    (h : (anonymousFunction level site source items).Yields limits s u t) :
    ∃ clauses arity addresses v w final,
      List.Forall₂ (fun item clause => Clause.ofSource? item = some clause) items clauses ∧
      (clauses ≠ [] ∧ clauses.length ≤ limits.maxFanout ∧ ∀ clause ∈ clauses, clause.arity = arity) ∧
      (eachPart site .clause (closureClause level) clauses).Yields limits (s.openClosure site)
        addresses v ∧
      (closeClosure ((((Node.make site .anonymousFunction)
        |>.withTags [.expression, .closure]
        |>.set "arity" (arity : Nat)
        |>.set "clause_count" clauses.length
        |>.withPosition source.position).declare .clause).relateAll .clause addresses)).Yields limits
          v final w ∧
      t = w.emit final := by
  obtain ⟨clauses, s₁, split, rest⟩ := yields_bind h
  obtain ⟨rfl, each⟩ := yields_splitClauses split
  dsimp only at rest
  split at rest
  · obtain ⟨_, _, failed, -⟩ := yields_bind rest
    exact absurd failed not_yields_malformed
  rename_i occupied
  obtain ⟨_, s₂, checked, rest⟩ := yields_bind rest
  obtain ⟨few, rfl⟩ := yields_checkFanout checked
  obtain ⟨arity, s₃, common, rest⟩ := yields_bind rest
  obtain ⟨rfl, equal⟩ := yields_commonArity common
  obtain ⟨_, s₄, opened, rest⟩ := yields_bind rest
  obtain rfl := yields_openClosure opened
  obtain ⟨addresses, s₅, parts, rest⟩ := yields_bind rest
  obtain ⟨final, s₆, closed, last⟩ := yields_bind rest
  obtain rfl := yields_emit last
  have uniform : ∀ clause ∈ clauses, clause.arity = arity :=
    fun clause member => equal _ (List.mem_map.mpr ⟨clause, member, rfl⟩)
  exact ⟨clauses, arity, addresses, s₅, s₆, final, each, ⟨by simpa using occupied, few, uniform⟩, parts,
    closed, rfl⟩

/-- The receiver of a captured function, if there is one, is built before the reference to it. -/
theorem yields_functionCapture {f : CapturedFunction}
    (h : (functionCapture level site source f).Yields limits s u t) :
    let start := (Node.make site .functionCapture)
      |>.withTags [.expression, .closure]
      |>.set "arity" f.arity
      |>.withPosition source.position
      |>.set "name" f.name
    let reference :=
      functionReference (site.child Role.callee.label) (f.receiver.bind receiverModule?) f.name f.arity
    ∃ received v,
      (f.receiver = none ∧ received = start ∧ v = s ∨
        ∃ target, f.receiver = some target ∧
          (receiver level start target).Yields limits s received v) ∧
      t = (v.emit reference).emit ((match reference.text? "qualified_name" with
        | some name => received.set "qualified_name" name
        | none => received).relate .callee (site.child Role.callee.label)) := by
  dsimp only [functionCapture] at h
  split at h
  · rename_i absent
    obtain ⟨received, v, same, rest⟩ := yields_bind h
    obtain ⟨rfl, rfl⟩ := yields_pure same
    obtain ⟨_, w, emitted, last⟩ := yields_bind rest
    obtain rfl := yields_emit emitted
    exact ⟨_, s, .inl ⟨absent, rfl, rfl⟩, (yields_emit last).symm⟩
  · rename_i target given
    obtain ⟨received, v, built, rest⟩ := yields_bind h
    obtain ⟨_, w, emitted, last⟩ := yields_bind rest
    obtain rfl := yields_emit emitted
    exact ⟨received, v, .inr ⟨target, given, built⟩, (yields_emit last).symm⟩

/-- The body of a shorthand closure is built with a count of its placeholders. -/
theorem yields_shorthandClosure {body : Source}
    (h : (shorthandClosure level site source body).Yields limits s u t) :
    ∃ v closed w,
      (level.expression (site.child Role.body.label) body).Yields limits
        { s.openClosure site with placeholders := 0 :: s.placeholders } () v ∧
      (closeClosure ((Node.make site .shorthandClosure)
        |>.withTags [.expression, .closure]
        |>.withPosition source.position)).Yields limits { v with placeholders := v.placeholders.tail }
          closed w ∧
      t = w.emit ((closed.set "arity" (v.placeholders.head?.getD 0)).relate .body
        (site.child Role.body.label)) := by
  obtain ⟨_, s₁, opened, rest⟩ := yields_bind h
  obtain rfl := yields_openClosure opened
  obtain ⟨⟨_, arity⟩, s₂, counted, rest⟩ := yields_bind rest
  obtain ⟨v, inner, counts, rfl⟩ := yields_trackPlaceholders counted
  obtain rfl : arity = v.placeholders.head?.getD 0 := counts
  obtain ⟨closed, w, closing, last⟩ := yields_bind rest
  obtain rfl := yields_emit last
  exact ⟨v, closed, w, inner, closing, rfl⟩

/-- A placeholder is noted in the innermost count, and its node emitted. -/
theorem yields_placeholder {index : Int64} {u : Unit}
    (h : (placeholder site source index).Yields limits s u t) :
    ∃ greatest rest, s.placeholders = greatest :: rest ∧
      t = { s with placeholders := max greatest index :: rest }.emit
        ((Node.make site .capturePlaceholder)
          |>.withTags [.expression]
          |>.set "index" index
          |>.withPosition source.position) := by
  obtain ⟨l, s₁, reading, rest⟩ := yields_bind h
  obtain ⟨rfl, rfl⟩ := yields_read reading
  dsimp only at rest
  split at rest
  · obtain ⟨seen, s₂, saw, rest⟩ := yields_bind rest
    cases seen with
    | false =>
        obtain ⟨_, _, failed, -⟩ := yields_bind rest
        exact absurd failed not_yields_throw
    | true =>
        obtain ⟨greatest, others, top, rfl⟩ := yields_sawPlaceholder saw
        exact ⟨greatest, others, top, (yields_emit rest).symm⟩
  · obtain ⟨_, _, failed, -⟩ := yields_bind rest
    exact absurd failed not_yields_throw

/-! ## Definitions -/

/-- Reading gives one clause per form and builds nothing. -/
theorem yields_definitionClauses {index : Nat} {clauses : List DefinitionClause}
    (h : (definitionClauses site index items).Yields limits s clauses t) :
    s = t ∧ List.Forall₂ (fun item clause => DefinitionClause.ofSource item = .ok clause) items clauses := by
  induction items generalizing index clauses with
  | nil =>
      obtain ⟨rfl, rfl⟩ := yields_pure h
      exact ⟨rfl, .nil⟩
  | cons item items ih =>
      unfold definitionClauses at h
      split at h
      · exact absurd h not_yields_malformed
      · rename_i clause found
        obtain ⟨rest, u, later, last⟩ := yields_bind h
        obtain ⟨rfl, rfl⟩ := yields_pure last
        obtain ⟨rfl, each⟩ := ih later
        exact ⟨rfl, .cons found each⟩

/-- A clause of a function has a frame of its own, in which its head and its body are built. -/
theorem yields_functionClause {clause : Clause} {u : Unit}
    (h : (functionClause level site clause).Yields limits s u t) :
    ∃ middle names v final w,
      (clauseHead level ((Node.make site .functionClause).withPosition clause.position)
        .parameter clause).Yields limits (s.enter .clause) (middle, names) v ∧
      (optionalChild level middle .body clause.body).Yields limits v final w ∧
      t = { w.emit final with current := s.current } := by
  obtain ⟨x, inner, rfl⟩ := yields_inScope h
  obtain ⟨⟨middle, names⟩, v, head, rest⟩ := yields_bind inner
  obtain ⟨final, w, body, last⟩ := yields_bind rest
  obtain rfl := yields_emit last
  exact ⟨middle, names, v, final, w, head, body, rfl⟩

/-- A definition has at least one form, all of the same arity. Its clauses are built in a frame of its
own, and its node, named after the first form, gets them all. -/
theorem yields_definition {u : Unit} (h : (definition level site items).Yields limits s u t) :
    ∃ first others arity addresses v,
      List.Forall₂ (fun item clause => DefinitionClause.ofSource item = .ok clause) items (first :: others) ∧
      (first :: others).length ≤ limits.maxFanout ∧
      (∀ clause ∈ first :: others, clause.clause.arity = arity) ∧
      (eachPart site .clause (fun site c => functionClause level site c.clause) (first :: others)).Yields
        limits (s.enter .function) addresses v ∧
      t = Session.emit { v with current := s.current } ((((Node.make site .functionDefinition)
        |>.withTags [.expression]
        |>.set "name" first.name
        |>.set "arity" arity
        |>.set "visibility" first.visibility
        |>.set "clause_count" (first :: others).length
        |>.withPosition first.clause.position).declare .clause).relateAll .clause addresses) := by
  obtain ⟨clauses, s₁, read, rest⟩ := yields_bind h
  obtain ⟨rfl, each⟩ := yields_definitionClauses read
  cases clauses with
  | nil => exact absurd rest not_yields_malformed
  | cons first others =>
      dsimp only at rest
      split at rest
      · exact absurd rest not_yields_malformed
      obtain ⟨_, s₂, checked, rest⟩ := yields_bind rest
      obtain ⟨few, rfl⟩ := yields_checkFanout checked
      obtain ⟨arity, s₃, common, rest⟩ := yields_bind rest
      obtain ⟨rfl, equal⟩ := yields_commonArity common
      obtain ⟨addresses, s₄, framed, last⟩ := yields_bind rest
      obtain ⟨v, parts, rfl⟩ := yields_inScope framed
      obtain rfl := yields_emit last
      have uniform : ∀ clause ∈ first :: others, clause.clause.arity = arity :=
        fun clause member => equal _ (List.mem_map.mpr ⟨clause, member, rfl⟩)
      exact ⟨first, others, arity, addresses, v, each, few, uniform, parts, rfl⟩

/-! ## Operators -/

/-- The value of a match is built with a log of what it reads, before the pattern, and what the pattern
binds enters the frame with that log. -/
theorem yields_matching {sign : String} {left right : Source}
    (h : (matching level site source sign left right).Yields limits s u t) :
    ∃ v bindings w,
      (level.expression (site.child Role.rightOperand.label) right).Yields limits
        { s with readLogs := ∅ :: s.readLogs } () v ∧
      (level.pattern (site.child Role.leftOperand.label) left []).Yields limits
        { v with readLogs := v.readLogs.tail } bindings w ∧
      t = (bindings.foldl (fun s binding => s.bindSymbol (some v.logged) binding) w).emit
        ((binaryNode site .matchOperator sign (site.child Role.leftOperand.label)
          (site.child Role.rightOperand.label))
          |>.withTags [.binding]
          |>.withPosition source.position) := by
  obtain ⟨⟨_, reads⟩, s₁, tracked, rest⟩ := yields_bind h
  obtain ⟨v, value, logged, rfl⟩ := yields_trackReads tracked
  obtain rfl : reads = v.logged := logged
  obtain ⟨bindings, w, pattern, rest⟩ := yields_bind rest
  obtain ⟨_, s₃, bound, last⟩ := yields_bind rest
  obtain rfl := yields_bindAll bound
  obtain rfl := yields_emit last
  exact ⟨v, bindings, w, value, pattern, rfl⟩

end Build

/-! ## Segments of binaries -/

namespace Segment

open Build

variable {β : Type} {room : Nat} {build : Address → Source → β → Build β}

/-- The value of a segment is built before its specification is read. No specification is read as
nothing pending. -/
theorem yields_step {state made : β × List (String × Address)}
    (h : (step room build site source state).Yields limits s made t) :
    ∃ value v reading w,
      (build (site.child Role.value.label) (split source).1 state.1).Yields limits s value v ∧
      (readPending site ((split source).2.toList.map (·, room)) ⟨(Node.make site .binarySegment)
        |>.relate .value (site.child Role.value.label)
        |>.withPosition source.position, none⟩).Yields limits v reading w ∧
      made = (value, state.2 ++ (reading.sizeName.map fun name => (name, site)).toList) ∧
      t = w.emit reading.node := by
  unfold step at h
  generalize split source = parts at h ⊢
  obtain ⟨tree, spec⟩ := parts
  obtain ⟨value, v, built, rest⟩ := yields_bind h
  dsimp only at rest
  obtain ⟨reading, w, read, rest⟩ : ∃ reading w,
      (readPending site (spec.toList.map (·, room)) ⟨(Node.make site .binarySegment)
        |>.relate .value (site.child Role.value.label)
        |>.withPosition source.position, none⟩).Yields limits v reading w ∧
      (do emit reading.node; return (value, state.2 ++ (reading.sizeName.map fun name =>
        (name, site)).toList) : Build _).Yields limits w made t := by
    cases spec with
    | none =>
        obtain ⟨reading, w, read, rest⟩ := yields_bind rest
        refine ⟨reading, w, ?_, rest⟩
        rw [Option.toList_none, List.map_nil, readPending]
        exact read
    | some spec => exact yields_bind rest
  obtain ⟨_, x, emitted, last⟩ := yields_bind rest
  obtain rfl := yields_emit emitted
  obtain ⟨rfl, rfl⟩ := yields_pure last
  exact ⟨value, v, reading, w, built, read, rfl, rfl⟩

/-- The segments are built one by one, and the node of the binary gets them all. -/
theorem yields_buildAll {value : β} {made : Node × β × List (String × Address)}
    (h : (buildAll room build node items value).Yields limits s made t) :
    ∃ addresses last, items.length ≤ limits.maxFanout ∧
      (foldParts node.address .segment (step room build) 0 items (value, [])).Yields limits s
        (addresses, last) t ∧
      made = ((node.declare .segment).relateAll .segment addresses, last) := by
  obtain ⟨_, v, checked, rest⟩ := yields_bind h
  obtain ⟨few, rfl⟩ := yields_checkFanout checked
  obtain ⟨⟨addresses, last⟩, w, parts, done⟩ := yields_bind rest
  obtain ⟨rfl, rfl⟩ := yields_pure done
  exact ⟨addresses, last, few, parts, rfl⟩

end Segment

end SyntaxGraph
