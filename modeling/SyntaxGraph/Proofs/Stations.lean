import SyntaxGraph.Compiler
import SyntaxGraph.Proofs.Evaluation
import SyntaxGraph.Proofs.Paths

/-!
# Where parts are met

The parts of a tree again, each with the address it is met at. A part is built where it is met; a
name is met where the node stands that reads it, which for a size is its segment. Without the
addresses these are the parts of the tree in the order in which they are evaluated.
-/

namespace SyntaxGraph

/-- An address and what is met there. -/
abbrev Station := Address × Part

namespace Part

variable {α β : Type}

/-- What is found at numbered addresses. -/
def numbered (site : Address) (role : Role) (each : Address → α → List β) : Nat → List α → List β
  | _, [] => []
  | index, x :: rest =>
    each (site.indexed role.label index) x ++ numbered site role each (index + 1) rest

/-- A tree that may be there, in a role of its own. -/
def optionalAt (site : Address) (role : Role) (source : Option Source) : List Station :=
  source.toList.map fun source => (site.child role.label, .expression source)

def expressionsAt (site : Address) (role : Role) (sources : List Source) : List Station :=
  numbered site role (fun address source => [(address, .expression source)]) 0 sources

def patternsAt (site : Address) (role : Role) (sources : List Source) : List Station :=
  numbered site role (fun address source => [(address, .pattern source)]) 0 sources

def entryAt (part : Source → Part) (site : Address) (source : Source) : List Station :=
  match source.mapEntry? with
  | some (key, value) => [(site.child Role.key.label, part key), (site.child Role.value.label, part value)]
  | none => []

def entriesAt (part : Source → Part) (site : Address) (items : List Source) : List Station :=
  numbered site .entry (entryAt part) 0 items

def mapBodyAt (site : Address) (items : List Source) : List Station :=
  match Build.mapUpdate? items with
  | some (base, updates) =>
    (site.child Role.base.label, .expression base) :: entriesAt .expression site updates
  | none => entriesAt .expression site items

/-- The variable that gives the size of a segment, with the address of the segment. -/
def sizeAt (site : Address) (segment : Source) : List (String × Address) :=
  ((Segment.split segment).2.bind Segment.sizeName?).toList.map fun name => (name, site)

/-- The variable that gives the size of a segment is met at the segment. -/
def segmentAt (value : Source → Part) (site : Address) (segment : Source) : List Station :=
  (site.child Role.value.label, value (Segment.split segment).1) ::
    (sizeAt site segment).map fun size => (size.2, .name size.1)

def segmentsAt (value : Source → Part) (site : Address) (segments : List Source) : List Station :=
  numbered site .segment (segmentAt value) 0 segments

/-- The parameters of a clause, which share one address unless their role is ordered. -/
def parametersAt (site : Address) (role : Role) (params : List Source) : List Station :=
  if role.isOrdered then patternsAt site role params
  else params.map fun source => (site.child role.label, .pattern source)

def clauseAt (role : Role) (site : Address) (c : Clause) : List Station :=
  parametersAt site role c.params ++ (optionalAt site .guard c.guard ++ optionalAt site .body c.body)

def condClauseAt (site : Address) (c : Clause) : List Station :=
  optionalAt site .condition c.params.head? ++ optionalAt site .body c.body

def clausesAt (site : Address) (role : Role) (stations : Address → Clause → List Station)
    (items : List Source) : List Station :=
  numbered site role stations 0 (items.filterMap Clause.ofSource?)

def generatorAt (role : Role) (site : Address) (g : Generator) : List Station :=
  (site.child role.label, .expression g.value) :: (site.child Role.pattern.label, .pattern g.pattern) ::
    optionalAt site .guard g.guard

/-- The clauses of a chain: generators, whose values stand in `role`, and others. -/
def chainAt (isGenerator : Source → Bool) (role otherwise : Role) (site : Address) :
    Nat → List Source → List Station
  | _, [] => []
  | index, source :: rest =>
    (if isGenerator source then (Generator.ofSource? source).toList.flatMap
        (generatorAt role (site.indexed Role.generator.label index))
      else [(site.indexed otherwise.label index, .expression source)]) ++
    chainAt isGenerator role otherwise site (index + 1) rest

def receiverAt (site : Address) (source : Source) : List Station :=
  match receiverModule? source with
  | some _ => []
  | none => [(site.child Role.receiver.label, .expression source)]

def calleeAt (site : Address) : Callee → List Station
  | .named _ => []
  | .remote target _ => receiverAt site target
  | .anonymous function => [(site.child Role.receiver.label, .expression function)]

def literalAt (site : Address) : Literal → List Station
  | .list items => expressionsAt site .element (Source.splitTail items).1 ++
      optionalAt site .tail (Source.splitTail items).2
  | .keywordList items => entriesAt .expression site items
  | .tuple items => expressionsAt site .element items
  | .map items => mapBodyAt site items
  | .struct typeRef fields =>
    (site.child Role.referencedType.label, .expression typeRef) :: mapBodyAt site fields
  | .range first last step =>
    (site.child Role.first.label, .expression first) :: (site.child Role.last.label, .expression last) ::
      optionalAt site .step step
  | .sigil _ content _ =>
    if (Build.plainContent? content).isSome then [] else [(site.child Role.content.label, .expression content)]
  | .binary segments => segmentsAt .expression site segments
  | _ => []

def expressionAt (site : Address) (source : Source) : List Station :=
  match source.expression with
  | .literal shape => literalAt site shape
  | .symbol read => [(site, .name read)]
  | .unary _ _ operand => [(site.child Role.operand.label, .expression operand)]
  | .binary .matching _ left right =>
    [(site.child Role.rightOperand.label, .expression right), (site.child Role.leftOperand.label, .pattern left)]
  | .binary _ _ left right =>
    [(site.child Role.leftOperand.label, .expression left),
      (site.child Role.rightOperand.label, .expression right)]
  | .block statements => expressionsAt site .statement statements
  | .conditional _ condition branches =>
    (site.child Role.condition.label, .expression condition) ::
      (optionalAt site .thenBranch (branches.keyword? "do") ++
        optionalAt site .elseBranch (branches.keyword? "else"))
  | .case subject branches =>
    (site.child Role.subject.label, .expression subject) ::
      clausesAt site .clause (clauseAt .pattern) (clauseItems (branches.keyword? "do"))
  | .cond branches => clausesAt site .clause condClauseAt (clauseItems (branches.keyword? "do"))
  | .withChain parts options =>
    chainAt Generator.isArrow .value .statement site 0 parts ++ (optionalAt site .body (options.keyword? "do") ++
      clausesAt site .elseBranch (clauseAt .pattern) (clauseItems (options.keyword? "else")))
  | .comprehension qualifiers options =>
    (optionalAt site .into (options.keyword? "into") ++ optionalAt site .reduce (options.keyword? "reduce")) ++
      (chainAt Generator.isQualifier .enumerable .filter site 0 qualifiers ++
        if (options.keyword? "reduce").isSome then
          clausesAt site .clause (clauseAt .pattern) (clauseItems (options.keyword? "do"))
        else optionalAt site .body (options.keyword? "do"))
  | .closure items => clausesAt site .clause (clauseAt .parameter) items
  | .capture body =>
    match capturedFunction? body with
    | some f => f.receiver.toList.flatMap (receiverAt site)
    | none => [(site.child Role.body.label, .expression body)]
  | .localCall called args =>
    if (Expression.localCall called args).isDefinition then
      numbered site .clause (fun address form => clauseAt .parameter address form.clause) 0
        (DefinitionClause.ofSource source).toOption.toList
    else expressionsAt site .argument args
  | .remoteCall target called args => calleeAt site (.remote target called) ++ expressionsAt site .argument args
  | .anonymousCall function args => calleeAt site (.anonymous function) ++ expressionsAt site .argument args
  | _ => []

def patternAt (site : Address) (source : Source) : List Station :=
  match source.pattern with
  | .literal shape => literalAt site shape
  | .value => [(site, .expression source)]
  | .pin pinned => [(site.child Role.pinned.label, .expression pinned)]
  | .tuple items => patternsAt site .element items
  | .list elements tail =>
    patternsAt site .element elements ++ tail.toList.map fun tail => (site.child Role.tail.label, .pattern tail)
  | .map entries => entriesAt .pattern site entries
  | .struct typeRef fields =>
    (site.child Role.referencedType.label, .pattern typeRef) :: entriesAt .pattern site fields
  | .binary segments => segmentsAt .pattern site segments
  | .both left right =>
    [(site.child Role.inner.label, .pattern (Build.asSides left right).1),
      (site.child Role.boundAs.label, .pattern (Build.asSides left right).2)]
  | .textHead _ rest => [(site.child Role.tail.label, .pattern rest)]
  | .fallback inner value =>
    [(site.child Role.pattern.label, .pattern inner), (site.child Role.defaultValue.label, .expression value)]
  | _ => []

/-- What is met next from a part on, and where. -/
def stations (site : Address) : Part → List Station
  | .name _ => []
  | .expression source => expressionAt site source
  | .pattern source => patternAt site source

end Part

/-- From one station another is met, at once or further down. -/
inductive Station.Reaches : Station → Station → Prop where
  | here (p) : Reaches p p
  | inside {p q r : Station} (met : q ∈ p.2.stations p.1) (reaches : Reaches q r) : Reaches p r

namespace Construct

/-- What is met first in a construct. -/
def stations : Construct → List Station
  | .expression root source => [(root, .expression source)]
  | .function root forms =>
    Part.numbered root .clause (fun address form => Part.clauseAt .parameter address form.clause) 0
      (forms.filterMap fun form => (DefinitionClause.ofSource form).toOption)
  | .pattern root source => [(root, .pattern source)]

/-- A part is met in a construct at an address. -/
def Meets (k : Construct) (site : Address) (part : Part) : Prop :=
  ∃ first ∈ k.stations, first.Reaches (site, part)

end Construct

/-! ## Parts without addresses -/

namespace Part

variable {α : Type} {site : Address}

theorem map_snd_numbered {stations : Address → α → List Station} (parts : α → List Part)
    (each : ∀ address x, (stations address x).map (·.2) = parts x) (role : Role) (index : Nat)
    (items : List α) : (numbered site role stations index items).map (·.2) = items.flatMap parts := by
  induction items generalizing index with
  | nil => rfl
  | cons x items ih => rw [numbered, List.map_append, each, ih, List.flatMap_cons]

theorem map_snd_optionalAt (role : Role) (source : Option Source) :
    (optionalAt site role source).map (·.2) = expressions source.toList := by
  simp [optionalAt, expressions, Function.comp_def]

theorem map_snd_expressionsAt (role : Role) (sources : List Source) :
    (expressionsAt site role sources).map (·.2) = expressions sources := by
  rw [expressions, List.map_eq_flatMap (l := sources)]
  exact map_snd_numbered (fun source => [.expression source]) (fun _ _ => rfl) role 0 sources

theorem map_snd_patternsAt (role : Role) (sources : List Source) :
    (patternsAt site role sources).map (·.2) = patterns sources := by
  rw [patterns, List.map_eq_flatMap (l := sources)]
  exact map_snd_numbered (fun source => [.pattern source]) (fun _ _ => rfl) role 0 sources

theorem map_snd_entriesAt (part : Source → Part) (items : List Source) :
    (entriesAt part site items).map (·.2) = items.flatMap (entry part) := by
  refine map_snd_numbered _ (fun address source => ?_) .entry 0 items
  unfold entryAt entry
  cases source.mapEntry? <;> rfl

theorem map_snd_mapBodyAt (items : List Source) : (mapBodyAt site items).map (·.2) = mapBody items := by
  unfold mapBodyAt mapBody
  cases Build.mapUpdate? items with
  | some parts => exact congrArg (Part.expression parts.1 :: ·) (map_snd_entriesAt _ parts.2)
  | none => exact map_snd_entriesAt _ items

theorem map_snd_segmentsAt (value : Source → Part) (segments : List Source) :
    (segmentsAt value site segments).map (·.2) = segments.flatMap (Segment.parts value) := by
  refine map_snd_numbered _ (fun address segment => ?_) .segment 0 segments
  simp [segmentAt, sizeAt, Segment.parts, Function.comp_def]

theorem map_snd_clauseAt (role : Role) (c : Clause) : (clauseAt role site c).map (·.2) = clause c := by
  have params : (parametersAt site role c.params).map (·.2) = patterns c.params := by
    unfold parametersAt
    split
    · exact map_snd_patternsAt role c.params
    · simp [patterns, Function.comp_def]
  simp only [clauseAt, clause, List.map_append, params, map_snd_optionalAt]

theorem map_snd_condClauseAt (c : Clause) : (condClauseAt site c).map (·.2) = condClause c := by
  simp only [condClauseAt, condClause, List.map_append, map_snd_optionalAt]

theorem map_snd_clausesAt {stations : Address → Clause → List Station} {parts : Clause → List Part}
    (each : ∀ address c, (stations address c).map (·.2) = parts c) (role : Role) (items : List Source) :
    (clausesAt site role stations items).map (·.2) = clauses parts items :=
  map_snd_numbered parts each role 0 _

theorem map_snd_generatorAt (role : Role) (g : Generator) :
    (generatorAt role site g).map (·.2) = generator g := by
  simp only [generatorAt, generator, List.map_cons, map_snd_optionalAt]

theorem map_snd_chainAt (isGenerator : Source → Bool) (role otherwise : Role) (index : Nat)
    (items : List Source) : (chainAt isGenerator role otherwise site index items).map (·.2) =
      items.flatMap (chainClause isGenerator) := by
  induction items generalizing index with
  | nil => rfl
  | cons source items ih =>
      rw [chainAt, List.map_append, ih, List.flatMap_cons, chainClause]
      split
      · rw [List.map_flatMap]
        simp only [map_snd_generatorAt]
      · rfl

theorem map_snd_receiverAt (source : Source) : (receiverAt site source).map (·.2) = receiver source := by
  unfold receiverAt receiver
  cases receiverModule? source <;> rfl

theorem map_snd_calleeAt (target : Callee) : (calleeAt site target).map (·.2) = callee target := by
  cases target with
  | remote target name => exact map_snd_receiverAt target
  | _ => rfl

theorem map_snd_literalAt (shape : Literal) : (literalAt site shape).map (·.2) = ofLiteral shape := by
  cases shape with
  | list items =>
      simp only [literalAt, ofLiteral, List.map_append, map_snd_expressionsAt, map_snd_optionalAt,
        expressions]
  | keywordList items => exact map_snd_entriesAt _ _
  | tuple items => exact map_snd_expressionsAt _ _
  | map items => exact map_snd_mapBodyAt _
  | struct typeRef fields => exact congrArg (_ :: ·) (map_snd_mapBodyAt fields)
  | range first last step => exact congrArg (_ :: _ :: ·) (map_snd_optionalAt .step step)
  | sigil letter content modifiers =>
      dsimp only [literalAt, ofLiteral]
      split <;> rfl
  | binary segments => exact map_snd_segmentsAt _ _
  | _ => rfl

theorem map_snd_expressionAt (source : Source) :
    (expressionAt site source).map (·.2) = ofExpression source := by
  unfold expressionAt ofExpression
  cases source.expression with
  | literal shape => exact map_snd_literalAt shape
  | binary category => cases category <;> rfl
  | block statements => exact map_snd_expressionsAt _ _
  | conditional negated condition branches =>
      simp only [List.map_cons, List.map_append, map_snd_optionalAt, expressions]
  | case subject branches => exact congrArg (_ :: ·) (map_snd_clausesAt (fun _ c => map_snd_clauseAt _ c) _ _)
  | cond branches => exact map_snd_clausesAt (fun _ c => map_snd_condClauseAt c) _ _
  | withChain parts options =>
      simp only [List.map_append, map_snd_chainAt, map_snd_optionalAt]
      rw [map_snd_clausesAt fun _ c => map_snd_clauseAt _ c]
  | comprehension qualifiers options =>
      simp only [List.map_append, map_snd_chainAt, map_snd_optionalAt, expressions]
      split
      · rw [map_snd_clausesAt fun _ c => map_snd_clauseAt _ c]
      · rw [map_snd_optionalAt, expressions]
  | closure items => exact map_snd_clausesAt (fun _ c => map_snd_clauseAt _ c) _ _
  | capture body =>
      dsimp only
      cases capturedFunction? body with
      | some f =>
          dsimp only
          rw [List.map_flatMap]
          simp only [map_snd_receiverAt]
      | none => rfl
  | localCall called args =>
      dsimp only
      split
      · exact map_snd_numbered _ (fun _ form => map_snd_clauseAt _ form.clause) _ _ _
      · exact map_snd_expressionsAt _ _
  | remoteCall target called args =>
      rw [List.map_append, map_snd_calleeAt, map_snd_expressionsAt]
  | anonymousCall function args => rw [List.map_append, map_snd_calleeAt, map_snd_expressionsAt]
  | _ => rfl

theorem map_snd_patternAt (source : Source) : ((patternAt site source).map (·.2)).Perm (ofPattern source) := by
  unfold patternAt ofPattern
  cases source.pattern with
  | literal shape => exact .of_eq (map_snd_literalAt shape)
  | tuple items => exact .of_eq (map_snd_patternsAt .element items)
  | list elements tail =>
      refine .of_eq ?_
      rw [List.map_append, map_snd_patternsAt]
      cases tail <;> simp [patterns]
  | map entries => exact .of_eq (map_snd_entriesAt _ entries)
  | struct typeRef fields => exact .of_eq (congrArg (_ :: ·) (map_snd_entriesAt _ fields))
  | binary segments => exact .of_eq (map_snd_segmentsAt _ segments)
  | both left right =>
      -- The side that names the whole comes last, on whichever side it stands.
      dsimp only [List.map, patterns]
      unfold Build.asSides
      split
      · exact .refl _
      · exact .swap _ _ _
  | _ => exact .refl _

theorem map_snd_stations (p : Part) : ((p.stations site).map (·.2)).Perm p.parts := by
  cases p with
  | name => exact .refl _
  | expression source => exact .of_eq (map_snd_expressionAt source)
  | pattern source => exact map_snd_patternAt source

/-- A name that is read is met somewhere. -/
theorem Reads.reaches {name : String} {p : Part} (reads : Reads name p) :
    ∃ address, Station.Reaches (site, p) (address, .name name) := by
  induction reads generalizing site with
  | here => exact ⟨site, .here _⟩
  | inside met _ ih =>
      obtain ⟨⟨address, q⟩, member, rfl⟩ := List.mem_map.mp ((map_snd_stations _).mem_iff.mpr met)
      obtain ⟨further, reaches⟩ := ih
      exact ⟨further, .inside member reaches⟩

end Part

/-! ## Where stations lie -/

namespace Part

variable {α β : Type} {site : Address}

/-- What is found at numbered addresses is found for one of the members. -/
theorem mem_numbered {role : Role} {each : Address → α → List β}
    {index : Nat} {xs : List α} {y : β} :
    y ∈ numbered site role each index xs ↔
      ∃ i x, xs[i]? = some x ∧ y ∈ each (site.indexed role.label (index + i)) x := by
  induction xs generalizing index with
  | nil => simp [numbered]
  | cons x xs ih =>
      rw [numbered, List.mem_append, ih]
      constructor
      · rintro (here | ⟨i, x', found, later⟩)
        · exact ⟨0, x, rfl, here⟩
        · exact ⟨i + 1, x', found, by rwa [show index + (i + 1) = index + 1 + i by omega]⟩
      · rintro ⟨i, x', found, member⟩
        cases i with
        | zero =>
            obtain rfl := Option.some.inj found
            exact .inl member
        | succ i => exact .inr ⟨i, x', found, by rwa [show index + 1 + i = index + (i + 1) by omega]⟩

/-- Stations that lie within an address. -/
def Within (site : Address) (stations : List Station) : Prop := ∀ q ∈ stations, q.1.isWithin site = true

theorem within_numbered {stations : Address → α → List Station} (each : ∀ address x, Within address (stations address x))
    (role : Role) (index : Nat) (items : List α) : Within site (numbered site role stations index items) := by
  intro q member
  obtain ⟨i, x, -, here⟩ := mem_numbered.mp member
  exact Address.isWithin_trans (each _ x q here) (site.indexed_isWithin _ _)

theorem within_self (site : Address) (part : Part) : Within site [(site, part)] :=
  List.forall_mem_singleton.mpr site.isWithin_self

theorem within_child (role : Role) (part : Part) : Within site [(site.child role.label, part)] :=
  List.forall_mem_singleton.mpr (site.child_isWithin _)

theorem within_optionalAt (role : Role) (source : Option Source) : Within site (optionalAt site role source) := by
  cases source with
  | none => exact nofun
  | some source => exact within_child role (.expression source)

theorem within_expressionsAt (role : Role) (sources : List Source) : Within site (expressionsAt site role sources) :=
  within_numbered (fun address source => within_self address (.expression source)) role 0 sources

theorem within_patternsAt (role : Role) (sources : List Source) : Within site (patternsAt site role sources) :=
  within_numbered (fun address source => within_self address (.pattern source)) role 0 sources

theorem within_entriesAt (part : Source → Part) (items : List Source) : Within site (entriesAt part site items) := by
  refine within_numbered (fun address source => ?_) _ _ _
  unfold entryAt
  split
  · exact List.forall_mem_cons.mpr ⟨address.child_isWithin _, within_child .value _⟩
  · exact nofun

theorem within_mapBodyAt (items : List Source) : Within site (mapBodyAt site items) := by
  unfold mapBodyAt
  split
  · exact List.forall_mem_cons.mpr ⟨site.child_isWithin _, within_entriesAt _ _⟩
  · exact within_entriesAt _ _

theorem within_segmentsAt (value : Source → Part) (segments : List Source) :
    Within site (segmentsAt value site segments) := by
  refine within_numbered (fun address segment q member => ?_) _ _ _
  cases List.mem_cons.mp member with
  | inl valued => exact valued ▸ address.child_isWithin _
  | inr sized =>
      obtain ⟨size, given, rfl⟩ := List.mem_map.mp sized
      obtain ⟨name, -, rfl⟩ := List.mem_map.mp given
      exact address.isWithin_self

theorem within_clauseAt (role : Role) (c : Clause) : Within site (clauseAt role site c) := by
  refine List.forall_mem_append.mpr ⟨?_, List.forall_mem_append.mpr
    ⟨within_optionalAt .guard c.guard, within_optionalAt .body c.body⟩⟩
  unfold parametersAt
  split
  · exact within_patternsAt role c.params
  · exact List.forall_mem_map.mpr fun source _ => site.child_isWithin _

theorem within_clausesAt {stations : Address → Clause → List Station}
    (each : ∀ address c, Within address (stations address c)) (role : Role) (items : List Source) :
    Within site (clausesAt site role stations items) := within_numbered each _ _ _

theorem within_generatorAt (role : Role) (g : Generator) : Within site (generatorAt role site g) :=
  List.forall_mem_cons.mpr ⟨site.child_isWithin _, List.forall_mem_cons.mpr
    ⟨site.child_isWithin _, within_optionalAt .guard g.guard⟩⟩

theorem within_chainAt (isGenerator : Source → Bool) (role otherwise : Role) (index : Nat) (items : List Source) :
    Within site (chainAt isGenerator role otherwise site index items) := by
  induction items generalizing index with
  | nil => exact nofun
  | cons source items ih =>
      refine List.forall_mem_append.mpr ⟨?_, ih (index + 1)⟩
      split
      · intro q member
        obtain ⟨g, -, here⟩ := List.mem_flatMap.mp member
        exact Address.isWithin_trans (within_generatorAt role g q here) (site.indexed_isWithin _ _)
      · exact List.forall_mem_singleton.mpr (site.indexed_isWithin _ _)

theorem within_receiverAt (source : Source) : Within site (receiverAt site source) := by
  unfold receiverAt
  split
  · exact nofun
  · exact within_child .receiver _

theorem within_literalAt (shape : Literal) : Within site (literalAt site shape) := by
  cases shape with
  | list items => exact List.forall_mem_append.mpr ⟨within_expressionsAt _ _, within_optionalAt _ _⟩
  | keywordList items => exact within_entriesAt _ _
  | tuple items => exact within_expressionsAt _ _
  | map items => exact within_mapBodyAt _
  | struct typeRef fields => exact List.forall_mem_cons.mpr ⟨site.child_isWithin _, within_mapBodyAt _⟩
  | range first last step =>
      exact List.forall_mem_cons.mpr ⟨site.child_isWithin _, List.forall_mem_cons.mpr
        ⟨site.child_isWithin _, within_optionalAt _ _⟩⟩
  | sigil letter content modifiers =>
      dsimp only [literalAt]
      split
      · exact nofun
      · exact within_child .content _
  | binary segments => exact within_segmentsAt _ _
  | _ => exact nofun

theorem within_expressionAt (source : Source) : Within site (expressionAt site source) := by
  unfold expressionAt
  split
  · exact within_literalAt _
  · exact within_self site _
  · exact within_child .operand _
  · exact List.forall_mem_cons.mpr ⟨site.child_isWithin _, within_child .leftOperand _⟩
  · exact List.forall_mem_cons.mpr ⟨site.child_isWithin _, within_child .rightOperand _⟩
  · exact within_expressionsAt _ _
  · exact List.forall_mem_cons.mpr ⟨site.child_isWithin _, List.forall_mem_append.mpr
      ⟨within_optionalAt _ _, within_optionalAt _ _⟩⟩
  · exact List.forall_mem_cons.mpr ⟨site.child_isWithin _, within_clausesAt (fun _ c => within_clauseAt _ c) _ _⟩
  · refine within_clausesAt (fun _ c => ?_) _ _
    exact List.forall_mem_append.mpr ⟨within_optionalAt _ _, within_optionalAt _ _⟩
  · exact List.forall_mem_append.mpr ⟨within_chainAt _ _ _ _ _, List.forall_mem_append.mpr
      ⟨within_optionalAt _ _, within_clausesAt (fun _ c => within_clauseAt _ c) _ _⟩⟩
  · refine List.forall_mem_append.mpr ⟨List.forall_mem_append.mpr ⟨within_optionalAt _ _, within_optionalAt _ _⟩,
      List.forall_mem_append.mpr ⟨within_chainAt _ _ _ _ _, ?_⟩⟩
    split
    · exact within_clausesAt (fun _ c => within_clauseAt _ c) _ _
    · exact within_optionalAt _ _
  · exact within_clausesAt (fun _ c => within_clauseAt _ c) _ _
  · split
    · intro q member
      obtain ⟨target, -, here⟩ := List.mem_flatMap.mp member
      exact within_receiverAt target q here
    · exact within_child .body _
  · split
    · exact within_numbered (fun _ (form : DefinitionClause) => within_clauseAt _ form.clause) _ _ _
    · exact within_expressionsAt _ _
  · exact List.forall_mem_append.mpr ⟨within_receiverAt _, within_expressionsAt _ _⟩
  · exact List.forall_mem_append.mpr ⟨within_child .receiver _, within_expressionsAt _ _⟩
  · exact nofun

theorem within_patternAt (source : Source) : Within site (patternAt site source) := by
  unfold patternAt
  split
  · exact within_literalAt _
  · exact within_self site _
  · exact within_child .pinned _
  · exact within_patternsAt _ _
  · refine List.forall_mem_append.mpr ⟨within_patternsAt _ _, ?_⟩
    exact List.forall_mem_map.mpr fun tail _ => site.child_isWithin _
  · exact within_entriesAt _ _
  · exact List.forall_mem_cons.mpr ⟨site.child_isWithin _, within_entriesAt _ _⟩
  · exact within_segmentsAt _ _
  · exact List.forall_mem_cons.mpr ⟨site.child_isWithin _, within_child .boundAs _⟩
  · exact within_child .tail _
  · exact List.forall_mem_cons.mpr ⟨site.child_isWithin _, within_child .defaultValue _⟩
  · exact nofun

theorem within_stations (p : Part) : Within site (p.stations site) := by
  cases p with
  | name => exact nofun
  | expression source => exact within_expressionAt source
  | pattern source => exact within_patternAt source

end Part

theorem Station.Reaches.trans {p q r : Station} (first : p.Reaches q) (second : q.Reaches r) : p.Reaches r := by
  induction first with
  | here => exact second
  | inside met _ ih => exact .inside met (ih second)

end SyntaxGraph
