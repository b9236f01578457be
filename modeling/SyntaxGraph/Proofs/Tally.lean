import SyntaxGraph.Proofs.Assembly
import SyntaxGraph.Proofs.Reports

/-!
# Nodes and reports that tally

What a stretch of a build adds is within the ceilings, node by node, and its reports match
its nodes: each closure has one, and each captured variable belongs to one. `Tally` says so
of a list of nodes and a list of reports. `Diagnosed` matches nodes with diagnostics: each
unknown shape has one, and no other node bears the tag of one. `Tallied` says both of two
sessions, together with the counts that the nodes state. Such stretches follow each other, so
every builder is looked at by itself.

`Fitting` follows a node while a builder fits it with parts. It says how many targets the
node gets in the roles that have a ceiling, and that its other roles stay as they are. As
with assemblies, a builder is verified by naming the roles it fills.
-/

namespace SyntaxGraph

/-! ## Steps down a path -/

namespace Address

theorem length_splitSegments (chars : List Char) :
    (splitSegments chars).length = chars.count '/' + 1 := by
  induction chars with
  | nil => rfl
  | cons c rest ih =>
      unfold splitSegments
      split
      · rename_i slash
        rw [List.length_cons, ih, slash, List.count_cons_self]
      · rename_i other
        rw [List.count_cons_of_ne other, ← ih]
        cases cut : splitSegments rest with
        | nil => simp [cut] at ih
        | cons segment more => rfl

def size (a : Address) : Nat := a.segments.length

@[simp] theorem size_child (site : Address) (role : Role) :
    (site.child role.label).size = site.size + 1 := by
  have plain := List.count_eq_zero_of_not_mem role.slash_notMem_label
  simp [size, segments, child, length_splitSegments, plain]

@[simp] theorem size_indexed (site : Address) (role : Role) (index : Nat) :
    (site.indexed role.label index).size = site.size + 2 := by
  have plain := List.count_eq_zero_of_not_mem role.slash_notMem_label
  have digits : (Nat.toDigits 10 index).count '/' = 0 := by
    simpa using List.count_eq_zero_of_not_mem (slash_notMem_toString index)
  simp [size, segments, indexed, length_splitSegments, plain, digits]

end Address

/-! ## Targets of a node under construction -/

namespace Relation

theorem length_push_le (r : Relation) (target : Address) :
    (r.push target).targets.length ≤ r.targets.length + 1 := by
  have sorted : (insertSorted target r.targets).length ≤ r.targets.length + 1 := by
    unfold insertSorted
    dsimp only
    split
    · simp
    · split
      · exact Nat.le_succ _
      · exact List.length_insertIdx_le_succ
      · exact List.length_insertIdx_le_succ
  unfold push
  split
  · simp
  · exact sorted

end Relation

namespace Node

variable (n : Node) (role other : Role)

theorem relation_congr {n m : Node} (same : m.relations = n.relations) :
    m.relation role = n.relation role := by
  unfold relation
  rw [same]

theorem related_congr {n m : Node} (same : m.relation role = n.relation role) :
    m.related role = n.related role := by
  rw [← relation_targets, ← relation_targets, same]

@[simp] theorem relation_declare : (n.declare role).relation other = n.relation other := by
  unfold declare
  rw [relation, OrderedMap.get?_insert]
  split
  · rename_i equal
    rw [Std.LawfulEqOrd.eq_of_compare equal]
    rfl
  · rfl

theorem relation_relate_self (target : Address) :
    (n.relate role target).relation role = (n.relation role).push target := by
  unfold relate
  rw [relation, OrderedMap.get?_insert_self]
  rfl

theorem relation_relate_of_ne {role other : Role} (ne : other ≠ role) (target : Address) :
    (n.relate role target).relation other = n.relation other := by
  have differs : compare other role ≠ .eq := fun equal => ne (Std.LawfulEqOrd.eq_of_compare equal)
  unfold relate
  rw [relation, OrderedMap.get?_insert, if_neg differs]
  rfl

theorem relation_relateAll_of_ne {role other : Role} (ne : other ≠ role) (targets : List Address) :
    (n.relateAll role targets).relation other = n.relation other := by
  induction targets generalizing n with
  | nil => rfl
  | cons target targets ih =>
      rw [relateAll_cons, ih]
      exact n.relation_relate_of_ne ne target

theorem length_related_relate_le (target : Address) :
    ((n.relate role target).related role).length ≤ (n.related role).length + 1 := by
  rw [← relation_targets, ← relation_targets, relation_relate_self]
  exact Relation.length_push_le _ target

theorem length_related_relateAll_le (targets : List Address) :
    ((n.relateAll role targets).related role).length ≤ (n.related role).length + targets.length := by
  induction targets generalizing n with
  | nil => simp
  | cons target targets ih =>
      have rest := ih (n.relate role target)
      have first := n.length_related_relate_le role target
      rw [relateAll_cons, List.length_cons]
      omega

/-- An ordered role lists its targets as they were added. -/
theorem related_relateAll_of_ordered (ordered : (n.relation role).ordered = true)
    (targets : List Address) : (n.relateAll role targets).related role = n.related role ++ targets := by
  induction targets generalizing n with
  | nil => simp
  | cons target targets ih =>
      have pushed : (n.relate role target).related role = n.related role ++ [target] := by
        rw [← relation_targets, relation_relate_self, Relation.push_targets_of_ordered ordered,
          relation_targets]
      have kept : ((n.relate role target).relation role).ordered = true := by
        rw [relation_relate_self, Relation.push_ordered, ordered]
      rw [relateAll_cons, ih _ kept, pushed, List.append_assoc, List.singleton_append]

@[simp] theorem property?_relate (target : Address) (name : String) :
    (n.relate role target).property? name = n.property? name := rfl

@[simp] theorem property?_declare (name : String) :
    (n.declare role).property? name = n.property? name := rfl

@[simp] theorem property?_relateAll (targets : List Address) (name : String) :
    (n.relateAll role targets).property? name = n.property? name := by
  induction targets generalizing n with
  | nil => rfl
  | cons target targets ih => exact ih (n.relate role target)

@[simp] theorem property?_set_self (name : String) (value : Property) :
    (n.set name value).property? name = some value := OrderedMap.get?_insert_self _ _ _

/-- A node that bears no tag of a tree that was not recognised. -/
def Untagged : Prop := n.property? "original_tag" = none

/-- A node without targets, and without the tag of a tree that was not recognised. -/
structure Bare : Prop where
  targets : ∀ role, n.relation role = .empty role.isOrdered
  untagged : n.Untagged

variable {n}

theorem Untagged.set (untagged : n.Untagged) (name : String) (value : Property)
    (other : "original_tag" ≠ name) : (n.set name value).Untagged :=
  (n.property?_set_of_ne value other).trans untagged

theorem Untagged.relate (untagged : n.Untagged) (role : Role) (target : Address) :
    (n.relate role target).Untagged := untagged

theorem Untagged.relateAll (untagged : n.Untagged) (role : Role) (targets : List Address) :
    (n.relateAll role targets).Untagged := (n.property?_relateAll role targets _).trans untagged

theorem Bare.make (site : Address) (kind : NodeKind) : (Node.make site kind).Bare :=
  ⟨fun _ => rfl, rfl⟩

theorem Bare.set (bare : n.Bare) (name : String) (value : Property)
    (other : "original_tag" ≠ name) : (n.set name value).Bare :=
  ⟨bare.targets, bare.untagged.set name value other⟩

theorem Bare.withTags (bare : n.Bare) (tags : List NodeTag) : (n.withTags tags).Bare :=
  ⟨bare.targets, bare.untagged⟩

theorem Bare.withPosition (bare : n.Bare) (position : Option Position) :
    (n.withPosition position).Bare := by
  constructor
  · intro role
    rw [relation_congr role (n.withPosition_relations position)]
    exact bare.targets role
  · exact (n.property?_withPosition position (by decide) (by decide)).trans bare.untagged

theorem Bare.related (bare : n.Bare) (role : Role) : n.related role = [] := by
  rw [← relation_targets, bare.targets role]
  rfl

end Node

/-! ## Counts that nodes state -/

/-- A node states a count under a name. Counts of `2 ^ 63` and more are beyond an integer property. -/
def Node.States (n : Node) (name : String) (count : Nat) : Prop :=
  ∃ value : Int64, n.property? name = some (.integer value) ∧ (count < Nat.pow 2 63 → value.toInt = count)

/-- A function states how many clauses it has, which is one at least, and how many parameters each
of them takes. -/
structure Node.CountsClauses (stands : Address → Node → Prop) (n : Node) : Prop where
  some : 0 < (n.related .clause).length
  clauses : n.States "clause_count" (n.related .clause).length
  parameters : ∃ arity, n.States "arity" arity ∧ ∀ target ∈ n.related .clause,
    ∃ clause, stands target clause ∧ (clause.related .parameter).length = arity

/-- A call states how many arguments it has, and what it calls is named and counted alike. -/
structure Node.CountsArguments (stands : Address → Node → Prop) (n : Node) : Prop where
  arguments : n.States "arity" (n.related .argument).length
  callee : ∀ target ∈ n.related .callee, ∃ reference, stands target reference ∧
    reference.kind = .functionReference ∧ reference.property? "arity" = n.property? "arity" ∧
    ∃ name, n.text? "name" = some name ∧ reference.text? "name" = some name

/-- The counts that a node of each kind states are those of its targets; `stands` tells which node
stands at the address of a target. -/
def Node.Counted (stands : Address → Node → Prop) (n : Node) : Prop :=
  match n.kind with
  | .anonymousFunction | .functionDefinition => n.CountsClauses stands
  | .localCall | .remoteCall | .anonymousCall => n.CountsArguments stands
  | .listLiteral | .tupleLiteral => n.States "size" (n.related .element).length
  | .keywordList | .mapLiteral | .structLiteral => n.States "size" (n.related .entry).length
  | .capturedVariable => n.States "reference_count" (n.related .reference).length
  | .caseClause => (n.related .pattern).length = 1
  | .mapEntry => (n.related .key).length = 1 ∧ (n.related .value).length = 1
  | _ => True

/-- The kinds of nodes that state counts. -/
def NodeKind.isCounted : NodeKind → Bool
  | .anonymousFunction | .functionDefinition | .localCall | .remoteCall | .anonymousCall | .listLiteral
  | .tupleLiteral | .keywordList | .mapLiteral | .structLiteral | .capturedVariable | .caseClause
  | .mapEntry => true
  | _ => false

namespace Node

variable {n m : Node} {name : String} {count : Nat} {stands later : Address → Node → Prop}

theorem States.congr (states : n.States name count) (same : m.property? name = n.property? name) :
    m.States name count := by
  obtain ⟨value, stated, equal⟩ := states
  exact ⟨value, same.trans stated, equal⟩

theorem States.ofNat (stated : n.property? name = some (.ofNat count)) : n.States name count := by
  refine ⟨_, stated, fun small => ?_⟩
  rw [Nat.min_eq_left (Nat.le_sub_one_of_lt small)]
  exact Int64.toInt_ofNat_of_lt small

/-- What is set to a count states it. -/
theorem states_set (n : Node) (name : String) (count : Nat) : (n.set name count).States name count :=
  .ofNat (OrderedMap.get?_insert_self _ _ _)

theorem Counted.ofKind (plain : n.kind.isCounted = false) : n.Counted stands := by
  unfold Counted
  split <;> simp_all [NodeKind.isCounted]

/-- Nodes that are added change no count. -/
theorem Counted.mono (counted : n.Counted stands) (grown : ∀ a m, stands a m → later a m) :
    n.Counted later := by
  have clauses : n.CountsClauses stands → n.CountsClauses later := by
    rintro ⟨some, clauses, arity, states, each⟩
    refine ⟨some, clauses, arity, states, fun target member => ?_⟩
    obtain ⟨clause, here, counted⟩ := each target member
    exact ⟨clause, grown _ _ here, counted⟩
  have arguments : n.CountsArguments stands → n.CountsArguments later := by
    rintro ⟨arguments, callee⟩
    refine ⟨arguments, fun target member => ?_⟩
    obtain ⟨reference, here, rest⟩ := callee target member
    exact ⟨reference, grown _ _ here, rest⟩
  unfold Counted at counted ⊢
  split at counted
  · exact clauses counted
  · exact clauses counted
  · exact arguments counted
  · exact arguments counted
  · exact arguments counted
  all_goals exact counted

end Node

/-- At an address stands a node of the session. -/
def Session.Stands (s : Session) (address : Address) (node : Node) : Prop :=
  node ∈ s.nodes.toList ∧ node.address = address

namespace Session

variable {s : Session}

theorem stands_emit (s : Session) (node : Node) : (s.emit node).Stands node.address node :=
  ⟨by simp [emit], rfl⟩

@[simp] theorem boundByClosure_diagnostics (s : Session) (names : List String) :
    (s.boundByClosure names).diagnostics = s.diagnostics := by
  unfold boundByClosure
  split <;> rfl

theorem Stands.emit {address : Address} {node : Node} (here : s.Stands address node) (other : Node) :
    (s.emit other).Stands address node :=
  ⟨by simp [Session.emit, here.1], here.2⟩

end Session

/-! ## Nodes and reports within the ceilings -/

/-- The roles that no node may fill beyond the ceiling on parts. -/
def Role.isCapped : Role → Bool
  | .element | .entry | .segment | .clause => true
  | _ => false

/-- The kinds of nodes that closures are reported for. -/
def NodeKind.isClosure : NodeKind → Bool
  | .anonymousFunction | .shorthandClosure => true
  | _ => false

/-- The kinds of nodes that go with no report and no diagnostic. -/
def NodeKind.isPlain (kind : NodeKind) : Bool :=
  !kind.isClosure && kind != .capturedVariable && kind != .unknownExpression

/-- The plain kinds of nodes without a ceiling of their own. -/
def NodeKind.isUncapped (kind : NodeKind) : Bool :=
  kind.isPlain && !(kind ∈ [.withExpression, .comprehension, .capturePlaceholder])

/-- Those of them that state no counts either. -/
def NodeKind.isCommon (kind : NodeKind) : Bool := kind.isUncapped && !kind.isCounted

/-- A node within the ceilings on its parts. -/
structure Node.Fits (limits : Limits) (n : Node) : Prop where
  capped : ∀ role, role.isCapped = true → (n.related role).length ≤ limits.maxFanout
  /-- The clauses of a chain have one ceiling, and those behind its `else` another. -/
  chain : n.kind = .withExpression →
    (n.related .generator).length + (n.related .statement).length ≤ limits.maxFanout ∧
      (n.related .elseBranch).length ≤ limits.maxFanout
  qualifiers : n.kind = .comprehension →
    (n.related .generator).length + (n.related .filter).length ≤ limits.maxFanout
  placeholder : n.kind = .capturePlaceholder → ∃ index : Int64,
    n.property? "index" = some (.integer index) ∧ 1 ≤ index.toInt ∧
      index.toInt ≤ limits.maxCaptures

/-- A report within the ceilings, its names in order. -/
structure ClosureReport.Fits (limits : Limits) (r : ClosureReport) : Prop where
  captures : r.captures.length ≤ limits.maxCaptures
  scopeChain : r.scopeChain.length ≤ limits.maxDepth
  bound : r.bound.Pairwise (· < ·)
  names : r.freeNames.Pairwise (· < ·)

/-- The node of a capture points at reads and at a binding, in roles without a ceiling. -/
theorem ClosureReport.captureNode_fits (r : ClosureReport) (limits : Limits) (index : Nat)
    (capture : Capture) : (r.captureNode index capture).Fits limits := by
  have kind := r.captureNode_kind index capture
  constructor
  · intro role capped
    have none : (r.captureNode index capture).related role = [] := by
      apply List.eq_nil_iff_forall_not_mem.mpr
      intro target member
      rcases r.captureNode_links index capture (Node.mem_links_of_related member) with
        ⟨reference, -⟩ | ⟨boundBy, -⟩
      · rw [show role = .reference from reference] at capped
        cases capped
      · rw [show role = .boundBy from boundBy] at capped
        cases capped
    rw [none]
    exact Nat.zero_le _
  all_goals
    intro other
    rw [kind] at other
    cases other

/-- The node of the closure that is reported on, pointing at the captures. -/
def ClosureReport.Describes (r : ClosureReport) (n : Node) : Prop :=
  n.address = r.closure ∧ n.related .captures = r.captureNodes.map (·.address)

/-- Nodes within the ceilings, none of them further down than `bound`, and the reports that go with
them in the order they were made. -/
structure Tally (limits : Limits) (bound : Nat) (nodes : List Node) (reports : List ClosureReport) :
    Prop where
  fits : ∀ n ∈ nodes, n.Fits limits
  low : ∀ n ∈ nodes, n.address.size ≤ bound
  reported : ∀ r ∈ reports, r.Fits limits
  closures : List.Forall₂ ClosureReport.Describes reports (nodes.filter (·.kind.isClosure))
  captured : nodes.filter (·.kind == .capturedVariable) = reports.flatMap (·.captureNodes)

namespace Tally

variable {limits : Limits} {bound : Nat} {xs ys : List Node} {rs qs : List ClosureReport}

theorem nil (limits : Limits) (bound : Nat) : Tally limits bound [] [] :=
  ⟨fun _ member => (nomatch member), fun _ member => (nomatch member), fun _ member => (nomatch member),
    .nil, rfl⟩

theorem append (first : Tally limits bound xs rs) (second : Tally limits bound ys qs) :
    Tally limits bound (xs ++ ys) (rs ++ qs) where
  fits n member := (List.mem_append.mp member).elim (first.fits n) (second.fits n)
  low n member := (List.mem_append.mp member).elim (first.low n) (second.low n)
  reported r member := (List.mem_append.mp member).elim (first.reported r) (second.reported r)
  closures := by
    rw [List.filter_append]
    exact List.rel_append first.closures second.closures
  captured := by
    rw [List.filter_append, List.flatMap_append, first.captured, second.captured]

/-- A node that goes with no report. -/
theorem single {n : Node} (fits : n.Fits limits) (noClosure : n.kind.isClosure = false)
    (noCapture : n.kind ≠ .capturedVariable) (low : n.address.size ≤ bound) :
    Tally limits bound [n] [] := by
  constructor
  · intro m member
    rwa [List.mem_singleton.mp member]
  · intro m member
    rwa [List.mem_singleton.mp member]
  · exact fun _ member => (nomatch member)
  · rw [List.filter_singleton, noClosure]
    exact .nil
  · simp [noCapture]

/-- A closure comes with the nodes of its captures and with its report. -/
theorem closure {n : Node} {r : ClosureReport} (fits : n.Fits limits) (isClosure : n.kind.isClosure = true)
    (describes : r.Describes n) (reported : r.Fits limits) (low : n.address.size + 2 ≤ bound) :
    Tally limits bound (r.captureNodes ++ [n]) [r] := by
  have kinds : ∀ m ∈ r.captureNodes, m.kind = .capturedVariable := fun _ =>
    ClosureReport.kind_of_mem_captureNodes
  have noClosure : r.captureNodes.filter (·.kind.isClosure) = [] := by
    apply List.filter_eq_nil_iff.mpr
    intro m member
    rw [kinds m member]
    decide
  have allCaptured : r.captureNodes.filter (·.kind == .capturedVariable) = r.captureNodes := by
    apply List.filter_eq_self.mpr
    intro m member
    rw [kinds m member]
    rfl
  have other : n.kind ≠ .capturedVariable := by
    intro same
    rw [same] at isClosure
    cases isClosure
  constructor
  · intro m member
    rcases List.mem_append.mp member with inner | last
    · obtain ⟨index, capture, -, rfl⟩ := ClosureReport.mem_captureNodes inner
      exact r.captureNode_fits limits index capture
    · rwa [List.mem_singleton.mp last]
  · intro m member
    rcases List.mem_append.mp member with inner | last
    · obtain ⟨index, capture, -, rfl⟩ := ClosureReport.mem_captureNodes inner
      rw [ClosureReport.captureNode_address, ← describes.1]
      exact Nat.le_trans (Nat.le_of_eq (Address.size_indexed _ _ _)) low
    · rw [List.mem_singleton.mp last]
      omega
  · intro q member
    rwa [List.mem_singleton.mp member]
  · rw [List.filter_append, noClosure, List.filter_singleton, isClosure]
    exact .cons describes .nil
  · simp [List.filter_append, allCaptured, other]

end Tally

/-! ## Nodes of unknown shape and diagnostics -/

/-- The node of unknown shape that a diagnostic goes with. -/
def Diagnostic.node (d : Diagnostic) : Node :=
  (Node.make d.site .unknownExpression)
    |>.withTags [.expression]
    |>.set "original_tag" d.tag
    |>.withPosition d.position

namespace Diagnostic

variable (d : Diagnostic)

@[simp] theorem node_address : d.node.address = d.site := by simp [node]

@[simp] theorem node_kind : d.node.kind = .unknownExpression := by simp [node]

/-- The parts of a tree that was not recognised are not looked at. -/
@[simp] theorem node_relations : d.node.relations = ∅ := by
  simp only [node, Node.withPosition_relations]
  rfl

theorem node_fits (limits : Limits) : d.node.Fits limits := by
  constructor
  · intro role _
    have none : d.node.related role = [] := by
      rw [Node.related, d.node_relations]
      rfl
    rw [none]
    exact Nat.zero_le _
  all_goals
    intro other
    rw [d.node_kind] at other
    cases other

end Diagnostic

/-- Nodes and the diagnostics that go with them: the nodes of unknown shape are those that the
diagnostics were noted for, in the same order, and no other node bears the tag of one. -/
structure Diagnosed (nodes : List Node) (diagnostics : List Diagnostic) : Prop where
  kinds : ∀ d ∈ diagnostics, d.kind = .unrecognizedShape
  unknown : nodes.filter (·.kind == .unknownExpression) = diagnostics.map (·.node)
  untagged : ∀ n ∈ nodes, n.kind ≠ .unknownExpression → n.Untagged

namespace Diagnosed

variable {xs ys : List Node} {ds es : List Diagnostic}

theorem append (first : Diagnosed xs ds) (second : Diagnosed ys es) :
    Diagnosed (xs ++ ys) (ds ++ es) where
  kinds d member := (List.mem_append.mp member).elim (first.kinds d) (second.kinds d)
  unknown := by rw [List.filter_append, List.map_append, first.unknown, second.unknown]
  untagged n member := (List.mem_append.mp member).elim (first.untagged n) (second.untagged n)

/-- Nodes of known shape go with no diagnostic. -/
theorem known (each : ∀ n ∈ xs, n.kind ≠ .unknownExpression ∧ n.Untagged) : Diagnosed xs [] where
  kinds _ member := nomatch member
  unknown := by
    apply List.filter_eq_nil_iff.mpr
    intro n member
    simpa using (each n member).1
  untagged n member _ := (each n member).2

/-- A node of unknown shape goes with its diagnostic. -/
theorem ofNode (d : Diagnostic) (kind : d.kind = .unrecognizedShape) : Diagnosed [d.node] [d] where
  kinds e member := by rwa [List.mem_singleton.mp member]
  unknown := by simp
  untagged n member known := by
    rw [List.mem_singleton.mp member] at known
    exact absurd d.node_kind known

end Diagnosed

/-- The node of a capture is no node of unknown shape. -/
theorem ClosureReport.captureNode_untagged (r : ClosureReport) (index : Nat) (capture : Capture) :
    (r.captureNode index capture).Untagged := by
  have named : ((((Node.make (r.closure.indexed Role.captures.label index) .capturedVariable).withTags
      [.closure] |>.set "name" capture.name).set "mutation" capture.mutation.name).set
      "reference_count" capture.referenceCount).Untagged :=
    ((((Node.Bare.make _ _).withTags _).set _ _ (by decide)).set _ _ (by decide)
      |>.set _ _ (by decide)).untagged
  unfold captureNode
  apply Node.Untagged.relateAll
  cases capture.supply with
  | none => exact named.set _ _ (by decide)
  | some supply =>
      have framed := ((named.set "mapped" (Option.isSome (some supply)) (by decide)).set "frame_kind"
        supply.kind.name (by decide)).set "frame_distance" supply.distance (by decide)
      dsimp only
      cases supply.binding with
      | none => exact framed
      | some binding => exact framed.relate .boundBy binding

/-! ## Stretches that tally -/

/-- What leads from one session to the other adds nodes and reports that tally, the counts that
the nodes state are right, and the diagnostics that are added go with the nodes. -/
def Tallied (limits : Limits) (bound : Nat) (s t : Session) : Prop :=
  ∃ nodes reports, t.nodes.toList = s.nodes.toList ++ nodes ∧
    t.reports.toList = s.reports.toList ++ reports ∧ Tally limits bound nodes reports ∧
    (∀ n ∈ nodes, n.Counted t.Stands) ∧
    ∃ diagnostics, t.diagnostics.toList = s.diagnostics.toList ++ diagnostics ∧
      Diagnosed nodes diagnostics

namespace Tallied

variable {limits : Limits} {bound : Nat} {s t u : Session}

/-- Nothing is added. -/
theorem same (nodes : t.nodes = s.nodes) (reports : t.reports = s.reports)
    (diagnostics : t.diagnostics = s.diagnostics) : Tallied limits bound s t :=
  ⟨[], [], by simp [nodes], by simp [reports], .nil limits bound, fun _ member => (nomatch member), [],
    by simp [diagnostics], .known fun _ member => (nomatch member)⟩

theorem done (s : Session) : Tallied limits bound s s := same rfl rfl rfl

/-- What stands goes on standing. -/
theorem stands (tallied : Tallied limits bound s t) (address : Address) (node : Node)
    (before : s.Stands address node) : t.Stands address node := by
  obtain ⟨nodes, -, all, -⟩ := tallied
  exact ⟨all ▸ List.mem_append_left _ before.1, before.2⟩

theorem next (first : Tallied limits bound s t) (second : Tallied limits bound t u) :
    Tallied limits bound s u := by
  have grown := second.stands
  obtain ⟨xs, rs, nodes, reports, tally, counted, ds, noted, diagnosed⟩ := first
  obtain ⟨ys, qs, nodes', reports', tally', counted', es, noted', diagnosed'⟩ := second
  refine ⟨xs ++ ys, rs ++ qs, ?_, ?_, tally.append tally', ?_, ds ++ es, ?_,
    diagnosed.append diagnosed'⟩
  · rw [nodes', nodes, List.append_assoc]
  · rw [reports', reports, List.append_assoc]
  · intro n member
    rcases List.mem_append.mp member with earlier | later
    · exact (counted n earlier).mono grown
    · exact counted' n later
  · rw [noted', noted, List.append_assoc]

theorem emit {n : Node} (before : Tallied limits bound s t) (fits : n.Fits limits)
    (plain : n.kind.isPlain = true) (untagged : n.Untagged) (low : n.address.size ≤ bound)
    (counted : n.Counted (t.emit n).Stands) : Tallied limits bound s (t.emit n) := by
  simp only [NodeKind.isPlain, Bool.and_eq_true, Bool.not_eq_true', bne_iff_ne] at plain
  obtain ⟨⟨noClosure, noCapture⟩, known⟩ := plain
  exact before.next ⟨[n], [], by simp [Session.emit], by simp [Session.emit],
    .single fits noClosure noCapture low, List.forall_mem_singleton.mpr counted, [],
    by simp [Session.emit], .known (List.forall_mem_singleton.mpr ⟨known, untagged⟩)⟩

theorem framed {kind : ScopeKind} (inner : Tallied limits bound (s.enter kind) t) :
    Tallied limits bound s { t with current := s.current } := inner

theorem logged (inner : Tallied limits bound { s with readLogs := ∅ :: s.readLogs } t) :
    Tallied limits bound s { t with readLogs := t.readLogs.tail } := inner

theorem counted (inner : Tallied limits bound { s with placeholders := 0 :: s.placeholders } t) :
    Tallied limits bound s { t with placeholders := t.placeholders.tail } := inner

theorem bindAll (bindings : Bindings) (reads : Option (OrderedSet String)) :
    Tallied limits bound s (bindings.foldl (fun s binding => s.bindSymbol reads binding) s) := by
  induction bindings generalizing s with
  | nil => exact done s
  | cons b bindings ih =>
      have first : Tallied limits bound s (s.bindSymbol reads b) := same rfl rfl rfl
      exact first.next ih

theorem readAll (reads : List (String × Address)) (position : Option Position) :
    Tallied limits bound s (reads.foldl (fun s read => s.readSymbol read.1 read.2 position) s) := by
  induction reads generalizing s with
  | nil => exact done s
  | cons read reads ih =>
      have first : Tallied limits bound s (s.readSymbol read.1 read.2 position) :=
        same rfl rfl rfl
      exact first.next ih

end Tallied

/-! ## Nodes on their way -/

/-- A node on its way: it gets targets in the given roles alone, no more than the ceiling allows
where there is one, and what is emitted meanwhile tallies. -/
structure Fitting (limits : Limits) (bound : Nat) (roles : List Role) (node : Node) (s : Session)
    (result : Node) (t : Session) : Prop where
  address : result.address = node.address
  kind : result.kind = node.kind
  tag : result.property? "original_tag" = node.property? "original_tag"
  kept : ∀ role ∉ roles, result.relation role = node.relation role
  capped : ∀ role ∈ roles, role.isCapped = true → node.related role = [] →
    (result.related role).length ≤ limits.maxFanout
  tallied : Tallied limits bound s t

namespace Fitting

variable {limits : Limits} {bound : Nat} {roles more : List Role} {node middle result : Node}
  {s t u : Session}

/-- What changes no relation. -/
theorem same (address : result.address = node.address) (kind : result.kind = node.kind)
    (tag : result.property? "original_tag" = node.property? "original_tag")
    (kept : ∀ role, result.relation role = node.relation role) :
    Fitting limits bound [] node s result s :=
  ⟨address, kind, tag, fun role _ => kept role, fun _ member => (nomatch member), .done s⟩

theorem refl (node : Node) (s : Session) : Fitting limits bound [] node s node s :=
  same rfl rfl rfl fun _ => rfl

theorem set (node : Node) (name : String) (value : Property)
    (other : "original_tag" ≠ name) :
    Fitting limits bound [] node s (node.set name value) s :=
  same rfl rfl (node.property?_set_of_ne value other) fun _ => rfl

theorem withTags (node : Node) (tags : List NodeTag) :
    Fitting limits bound [] node s (node.withTags tags) s :=
  same rfl rfl rfl fun _ => rfl

theorem declare (node : Node) (role : Role) : Fitting limits bound [] node s (node.declare role) s :=
  same rfl rfl rfl (node.relation_declare role)

theorem withPosition (node : Node) (position : Option Position) :
    Fitting limits bound [] node s (node.withPosition position) s :=
  same (node.withPosition_address position) (node.withPosition_kind position)
    (node.property?_withPosition position (by decide) (by decide)) fun role =>
    Node.relation_congr role (node.withPosition_relations position)

/-- Fittings in different roles compose. -/
theorem trans (first : Fitting limits bound roles node s middle t)
    (second : Fitting limits bound more middle t result u) (disjoint : ∀ role ∈ roles, role ∉ more) :
    Fitting limits bound (roles ++ more) node s result u := by
  refine ⟨second.address.trans first.address, second.kind.trans first.kind,
    second.tag.trans first.tag, ?_, ?_, first.tallied.next second.tallied⟩
  · intro role free
    rw [List.mem_append, not_or] at free
    rw [second.kept role free.2, first.kept role free.1]
  · intro role member capped fresh
    by_cases early : role ∈ roles
    · rw [Node.related_congr role (second.kept role (disjoint role early))]
      exact first.capped role early capped fresh
    · apply second.capped role ((List.mem_append.mp member).resolve_left early) capped
      rw [Node.related_congr role (first.kept role early), fresh]

/-- What fills no role may follow any fitting. -/
theorem adjust (first : Fitting limits bound roles node s middle t)
    (second : Fitting limits bound [] middle t result u) : Fitting limits bound roles node s result u := by
  have both := first.trans second fun _ _ member => (nomatch member)
  rwa [List.append_nil] at both

theorem weaken (fitting : Fitting limits bound roles node s result t) (subset : roles ⊆ more) :
    Fitting limits bound more node s result t := by
  refine ⟨fitting.address, fitting.kind, fitting.tag,
    fun role free => fitting.kept role (free <| subset ·), ?_, fitting.tallied⟩
  intro role _ capped fresh
  by_cases member : role ∈ roles
  · exact fitting.capped role member capped fresh
  · rw [Node.related_congr role (fitting.kept role member), fresh]
    exact Nat.zero_le _

theorem andThen (first : Fitting limits bound roles node s result t) (second : Tallied limits bound t u) :
    Fitting limits bound roles node s result u :=
  { first with tallied := first.tallied.next second }

theorem framed {kind : ScopeKind} (inner : Fitting limits bound roles node (s.enter kind) result t) :
    Fitting limits bound roles node s result { t with current := s.current } :=
  { inner with tallied := inner.tallied.framed }

theorem logged
    (inner : Fitting limits bound roles node { s with readLogs := ∅ :: s.readLogs } result t) :
    Fitting limits bound roles node s result { t with readLogs := t.readLogs.tail } :=
  { inner with tallied := inner.tallied.logged }

/-- A single target in a role without a ceiling. -/
theorem single (node : Node) (role : Role) (target : Address) (free : role.isCapped = false)
    (tallied : Tallied limits bound s t) :
    Fitting limits bound [role] node s (node.relate role target) t := by
  refine ⟨rfl, rfl, rfl, ?_, ?_, tallied⟩
  · intro other differs
    exact node.relation_relate_of_ne (fun same => differs (List.mem_singleton.mpr same)) target
  · intro other member capped
    rw [List.mem_singleton.mp member, free] at capped
    cases capped

/-- Several targets in one role. -/
theorem relateAll (node : Node) (role : Role) (targets : List Address)
    (few : role.isCapped = true → targets.length ≤ limits.maxFanout)
    (tallied : Tallied limits bound s t) :
    Fitting limits bound [role] node s (node.relateAll role targets) t := by
  refine ⟨by simp, by simp, by simp, ?_, ?_, tallied⟩
  · intro other differs
    exact node.relation_relateAll_of_ne (fun same => differs (List.mem_singleton.mpr same)) targets
  · intro other member capped fresh
    obtain rfl := List.mem_singleton.mp member
    have counted := node.length_related_relateAll_le other targets
    rw [fresh] at counted
    exact Nat.le_trans counted (by simpa using few capped)

/-- All targets of a role that is noted even if it has none. -/
theorem numbered (node : Node) (role : Role) (targets : List Address)
    (few : role.isCapped = true → targets.length ≤ limits.maxFanout)
    (tallied : Tallied limits bound s t) :
    Fitting limits bound [role] node s ((node.declare role).relateAll role targets) t :=
  (declare node role).trans (relateAll _ role targets few tallied) fun _ member => (nomatch member)

theorem related (fitting : Fitting limits bound roles node s result t) {role : Role}
    (free : role ∉ roles) : result.related role = node.related role :=
  Node.related_congr role (fitting.kept role free)

/-- A node that was bare at first is within the ceilings once it is fitted. -/
theorem fits (fitting : Fitting limits bound roles node s result t) (bare : node.Bare) (role : Role)
    (capped : role.isCapped = true) : (result.related role).length ≤ limits.maxFanout := by
  by_cases member : role ∈ roles
  · exact fitting.capped role member capped (bare.related role)
  · rw [fitting.related member, bare.related]
    exact Nat.zero_le _

theorem untagged (fitting : Fitting limits bound roles node s result t) (bare : node.Bare) :
    result.Untagged :=
  fitting.tag.trans bare.untagged

/-- A fitted node is emitted, whatever counts it states. -/
theorem emitCounted (fitting : Fitting limits bound roles node s result t) (bare : node.Bare)
    (uncapped : node.kind.isUncapped = true) (low : node.address.size ≤ bound)
    (counted : result.Counted (t.emit result).Stands) : Tallied limits bound s (t.emit result) := by
  rw [← fitting.kind] at uncapped
  simp only [NodeKind.isUncapped, Bool.and_eq_true, Bool.not_eq_true', decide_eq_false_iff_not,
    List.mem_cons, List.not_mem_nil, or_false, not_or] at uncapped
  obtain ⟨plain, chain, qualifiers, placeholder⟩ := uncapped
  refine fitting.tallied.emit ⟨fitting.fits bare, ?_, ?_, ?_⟩ plain (fitting.untagged bare)
    (fitting.address ▸ low) counted
  · exact fun is => absurd is chain
  · exact fun is => absurd is qualifiers
  · exact fun is => absurd is placeholder

/-- A fitted node is emitted. -/
theorem emit (fitting : Fitting limits bound roles node s result t) (bare : node.Bare)
    (common : node.kind.isCommon = true) (low : node.address.size ≤ bound) :
    Tallied limits bound s (t.emit result) := by
  simp only [NodeKind.isCommon, Bool.and_eq_true, Bool.not_eq_true'] at common
  exact fitting.emitCounted bare common.1 low (.ofKind (fitting.kind ▸ common.2))

/-- A fitted chain is emitted, its clauses counted. -/
theorem emitChain (fitting : Fitting limits bound roles node s result t) (bare : node.Bare)
    (kind : node.kind = .withExpression) (low : node.address.size ≤ bound)
    (chain : (result.related .generator).length + (result.related .statement).length ≤ limits.maxFanout)
    (fallback : (result.related .elseBranch).length ≤ limits.maxFanout) :
    Tallied limits bound s (t.emit result) := by
  rw [← fitting.kind] at kind
  refine fitting.tallied.emit ⟨fitting.fits bare, fun _ => ⟨chain, fallback⟩, ?_, ?_⟩ (by rw [kind]; rfl)
    (fitting.untagged bare) (fitting.address ▸ low) (.ofKind (by rw [kind]; rfl))
  all_goals
    intro other
    rw [kind] at other
    cases other

/-- A fitted comprehension is emitted, its qualifiers counted. -/
theorem emitQualifiers (fitting : Fitting limits bound roles node s result t) (bare : node.Bare)
    (kind : node.kind = .comprehension) (low : node.address.size ≤ bound)
    (qualifiers : (result.related .generator).length + (result.related .filter).length ≤
      limits.maxFanout) : Tallied limits bound s (t.emit result) := by
  rw [← fitting.kind] at kind
  refine fitting.tallied.emit ⟨fitting.fits bare, ?_, fun _ => qualifiers, ?_⟩ (by rw [kind]; rfl)
    (fitting.untagged bare) (fitting.address ▸ low) (.ofKind (by rw [kind]; rfl))
  all_goals
    intro other
    rw [kind] at other
    cases other

end Fitting

/-! ## Reports -/

namespace Scopes

theorem length_summariesWithin_le {g : Scopes} {fault : Fault} {room : Nat} {scope : ScopeId}
    {chain : List FrameSummary} (h : g.summariesWithin fault room scope = .ok chain) :
    chain.length ≤ room := by
  induction room generalizing scope chain with
  | zero => cases h
  | succ room ih =>
      unfold summariesWithin at h
      split at h
      · cases h
        exact Nat.zero_le _
      · dsimp only at h
        split at h
        · cases h
          exact Nat.succ_le_succ (Nat.zero_le _)
        · obtain ⟨rest, walked, rfl⟩ := except_map_eq_ok h
          exact Nat.succ_le_succ (ih walked)

end Scopes

theorem OrderedMap.keys_rising {α : Type} (m : OrderedMap String α) : m.keys.Pairwise (· < ·) :=
  List.pairwise_map.mpr (m.rising.imp fun less => compareOfLessAndEq_eq_lt.mp less)

/-- A report is within the ceilings it was made under. -/
theorem Tracker.report_fits {tracker : Tracker} {scopes : Scopes} {enclosing : ScopeId} {limits : Limits}
    {r : ClosureReport} (h : tracker.report scopes enclosing limits = .ok r) : r.Fits limits := by
  obtain ⟨-, listed, resolved⟩ := report_cases h
  obtain ⟨few, bound⟩ := report_bound h
  have counted := (forall₂_of_mapM resolved).length_eq
  refine ⟨counted ▸ few, Scopes.length_summariesWithin_le listed, ?_, ?_⟩
  · rw [bound]
    exact tracker.bound.keys_rising
  · rw [ClosureReport.freeNames, report_names h]
    exact tracker.free.keys_rising

end SyntaxGraph
