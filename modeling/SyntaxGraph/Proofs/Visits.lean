import SyntaxGraph.Proofs.Soundness
import SyntaxGraph.Proofs.Stations

/-!
# What a build visits

`Visits limits given ps s t` is the closest account of a stretch of a build that this project keeps.
The stretch leads from session `s` to session `t` and comes to every station of `ps`, and with a
station to all that is met from it. `given` are the bindings that the position a stretch belongs to
has collected before it: a variable that gives a size is read unless they or the stretch bind it.

Few nodes say more than that a tree was met: those of placeholders, of shorthand closures, of signed
numbers and of binaries in patterns. Each has a rule of its own that ties the node to the tree. What
is to be said of all builds about one of them is said by induction on visits.
-/

namespace SyntaxGraph

open Session

/-- A kind whose nodes may be emitted without an account of where they come from. -/
def NodeKind.isUnmarked : NodeKind → Bool
  | .capturePlaceholder | .shorthandClosure | .binaryPattern => false
  | _ => true

theorem Build.signedNumber?_isUnmarked {number : Source} {kind : NodeKind} {value : Property}
    (h : signedNumber? number = some (kind, value)) : kind.isUnmarked = true := by
  unfold signedNumber? at h
  split at h <;> cases h <;> rfl

/-- A tree that is visited by visiting its parts. -/
def Part.isUnmarked : Part → Bool
  | .name _ => false
  | .expression source =>
    match source.expression with
    | .placeholder _ | .closure _ => false
    | .capture body => (capturedFunction? body).isSome
    | _ => true
  | .pattern source =>
    match source.pattern with
    | .signed _ | .binary _ | .unknown _ => false
    | _ => true

/-- A stretch adds a node at an address. -/
def Places (s t : Session) (site : Address) : Prop :=
  ∃ new, t.nodes.toList = s.nodes.toList ++ new ∧ ∃ node ∈ new, node.address = site

/-- What becomes of a closure whose body was built: the counts in `pushed` were opened for it, and
`t` is the session at its end. -/
inductive Source.Closes (source : Source) (t : Session) : List Int64 → Node → Prop where
  | function {items node} (shape : source.expression = .closure items)
      (unmarked : node.kind.isUnmarked = true) : Closes source t [] node
  /-- A shorthand closure takes as many arguments as its greatest placeholder says. -/
  | shorthand {body node} (shape : source.expression = .capture body)
      (unnamed : capturedFunction? body = none) (sort : node.kind = .shorthandClosure)
      (arity : node.property? "arity" = some (.integer (t.placeholders.head?.getD 0))) :
      Closes source t [0] node

/-- A stretch of a build, with the stations it comes to. -/
inductive Visits (limits : Limits) : Bindings → List Station → Session → Session → Prop where
  | done {given} (s) : Visits limits given [] s s
  /-- What the first stretch binds is given to the second. -/
  | hand {given found ps qs s t u} (first : Visits limits given ps s t) (adds : Adds s t given found)
      (second : Visits limits found qs t u) : Visits limits given (ps ++ qs) s u
  | reorder {given ps qs s t} (all : Visits limits given ps s t) (same : ∀ q, q ∈ qs ↔ q ∈ ps) :
      Visits limits given qs s t
  /-- A position of its own starts without bindings. -/
  | position {given ps s t} (own : Visits limits [] ps s t) : Visits limits given ps s t
  | emit {given s node} (unmarked : node.kind.isUnmarked = true) : Visits limits given [] s (s.emit node)
  | diagnose {given} (s diagnostic) : Visits limits given [] s (s.diagnose diagnostic)
  | bound {given} (s names) : Visits limits given [] s (s.boundByClosure names)
  /-- A variable is read where its node stands. -/
  | symbol {given s node name position} (unmarked : node.kind.isUnmarked = true) :
      Visits limits given [(node.address, .name name)] s
        ((s.readSymbol name node.address position).emit node)
  /-- The size of a segment that stands is read, unless the position binds the name by then. The
  segment is inside of no station before. -/
  | size {given found ps s t name site position} (parts : Visits limits given ps s t)
      (adds : Adds s t given found) (placed : Places s t site)
      (outside : ∀ p ∈ ps, site.isWithin p.1 = true → p.1 = site) :
      Visits limits given (ps ++ [(site, .name name)]) s
        (if found.binds name then t else t.readSymbol name site position)
  /-- The bindings of a position enter the frame. -/
  | bind {given ps s t bindings reads} (patterns : Visits limits [] ps s t) (adds : Adds s t [] bindings) :
      Visits limits given ps s (bindings.foldl (fun s b => s.bindSymbol reads b) t)
  | logged {given ps s t} (inner : Visits limits given ps { s with readLogs := ∅ :: s.readLogs } t) :
      Visits limits given ps s { t with readLogs := t.readLogs.tail }
  | framed {given ps s kind t} (inner : Visits limits given ps (s.enter kind) t) :
      Visits limits given ps s { t with current := s.current }
  | inside {given site p s t} (unmarked : p.isUnmarked = true) (parts : Visits limits given (p.stations site) s t) :
      Visits limits given [(site, p)] s t
  | signed {given site source number s node} (shape : source.pattern = .signed number)
      (here : node.address = site) (stated : Build.signedNumber? number = some (node.kind, value))
      (holds : node.property? "value" = some value) :
      Visits limits given [(site, .pattern source)] s (s.emit node)
  | binary {given site source segments s t node} (shape : source.pattern = .binary segments)
      (parts : Visits limits given (Part.segmentsAt .pattern site segments) s t)
      (here : node.address = site) (sort : node.kind = .binaryPattern) :
      Visits limits given [(site, .pattern source)] s (t.emit node)
  /-- A placeholder is in range, and a shorthand closure around it counts it. -/
  | placeholder {given site source greatest rest s node} {index : Int64}
      (shape : source.expression = .placeholder index) (low : 1 ≤ index.toInt)
      (high : index.toInt ≤ limits.maxCaptures) (counted : s.placeholders = greatest :: rest)
      (here : node.address = site) (sort : node.kind = .capturePlaceholder)
      (stated : node.property? "index" = some (.integer index)) :
      Visits limits given [(site, .expression source)] s
        (Session.emit { s with placeholders := max greatest index :: rest } node)
  /-- A closure is followed while its parts are visited, and then reported. -/
  | closure {given site source pushed s t opened others report node}
      (inner : Visits limits [] (Part.expressionAt site source)
        { s.openClosure site with placeholders := pushed ++ s.placeholders } t)
      (closes : source.Closes t pushed node) (top : t.closures = opened :: others)
      (reported : opened.tracker.report t.scopes opened.enclosing limits = .ok report)
      (here : node.address = site)
      (built : Built limits [site] s
        ((Session.close { t with placeholders := t.placeholders.drop pushed.length } opened.enclosing others
          report).emit node)) :
      Visits limits given [(site, .expression source)] s
        ((Session.close { t with placeholders := t.placeholders.drop pushed.length } opened.enclosing others
          report).emit node)

/-! ## Nodes that a stretch adds -/

namespace Adds

variable {s t u : Session} {given found : Bindings}

/-- Only nodes matter. -/
theorem congr (adds : Adds s t given found) (nodes : u.nodes = t.nodes) : Adds s u given found := by
  obtain ⟨new, grown, each⟩ := adds
  exact ⟨new, by rw [nodes, grown], each⟩

theorem start (adds : Adds t u given found) (nodes : t.nodes = s.nodes) : Adds s u given found := by
  obtain ⟨new, grown, each⟩ := adds
  exact ⟨new, by rw [grown, nodes], each⟩

end Adds

namespace Places

variable {s t u : Session} {site : Address} {given found : Bindings}

theorem after (before : Adds s t given found) (placed : Places t u site) : Places s u site := by
  obtain ⟨old, grown, -⟩ := before
  obtain ⟨new, grown', node, member, here⟩ := placed
  exact ⟨old ++ new, by rw [grown', grown, List.append_assoc], node, List.mem_append_right _ member, here⟩

theorem andThen (placed : Places s t site) (later : Adds t u given found) : Places s u site := by
  obtain ⟨old, grown, node, member, here⟩ := placed
  obtain ⟨new, grown', -⟩ := later
  exact ⟨old ++ new, by rw [grown', grown, List.append_assoc], node, List.mem_append_left _ member, here⟩

theorem emit (s : Session) (node : Node) : Places s (s.emit node) node.address :=
  ⟨[node], Session.emit_nodes s node, node, List.mem_singleton_self _, rfl⟩

end Places

/-- Bindings that enter a frame leave nodes, reports and counts as they are. -/
theorem Session.bindAll_kept (s : Session) (reads : Option (OrderedSet String)) (bindings : List Binding) :
    (bindings.foldl (fun s b => s.bindSymbol reads b) s).nodes = s.nodes ∧
      (bindings.foldl (fun s b => s.bindSymbol reads b) s).reports = s.reports ∧
      (bindings.foldl (fun s b => s.bindSymbol reads b) s).placeholders = s.placeholders := by
  induction bindings generalizing s with
  | nil => exact ⟨rfl, rfl, rfl⟩
  | cons b rest ih => exact ih (s.bindSymbol reads b)

/-- A closure that is reported adds the nodes of its captures and its own. -/
theorem Session.emit_close_nodes (t : Session) (placeholders : List Int64) (enclosing : ScopeId)
    (others : List OpenClosure) (report : ClosureReport) (node : Node) :
    ((Session.close { t with placeholders } enclosing others report).emit node).nodes.toList =
      t.nodes.toList ++ (report.captureNodes ++ [node]) := by
  rw [Session.emit_nodes, Session.close_nodes, List.append_assoc]

namespace Visits

variable {limits : Limits} {given found more : Bindings} {ps qs : List Station} {s t u : Session}

/-- A stretch only adds nodes. -/
theorem adds (visits : Visits limits given ps s t) (more : Bindings) : Adds s t more more := by
  induction visits generalizing more with
  | done s => exact .refl s more
  | hand _ _ _ first second => exact (first more).trans (second more)
  | reorder _ _ ih => exact ih more
  | position _ ih => exact ih more
  | emit _ => exact (Adds.refl _ more).emit _
  | diagnose s _ => exact .refl s more
  | bound s names => exact (Adds.refl s more).congr (by simp)
  | symbol _ => exact ((Adds.refl _ more).congr rfl).emit _
  | size _ _ _ _ ih =>
      split
      · exact ih more
      · exact (ih more).congr rfl
  | bind _ _ ih => exact (ih more).congr (Session.bindAll_kept _ _ _).1
  | logged _ ih => exact ((ih more).start rfl).congr rfl
  | framed _ ih => exact ((ih more).start rfl).congr rfl
  | inside _ _ ih => exact ih more
  | signed _ _ _ _ => exact (Adds.refl _ more).emit _
  | binary _ _ _ _ ih => exact (ih more).emit _
  | placeholder _ _ _ _ _ _ _ => exact ((Adds.refl _ more).congr rfl).emit _
  | closure _ _ _ _ _ built _ => exact .ofBuilt built more

/-- Stretches that bind nothing follow each other. -/
theorem next (first : Visits limits given ps s t) (second : Visits limits given qs t u) :
    Visits limits given (ps ++ qs) s u := first.hand (first.adds given) second

/-- Where a stretch comes to nothing new. -/
theorem andThen (first : Visits limits given ps s t) (second : Visits limits given [] t u) :
    Visits limits given ps s u := by
  have both := first.next second
  rwa [List.append_nil] at both

theorem emitUnmarked (visits : Visits limits given ps s t) {node : Node} (unmarked : node.kind.isUnmarked = true) :
    Visits limits given ps s (t.emit node) := visits.andThen (.emit unmarked)

/-- Sizes of segments that stand are read one after the other. -/
theorem sizes (visits : Visits limits given ps s t) (adds : Adds s t given found)
    (position : Option Position) {sizes : List (String × Address)}
    (placed : ∀ size ∈ sizes, Places s t size.2)
    (outside : ∀ size ∈ sizes, ∀ p ∈ ps ++ sizes.map fun size => (size.2, Part.name size.1),
      size.2.isWithin p.1 = true → p.1 = size.2) :
    Visits limits given (ps ++ sizes.map fun size => (size.2, .name size.1)) s
      ((sizes.filter fun size => !found.binds size.1).foldl
        (fun s read => s.readSymbol read.1 read.2 position) t) := by
  induction sizes generalizing ps t with
  | nil => simpa using visits
  | cons size sizes ih =>
      have first : Visits limits given (ps ++ [(size.2, .name size.1)]) s
          (if found.binds size.1 then t else t.readSymbol size.1 size.2 position) :=
        visits.size adds (placed size List.mem_cons_self) fun p member =>
          outside size List.mem_cons_self p (List.mem_append_left _ member)
      have same : (if found.binds size.1 then t else t.readSymbol size.1 size.2 position).nodes = t.nodes := by
        split <;> rfl
      have rest := ih first (adds.congr same)
        (fun other member => (placed other (List.mem_cons_of_mem _ member)).andThen ((Adds.refl t []).congr same))
        fun other member p among => outside other (List.mem_cons_of_mem _ member) p (by simpa using among)
      rw [List.append_assoc] at rest
      cases binds : found.binds size.1 with
      | true => simpa [binds] using rest
      | false => simpa [binds] using rest

end Visits

/-! ## What stations leave -/

/-- What a station that was met leaves among the nodes, and what it says of the source. A name stands
where it is read, a placeholder is in range, no pattern is of unknown shape, and a signed number is
stored with its sign. -/
def Station.Leaves (limits : Limits) (nodes : List Node) : Station → Prop
  | (site, .name _) => ∃ n ∈ nodes, n.address = site
  | (_, .expression source) => ∀ index, source.expression = .placeholder index →
      1 ≤ index.toInt ∧ index.toInt ≤ limits.maxCaptures
  | (site, .pattern source) => (∀ tag, source.pattern ≠ .unknown tag) ∧
      ∀ number, source.pattern = .signed number → ∃ n ∈ nodes, n.address = site ∧
        ∃ value, Build.signedNumber? number = some (n.kind, value) ∧ n.property? "value" = some value

theorem Station.Leaves.mono {limits : Limits} {nodes more : List Node} {q : Station}
    (leaves : q.Leaves limits nodes) (subset : nodes ⊆ more) : q.Leaves limits more := by
  obtain ⟨site, part⟩ := q
  cases part with
  | name =>
      obtain ⟨n, member, here⟩ := leaves
      exact ⟨n, subset member, here⟩
  | expression => exact leaves
  | pattern =>
      refine ⟨leaves.1, fun number shape => ?_⟩
      obtain ⟨n, member, stored⟩ := leaves.2 number shape
      exact ⟨n, subset member, stored⟩

/-- A tree without a rule of its own leaves nothing of its own. -/
theorem Part.leaves_of_isUnmarked {limits : Limits} {p : Part} (unmarked : p.isUnmarked = true)
    (site : Address) (nodes : List Node) : Station.Leaves limits nodes (site, p) := by
  cases p with
  | name => cases unmarked
  | expression source =>
      intro index shape
      rw [Part.isUnmarked, shape] at unmarked
      cases unmarked
  | pattern source =>
      refine ⟨fun tag shape => ?_, fun number shape => ?_⟩ <;>
      · rw [Part.isUnmarked, shape] at unmarked
        cases unmarked

/-- Stations and nodes that account for each other: what is met leaves what belongs to it, and a binary
among patterns stands where one is matched against. -/
structure Accounts (limits : Limits) (ps : List Station) (nodes : List Node) : Prop where
  leaves : ∀ p ∈ ps, ∀ q, p.Reaches q → q.Leaves limits nodes
  binaries : ∀ n ∈ nodes, n.kind = .binaryPattern → ∃ p ∈ ps, ∃ source segments,
    p.Reaches (n.address, .pattern source) ∧ source.pattern = .binary segments

namespace Accounts

variable {limits : Limits} {ps qs : List Station} {nodes more : List Node} {site : Address} {p : Part}

theorem others (plain : ∀ n ∈ nodes, n.kind ≠ .binaryPattern) : Accounts limits [] nodes :=
  ⟨nofun, fun n member sort => absurd sort (plain n member)⟩

theorem node {node : Node} (plain : node.kind ≠ .binaryPattern) : Accounts limits [] [node] :=
  .others (List.forall_mem_singleton.mpr plain)

theorem append (first : Accounts limits ps nodes) (second : Accounts limits qs more) :
    Accounts limits (ps ++ qs) (nodes ++ more) := by
  refine ⟨fun p member q reaches => ?_, fun n member sort => ?_⟩
  · cases List.mem_append.mp member with
    | inl inFirst => exact (first.leaves p inFirst q reaches).mono (List.subset_append_left _ _)
    | inr inSecond => exact (second.leaves p inSecond q reaches).mono (List.subset_append_right _ _)
  · cases List.mem_append.mp member with
    | inl inFirst =>
        obtain ⟨p, among, rest⟩ := first.binaries n inFirst sort
        exact ⟨p, List.mem_append_left _ among, rest⟩
    | inr inSecond =>
        obtain ⟨p, among, rest⟩ := second.binaries n inSecond sort
        exact ⟨p, List.mem_append_right _ among, rest⟩

theorem andThen (first : Accounts limits ps nodes) (second : Accounts limits [] more) :
    Accounts limits ps (nodes ++ more) := by
  have both := first.append second
  rwa [List.append_nil] at both

theorem reorder (accounts : Accounts limits ps nodes) (same : ∀ q, q ∈ qs ↔ q ∈ ps) :
    Accounts limits qs nodes := by
  refine ⟨fun p member => accounts.leaves p ((same p).mp member), fun n member sort => ?_⟩
  obtain ⟨p, among, rest⟩ := accounts.binaries n member sort
  exact ⟨p, (same p).mpr among, rest⟩

/-- A station that leaves what belongs to it, with all that is met from it. -/
theorem enclose (inner : Accounts limits (p.stations site) nodes)
    (own : Station.Leaves limits nodes (site, p)) : Accounts limits [(site, p)] nodes := by
  refine ⟨fun first member q reaches => ?_, fun n member sort => ?_⟩
  · cases List.mem_singleton.mp member
    cases reaches with
    | here => exact own
    | inside met further => exact inner.leaves _ met q further
  · obtain ⟨q, met, source, segments, reaches, shape⟩ := inner.binaries n member sort
    exact ⟨_, List.mem_singleton_self _, source, segments, .inside met reaches, shape⟩

/-- A name that is read where a node stands. -/
theorem andName (accounts : Accounts limits ps nodes) {name : String} (stands : ∃ n ∈ nodes, n.address = site) :
    Accounts limits (ps ++ [(site, .name name)]) nodes := by
  refine ⟨fun p member q reaches => ?_, fun n member sort => ?_⟩
  · cases List.mem_append.mp member with
    | inl before => exact accounts.leaves p before q reaches
    | inr own =>
        cases List.mem_singleton.mp own
        cases reaches with
        | here => exact stands
        | inside met => cases met
  · obtain ⟨p, among, rest⟩ := accounts.binaries n member sort
    exact ⟨p, List.mem_append_left _ among, rest⟩

/-- A binary among patterns comes after its segments. -/
theorem binary {source : Source} {segments : List Source} {node : Node}
    (parts : Accounts limits (Part.segmentsAt .pattern site segments) nodes)
    (shape : source.pattern = .binary segments) (here : node.address = site) :
    Accounts limits [(site, .pattern source)] (nodes ++ [node]) := by
  have same : Part.stations site (.pattern source) = Part.segmentsAt .pattern site segments := by
    rw [Part.stations, Part.patternAt, shape]
  refine ⟨fun first member q reaches => ?_, fun n member sort => ⟨_, List.mem_singleton_self _, ?_⟩⟩
  · cases List.mem_singleton.mp member
    cases reaches with
    | here => exact ⟨fun tag other => (nomatch shape.symm.trans other),
        fun n other => (nomatch shape.symm.trans other)⟩
    | inside met further => exact (parts.leaves _ (same ▸ met) q further).mono (List.subset_append_left _ _)
  · cases List.mem_append.mp member with
    | inl deeper =>
        obtain ⟨q, met, inner, others, reaches, other⟩ := parts.binaries n deeper sort
        exact ⟨inner, others, .inside (same ▸ met) reaches, other⟩
    | inr last =>
        obtain rfl := List.mem_singleton.mp last
        exact ⟨source, segments, here ▸ .here _, shape⟩

end Accounts

/-- The stations that a stretch comes to and the nodes it adds account for each other. -/
theorem Visits.accounts {limits : Limits} {given : Bindings} {ps : List Station} {s t : Session}
    (visits : Visits limits given ps s t) :
    ∃ new, t.nodes.toList = s.nodes.toList ++ new ∧ Accounts limits ps new := by
  have plain : ∀ {node : Node}, node.kind.isUnmarked = true → Accounts limits [] [node] :=
    fun unmarked => .node fun sort => by
      rw [sort] at unmarked
      cases unmarked
  induction visits with
  | done => exact ⟨[], (List.append_nil _).symm, .others nofun⟩
  | hand _ _ _ first second =>
      obtain ⟨new, grown, before⟩ := first
      obtain ⟨more, grown', after⟩ := second
      exact ⟨new ++ more, by rw [grown', grown, List.append_assoc], before.append after⟩
  | reorder _ same ih =>
      obtain ⟨new, grown, accounts⟩ := ih
      exact ⟨new, grown, accounts.reorder same⟩
  | position _ ih => exact ih
  | emit unmarked => exact ⟨_, Session.emit_nodes _ _, plain unmarked⟩
  | diagnose => exact ⟨[], (List.append_nil _).symm, .others nofun⟩
  | bound => exact ⟨[], by simp, .others nofun⟩
  | symbol unmarked =>
      refine ⟨_, Session.emit_nodes _ _, .enclose (plain unmarked) ?_⟩
      exact ⟨_, List.mem_singleton_self _, rfl⟩
  | @size _ found _ s t name site position _ _ placed _ ih =>
      obtain ⟨new, grown, accounts⟩ := ih
      obtain ⟨added, grown', stands⟩ := placed
      have same : (if found.binds name then t else t.readSymbol name site position).nodes = t.nodes := by
        split <;> rfl
      rw [List.append_cancel_left (grown'.symm.trans grown)] at stands
      exact ⟨new, by rw [same, grown], accounts.andName stands⟩
  | bind _ _ ih =>
      obtain ⟨new, grown, accounts⟩ := ih
      exact ⟨new, by rw [(Session.bindAll_kept _ _ _).1, grown], accounts⟩
  | logged _ ih => exact ih
  | framed _ ih => exact ih
  | inside unmarked _ ih =>
      obtain ⟨new, grown, accounts⟩ := ih
      exact ⟨new, grown, accounts.enclose (Part.leaves_of_isUnmarked unmarked _ new)⟩
  | @signed value _ site source number s node shape here stated holds =>
      refine ⟨_, Session.emit_nodes _ _, .enclose ?_ ⟨fun tag other => ?_, fun n other => ?_⟩⟩
      · rw [Part.stations, Part.patternAt, shape]
        exact plain (Build.signedNumber?_isUnmarked stated)
      · cases shape.symm.trans other
      · obtain rfl := Pattern.signed.inj (shape.symm.trans other)
        exact ⟨node, List.mem_singleton_self _, here, value, stated, holds⟩
  | binary shape _ here _ ih =>
      obtain ⟨new, grown, accounts⟩ := ih
      exact ⟨_, by rw [Session.emit_nodes, grown, List.append_assoc], accounts.binary shape here⟩
  | placeholder shape low high _ _ sort _ =>
      refine ⟨_, Session.emit_nodes _ _, .enclose ?_ fun other same => ?_⟩
      · rw [Part.stations, Part.expressionAt, shape]
        exact .node (by simp [sort])
      · obtain rfl := Expression.placeholder.inj (shape.symm.trans same)
        exact ⟨low, high⟩
  | @closure _ site source pushed s t opened others report node _ closes _ _ _ _ ih =>
      obtain ⟨new, grown, accounts⟩ := ih
      have captured : ∀ n ∈ report.captureNodes, n.kind ≠ .binaryPattern := fun n member => by
        rw [ClosureReport.kind_of_mem_captureNodes member]
        decide
      have closing : Accounts limits [] [node] := by
        cases closes with
        | function _ unmarked => exact plain unmarked
        | shorthand _ _ sort _ => exact .node (by simp [sort])
      have whole : Accounts limits _ (new ++ (report.captureNodes ++ [node])) :=
        accounts.andThen ((Accounts.others captured).andThen closing)
      refine ⟨_, ?_, whole.enclose fun index shape => ?_⟩
      · rw [Session.emit_close_nodes, grown, List.append_assoc]
        rfl
      · cases closes with
        | function other => cases other.symm.trans shape
        | shorthand other => cases other.symm.trans shape

/-- What is built at a level is visited, as an expression or as a pattern. -/
structure Level.Visits (level : Level) : Prop where
  sound : level.Sound
  expression : ∀ {limits site source s t},
    (level.expression site source).Yields limits s () t →
    SyntaxGraph.Visits limits [] [(site, .expression source)] s t
  pattern : ∀ {limits site source bindings result s t},
    (level.pattern site source bindings).Yields limits s result t →
    SyntaxGraph.Visits limits bindings [(site, .pattern source)] s t

end SyntaxGraph
