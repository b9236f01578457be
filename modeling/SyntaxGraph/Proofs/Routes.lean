import SyntaxGraph.Proofs.Course

/-!
# Routes

A course tells that bindings entered frames and that reads were logged, but not which
patterns the bindings came from nor what became of a log. `Route` is the closer account that
every builder leaves: bindings enter a frame once the patterns that introduce them stand, in
the head of a clause, or in a match whose value was built before with a log of its own. What
the log holds then decides which of the bindings read the name that they bind again.

Forgetting the details of a route gives a course, so what is known of courses is known of
routes.
-/

namespace SyntaxGraph

/-- A node that matches a value against a pattern, with the roles that the two stand in. -/
def Node.Matches (n : Node) (ofValue ofPattern : Role) : Prop :=
  (n.kind = .matchOperator ∧ ofValue = .rightOperand ∧ ofPattern = .leftOperand) ∨
    (n.kind = .generator ∧ (ofValue = .value ∨ ofValue = .enumerable) ∧ ofPattern = .pattern)

namespace Session

/-- The moments at which the bindings of a match enter the frame, one after the other. -/
def matchMoments (s : Session) (reads : OrderedSet String) : List Binding → List Moment
  | [] => []
  | binding :: rest =>
    ⟨s, .rebind binding.name (reads.contains binding.name)⟩ ::
      (s.bindSymbol (some reads) binding).matchMoments reads rest

/-- The names read since the innermost log was opened. -/
def logged (s : Session) : OrderedSet String := s.readLogs.head?.getD ∅

end Session

/-- A stretch of a build, with the patterns behind its bindings and the logs behind its matches. -/
inductive Route (limits : Limits) : List Address → Gain → Session → Session → Prop where
  | done (s) : Route limits [] ∅ s s
  | next {xs ys g k s t u} (first : Route limits xs g s t) (second : Route limits ys k t u)
      (apart : ∀ x ∈ xs, ∀ y ∈ ys, x.Apart y) : Route limits (xs ++ ys) (g ++ k) s u
  /-- A node is emitted after its parts. -/
  | node {slots node g s t} (parts : Route limits (slots.map node.address.at) g s t)
      (holds : node.Holds slots) :
      Route limits [node.address] (g ++ .ofNode node) s (t.emit node)
  /-- A variable is read where its node stands. -/
  | symbol {name position node s} (leaf : node.Holds []) (kind : node.kind = .variable)
      (named : node.text? "name" = some name) :
      Route limits [node.address]
        (.ofMoments [⟨s, .read name node.address position⟩] ++ .ofNode node) s
        ((s.readSymbol name node.address position).emit node)
  /-- The size of a segment is read once the segment stands, and only once. -/
  | size {xs g s t name site position} (parts : Route limits xs g s t) (member : site ∈ xs)
      (fresh : ∀ m ∈ g.moments, m.reference? ≠ some site) :
      Route limits xs (g ++ .ofMoments [⟨t, .read name site position⟩]) s
        (t.readSymbol name site position)
  /-- The patterns of a head stand before their bindings enter the frame. -/
  | headed {xs g s t} {bindings : List Binding} (patterns : Route limits xs g s t)
      (introduced : ∀ b ∈ bindings, b.Introduced g.nodes) :
      Route limits xs g s (bindings.foldl (fun s b => s.bindSymbol none b) t)
  /-- A match builds its value with a log, then its pattern; then the bindings enter the frame. -/
  | matched {node ofValue ofPattern slots g k l s t u v} {bindings : List Binding}
      (valued : Route limits [node.address.at (ofValue, none)] g
        { s with readLogs := ∅ :: s.readLogs } t)
      (pattern : Route limits [node.address.at (ofPattern, none)] k
        { t with readLogs := t.readLogs.tail } u)
      (introduced : ∀ b ∈ bindings, b.Introduced k.nodes)
      (rest : Route limits (slots.map node.address.at) l
        (bindings.foldl (fun s b => s.bindSymbol (some t.logged) b) u) v)
      (holds : node.Holds ([(ofValue, none), (ofPattern, none)] ++ slots))
      (isMatch : node.Matches ofValue ofPattern) :
      Route limits [node.address]
        (g ++ (k ++ .ofMoments (u.matchMoments t.logged bindings)) ++ l ++ .ofNode node) s (v.emit node)
  | diagnose (s diagnostic) :
      Route limits [] (.ofDiagnostic diagnostic) s (s.diagnose diagnostic)
  | bound (s names) : Route limits [] ∅ s (s.boundByClosure names)
  | placeholder {s greatest rest} (index) (seen : s.placeholders = greatest :: rest) :
      Route limits [] ∅ s { s with placeholders := max greatest index :: rest }
  | framed {xs g s kind t} (inner : Route limits xs g (s.enter kind) t) :
      Route limits xs g s { t with current := s.current }
  | counted {xs g s t} (inner : Route limits xs g { s with placeholders := 0 :: s.placeholders } t) :
      Route limits xs g s { t with placeholders := t.placeholders.tail }
  /-- A closure is followed while its parts are built, and then reported. -/
  | closure {slots node g s t opened others report}
      (inner : Route limits (slots.map node.address.at) g (s.openClosure node.address) t)
      (top : t.closures = opened :: others)
      (reported : opened.tracker.report t.scopes opened.enclosing limits = .ok report)
      (holds : node.Holds (slots ++ Slot.numbered .captures 0 report.captures.length)) :
      Route limits [node.address] (g ++ .ofReport report node) s
        ((t.close opened.enclosing others report).emit node)

/-! ## Routes are courses -/

theorem Gain.append_empty (g : Gain) : g ++ ∅ = g := by
  obtain ⟨nodes, diagnostics, reports, moments⟩ := g
  change Gain.mk (nodes ++ []) (diagnostics ++ []) (reports ++ []) (moments ++ []) = _
  simp only [List.append_nil]

namespace Course

variable {limits : Limits} {xs ys : List Address} {g k : Gain} {s t u : Session} {bindings : List Binding}

/-- What builds nothing may follow any stretch. -/
theorem andThen (first : Course limits xs g s t) (second : Course limits [] k t u) :
    Course limits xs (g ++ k) s u := by
  have both := first.next second (fun _ _ _ member => (nomatch member))
  rwa [List.append_nil] at both

/-- Bindings of a head that enter the frame leave no moment behind. -/
theorem bindHead (introduced : ∀ b ∈ bindings, b.Introduced s.nodes.toList) :
    Course limits [] ∅ s (bindings.foldl (fun s b => s.bindSymbol none b) s) := by
  induction bindings generalizing s with
  | nil => exact .done s
  | cons b rest ih =>
      have first : Course limits [] (.ofMoments (s.bindMoments none b)) s (s.bindSymbol none b) :=
        .bind (introduced b List.mem_cons_self)
      exact first.andThen (ih fun c member => introduced c (List.mem_cons_of_mem _ member))

theorem bindMatch (reads : OrderedSet String) (introduced : ∀ b ∈ bindings, b.Introduced s.nodes.toList) :
    Course limits [] (.ofMoments (s.matchMoments reads bindings)) s
      (bindings.foldl (fun s b => s.bindSymbol (some reads) b) s) := by
  induction bindings generalizing s with
  | nil => exact .done s
  | cons b rest ih =>
      have first : Course limits [] (.ofMoments (s.bindMoments (some reads) b)) s
          (s.bindSymbol (some reads) b) := .bind (introduced b List.mem_cons_self)
      exact first.andThen (ih fun c member => introduced c (List.mem_cons_of_mem _ member))

/-- What a stretch introduces is introduced in the session it ends in. -/
theorem introduced (course : Course limits xs g s t) (new : ∀ b ∈ bindings, b.Introduced g.nodes) :
    ∀ b ∈ bindings, b.Introduced t.nodes.toList := by
  intro b member
  apply (new b member).mono
  rw [course.nodes_eq]
  exact List.subset_append_right _ _

end Course

/-- The details of a route may be forgotten. -/
theorem Route.course {limits : Limits} {roots : List Address} {gain : Gain} {s t : Session}
    (route : Route limits roots gain s t) : Course limits roots gain s t := by
  induction route with
  | done s => exact .done s
  | next _ _ apart first second => exact first.next second apart
  | node _ holds ih => exact ih.node holds
  | symbol leaf kind named => exact .symbol leaf kind named
  | size _ member fresh ih => exact ih.size member fresh
  | headed _ introduced ih =>
      have both := ih.andThen (.bindHead (ih.introduced introduced))
      rwa [Gain.append_empty] at both
  | @matched node ofValue ofPattern slots g k l s t u v bindings _ _ introduced _ holds _ first second last =>
      have before := first.logged.next (second.andThen (.bindMatch t.logged (second.introduced introduced)))
        fun x hx y hy => by
          rw [List.mem_singleton.mp hx, List.mem_singleton.mp hy]
          exact node.address.at_apart (List.rel_of_pairwise_cons holds.apart List.mem_cons_self)
      refine Course.node (?_ : Course limits
        (([(ofValue, none), (ofPattern, none)] ++ slots).map node.address.at) _ _ _) holds
      rw [List.map_append]
      refine before.next last fun x hx y hy => ?_
      obtain ⟨p, hp, rfl⟩ := List.mem_map.mp (show x ∈ [(ofValue, none), (ofPattern, none)].map node.address.at
        from hx)
      obtain ⟨q, hq, rfl⟩ := List.mem_map.mp hy
      exact node.address.at_apart ((List.pairwise_append.mp holds.apart).2.2 p hp q hq)
  | diagnose s diagnostic => exact .diagnose s diagnostic
  | bound s names => exact .bound s names
  | placeholder index seen => exact .placeholder index seen
  | framed _ ih => exact ih.framed
  | counted _ ih => exact ih.counted
  | closure _ top reported holds ih => exact ih.closure top reported holds

end SyntaxGraph
