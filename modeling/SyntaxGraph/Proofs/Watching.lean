import SyntaxGraph.Proofs.Views
import SyntaxGraph.Proofs.Visits

/-!
# Watching one open closure

A closure that is open is known by the number of closures around it, whatever is opened inside of
it, and what belongs to it is what was emitted since it was opened. Where no name counts as local to
it but such as patterns among those nodes introduce, a read is noted unless a pattern has the name.
Every stretch of a build keeps that: `Goes` collects what a stretch keeps of the sessions before it.
With it a stretch that visits stations tells the closure of every name that is read on the way.
-/

namespace SyntaxGraph

open Session

/-- An open closure: how many closures are open around it, and how many nodes stood when it was
opened. -/
structure Watch where
  around : Nat
  stood : Nat

/-- Lists that are related one by one have related members at every place. -/
theorem getElem?_of_forall₂ {α β : Type} {r : α → β → Prop} {xs : List α} {ys : List β}
    (each : List.Forall₂ r xs ys) {i : Nat} {x : α} (found : xs[i]? = some x) :
    ∃ y, ys[i]? = some y ∧ r x y := by
  induction each generalizing i with
  | nil => cases found
  | @cons a b as bs first rest ih =>
      cases i with
      | zero =>
          obtain rfl := Option.some.inj found
          exact ⟨b, rfl, first⟩
      | succ i => exact ih found

namespace Watch

variable {w : Watch} {s t : Session}

def closure? (w : Watch) (s : Session) : Option OpenClosure := s.closures.reverse[w.around]?

/-- The nodes that were emitted since it was opened. -/
def nodes (w : Watch) (s : Session) : List Node := s.nodes.toList.drop w.stood

/-- The names that count as local to the closure have been introduced since it was opened. -/
def Grounds (w : Watch) (s : Session) : Prop :=
  w.stood ≤ s.nodes.toList.length ∧ ∃ c env, w.closure? s = some c ∧ s.Sees c.tracker.scope env ∧
    ∀ name ∈ env, Introduces (w.nodes s) name

/-- The closure has noted a read of a name, or a pattern has introduced the name. -/
def Hears (w : Watch) (s : Session) (site : Address) (name : String) : Prop :=
  Introduces (w.nodes s) name ∨
    ∃ c, w.closure? s = some c ∧ site ∈ (c.tracker.use name).references

/-- The watched closure follows a stretch like all that are open. -/
theorem closure?_follows {moments : List Moment}
    (follows : List.Forall₂ (OpenClosure.Follows moments) s.closures t.closures) {c : OpenClosure}
    (found : w.closure? s = some c) : ∃ d, w.closure? t = some d ∧ c.Follows moments d :=
  getElem?_of_forall₂ (List.rel_reverse follows) found

/-- Nodes that are emitted come to those that were there. -/
theorem nodes_subset {new : List Node} (grown : t.nodes.toList = s.nodes.toList ++ new) :
    w.nodes s ⊆ w.nodes t := by
  rw [nodes, nodes, grown, List.drop_append]
  exact List.subset_append_left _ _

theorem new_subset {new : List Node} (grown : t.nodes.toList = s.nodes.toList ++ new)
    (stood : w.stood ≤ s.nodes.toList.length) : new ⊆ w.nodes t := by
  rw [nodes, grown, List.drop_append_of_le_length stood]
  exact List.subset_append_right _ _

/-- A closure that has just been opened. -/
theorem opened (placed : s.Placed) (small : s.scopes.size < 2 ^ 32) (site : Address) :
    Watch.Grounds ⟨s.closures.length, s.nodes.toList.length⟩ (s.openClosure site) := by
  refine ⟨Nat.le_refl _, ⟨.start site s.scopes.next, s.current⟩, [], ?_, .opened placed small site,
    fun _ member => (nomatch member)⟩
  show (_ :: s.closures).reverse[s.closures.length]? = _
  simp only [List.reverse_cons, List.getElem?_append_right, List.length_reverse, Nat.le_refl,
    Nat.sub_self, List.getElem?_cons_zero]
  rfl

/-- Closures that are opened inside do not disturb. -/
theorem closure?_openClosure {c : OpenClosure} (found : w.closure? s = some c) (site : Address) :
    w.closure? (s.openClosure site) = some c := by
  show (_ :: s.closures).reverse[w.around]? = some c
  rw [List.reverse_cons]
  exact List.getElem?_append_left (List.getElem?_eq_some_iff.mp found).1 |>.trans found

/-- Nor do such that are closed. -/
theorem closure?_of_cons {c : OpenClosure} {opened : OpenClosure} {others : List OpenClosure}
    (top : t.closures = opened :: others) (outside : w.around < others.length)
    (found : w.closure? t = some c) : others.reverse[w.around]? = some c := by
  unfold closure? at found
  rw [top, List.reverse_cons, List.getElem?_append_left (by simpa using outside)] at found
  exact found

/-- What is known of a read stays known. -/
theorem Hears.mono {site : Address} {name : String} (heard : w.Hears s site name)
    (nodes : ∃ new, t.nodes.toList = s.nodes.toList ++ new)
    (follows : ∃ moments, List.Forall₂ (OpenClosure.Follows moments) s.closures t.closures) :
    w.Hears t site name := by
  rcases heard with introduced | ⟨c, found, noted⟩
  · obtain ⟨new, grown⟩ := nodes
    exact .inl (introduced.mono (nodes_subset grown))
  · obtain ⟨moments, follows⟩ := follows
    obtain ⟨d, found', followed⟩ := closure?_follows follows found
    exact .inr ⟨d, found', Opening.references_subset followed name noted⟩

namespace Grounds

theorem enter (grounds : w.Grounds s) (small : s.scopes.size < 2 ^ 32) (kind : ScopeKind) :
    w.Grounds (s.enter kind) := by
  obtain ⟨stood, c, env, found, sees, introduced⟩ := grounds
  exact ⟨stood, c, env, found, sees.enter small kind, introduced⟩

theorem openClosure (grounds : w.Grounds s) (small : s.scopes.size < 2 ^ 32) (site : Address) :
    w.Grounds (s.openClosure site) := by
  obtain ⟨stood, c, env, found, sees, introduced⟩ := grounds
  exact ⟨stood, c, env, closure?_openClosure found site, (sees.enter small .closure).congr rfl rfl, introduced⟩

/-- A name that is read has been introduced, or the closure notes it. -/
theorem hears_read (grounds : w.Grounds s) (name : String) (site : Address)
    (position : Option Position) : w.Hears (s.readSymbol name site position) site name := by
  obtain ⟨-, c, env, found, sees, introduced⟩ := grounds
  by_cases known : name ∈ env
  · exact .inl (introduced name known)
  · obtain ⟨d, found', followed⟩ := closure?_follows (s.readSymbol_follows name site position) found
    refine .inr ⟨d, found', ?_⟩
    rw [followed.use, Tracker.references_followAll]
    have outer : (Moment.mk s (.read name site position)).isLocal c.tracker.scope = false := by
      rw [Bool.eq_false_iff]
      exact fun here => known (sees.isLocal_iff.mp here)
    have noted : (Moment.mk s (.read name site position)).readsOf name c.tracker.scope = [site] := by
      unfold Moment.readsOf
      rw [if_pos ⟨rfl, outer⟩]
      rfl
    simp [noted]

/-- What was heard while a closure was open inside stays known when it is closed. -/
theorem hears_close (grounds : w.Grounds s) {site other : Address} {name : String} {opened : OpenClosure}
    {others : List OpenClosure} {placeholders : List Int64} {report : ClosureReport}
    (follows : ∃ moments, List.Forall₂ (OpenClosure.Follows moments) (s.openClosure site).closures t.closures)
    (top : t.closures = opened :: others) (heard : w.Hears t other name) :
    w.Hears (Session.close { t with placeholders } opened.enclosing others report) other name := by
  obtain ⟨-, c, -, found, -⟩ := grounds
  obtain ⟨moments, follows⟩ := follows
  have same : s.closures.length + 1 = t.closures.length := follows.length_eq
  rw [top, List.length_cons] at same
  have outside : w.around < others.length := by
    have bound := (List.getElem?_eq_some_iff.mp found).1
    rw [List.length_reverse] at bound
    omega
  rcases heard with introduced | ⟨d, last, noted⟩
  · exact .inl (introduced.mono (nodes_subset (Session.close_nodes _ _ _ _)))
  · exact .inr ⟨d, closure?_of_cons top outside last, noted⟩

end Grounds

end Watch

/-- What a stretch of a build keeps: nodes are added, the open closures go on following, and only
introduced names come into view. -/
structure Goes (s t : Session) : Prop where
  size_le : s.scopes.size ≤ t.scopes.size
  nodes : ∃ new, t.nodes.toList = s.nodes.toList ++ new
  follows : ∃ moments, List.Forall₂ (OpenClosure.Follows moments) s.closures t.closures
  onward : t.scopes.size ≤ 2 ^ 32 → s.Placed → Onward s t
  current : t.current = s.current
  grounds : t.scopes.size ≤ 2 ^ 32 → ∀ {w : Watch}, w.Grounds s → w.Grounds t

/-- A stretch comes back to the frame it started from. -/
theorem Course.current_eq {limits : Limits} {roots : List Address} {gain : Gain} {s t : Session}
    (course : Course limits roots gain s t) : t.current = s.current := by
  induction course with
  | next _ _ _ first second => exact second.trans first
  | node _ _ ih => exact ih
  | size _ _ _ ih => exact ih
  | bound s names => exact Session.boundByClosure_current s names
  | logged _ ih => exact ih
  | counted _ ih => exact ih
  | closure inner top _ _ _ => exact (inner.opened_follows top).1
  | _ => rfl

namespace Goes

variable {s t u : Session}

theorem hears (goes : Goes s t) {w : Watch} {site : Address} {name : String} (heard : w.Hears s site name) :
    w.Hears t site name := heard.mono goes.nodes goes.follows

theorem trans (first : Goes s t) (second : Goes t u) : Goes s u := by
  obtain ⟨moments, follows⟩ := first.follows
  obtain ⟨moments', follows'⟩ := second.follows
  obtain ⟨new, nodes⟩ := first.nodes
  obtain ⟨new', nodes'⟩ := second.nodes
  have grown := second.size_le
  refine ⟨Nat.le_trans first.size_le grown, ⟨new ++ new', by rw [nodes', nodes, List.append_assoc]⟩,
    ⟨_, forall₂_follows_trans follows follows'⟩, fun small placed => ?_,
    second.current.trans first.current, fun small _ grounds => ?_⟩
  · have onward := first.onward (by omega) placed
    exact onward.trans placed (second.onward small onward.placed)
  · exact second.grounds small (first.grounds (by omega) grounds)

/-- What touches no frame keeps what is in view. -/
theorem quiet (scopes : t.scopes = s.scopes) (current : t.current = s.current)
    (nodes : ∃ new, t.nodes.toList = s.nodes.toList ++ new)
    (follows : ∃ moments, List.Forall₂ (OpenClosure.Follows moments) s.closures t.closures) :
    Goes s t := by
  refine ⟨by rw [scopes], nodes, follows, fun _ placed => (Onward.refl placed).congr scopes current,
    current, ?_⟩
  rintro - w ⟨stood, c, env, found, sees, introduced⟩
  obtain ⟨new, grown⟩ := nodes
  obtain ⟨moments, follows⟩ := follows
  obtain ⟨d, found', followed⟩ := Watch.closure?_follows follows found
  refine ⟨?_, d, env, found', ?_, fun name member => (introduced name member).mono (Watch.nodes_subset grown)⟩
  · rw [grown, List.length_append]
    exact Nat.le_add_right_of_le stood
  · rw [followed.scope]
    exact sees.congr scopes current

/-- What touches neither frames nor nodes nor closures. -/
theorem idle (scopes : t.scopes = s.scopes) (current : t.current = s.current) (nodes : t.nodes = s.nodes)
    (closures : t.closures = s.closures) : Goes s t :=
  quiet scopes current ⟨[], by rw [nodes, List.append_nil]⟩ ⟨[], closures ▸ forall₂_follows_refl _⟩

theorem refl (s : Session) : Goes s s := idle rfl rfl rfl rfl

theorem emit (s : Session) (node : Node) : Goes s (s.emit node) :=
  quiet rfl rfl ⟨[node], Session.emit_nodes s node⟩ ⟨[], forall₂_follows_refl _⟩

theorem read (s : Session) (name : String) (site : Address) (position : Option Position) :
    Goes s (s.readSymbol name site position) :=
  quiet rfl rfl ⟨[], (List.append_nil _).symm⟩ ⟨_, s.readSymbol_follows name site position⟩

theorem bound (s : Session) (names : List String) : Goes s (s.boundByClosure names) :=
  quiet (by simp) (by simp) ⟨[], by simp⟩ ⟨[], s.boundByClosure_follows names⟩

theorem bindAll_follows (s : Session) (reads : Option (OrderedSet String)) (bindings : List Binding) :
    ∃ moments, List.Forall₂ (OpenClosure.Follows moments) s.closures
      (bindings.foldl (fun s b => s.bindSymbol reads b) s).closures := by
  induction bindings generalizing s with
  | nil => exact ⟨[], forall₂_follows_refl _⟩
  | cons b rest ih =>
      obtain ⟨moments, follows⟩ := ih (s.bindSymbol reads b)
      exact ⟨_, forall₂_follows_trans (s.bindSymbol_follows reads b) follows⟩

/-- A binding that a pattern of a stretch has introduced enters the frame at its end. -/
theorem bind (goes : Goes s t) (reads : Option (OrderedSet String)) {binding : Binding} {new : List Node}
    (grown : t.nodes.toList = s.nodes.toList ++ new) (introduced : binding.Introduced new) :
    Goes s (t.bindSymbol reads binding) := by
  have follows := t.bindSymbol_follows reads binding
  obtain ⟨moments, before⟩ := goes.follows
  have size : (t.bindSymbol reads binding).scopes.size = t.scopes.size := Scopes.size_bind
  refine ⟨by rw [size]; exact goes.size_le, goes.nodes, ⟨_, forall₂_follows_trans before follows⟩, ?_,
    goes.current, ?_⟩
  · rw [size]
    intro small placed
    have onward := goes.onward small placed
    exact onward.trans placed (.bind onward.placed reads binding)
  · rw [size]
    intro small w grounds
    have stood := grounds.1
    obtain ⟨stood', c, env, found, sees, known⟩ := goes.grounds small grounds
    obtain ⟨d, found', followed⟩ := Watch.closure?_follows follows found
    refine ⟨stood', d, binding.name :: env, found', ?_, fun name member => ?_⟩
    · rw [followed.scope]
      exact sees.bind reads binding
    · cases List.mem_cons.mp member with
      | inl same =>
          rw [same]
          exact introduced.introduces.mono (Watch.new_subset (s := s) grown stood)
      | inr before => exact known name before

/-- The bindings of a position enter the frame, one after the other. -/
theorem bindAll (goes : Goes s t) (reads : Option (OrderedSet String)) {bindings : List Binding}
    {new : List Node} (grown : t.nodes.toList = s.nodes.toList ++ new)
    (introduced : ∀ b ∈ bindings, b.Introduced new) :
    Goes s (bindings.foldl (fun s b => s.bindSymbol reads b) t) := by
  induction bindings generalizing t with
  | nil => exact goes
  | cons b rest ih =>
      exact ih (goes.bind reads grown (introduced b List.mem_cons_self)) grown
        fun c member => introduced c (List.mem_cons_of_mem _ member)

/-- A frame that is opened for a stretch hides again what came into view inside of it. -/
theorem framed {kind : ScopeKind} (inner : Goes (s.enter kind) t) : Goes s { t with current := s.current } := by
  have size : (s.enter kind).scopes.size = s.scopes.size + 1 := Scopes.size_add
  have grown := inner.size_le
  have inside : t.scopes.size ≤ 2 ^ 32 → s.Placed → Onward (s.enter kind) t := fun small placed =>
    inner.onward small (Onward.enter placed (by omega) kind).placed
  have whole : t.scopes.size ≤ 2 ^ 32 → s.Placed → Onward s { t with current := s.current } :=
    fun small placed => ((Onward.enter placed (by omega) kind).trans placed (inside small placed)).leave
      placed rfl rfl
  refine ⟨Nat.le_trans (by omega) grown, inner.nodes, inner.follows, whole, rfl, ?_⟩
  intro small w grounds
  replace small : t.scopes.size ≤ 2 ^ 32 := small
  obtain ⟨stood, c, env, found, sees, introduced⟩ := grounds
  obtain ⟨new, nodes⟩ := inner.nodes
  obtain ⟨moments, follows⟩ := inner.follows
  obtain ⟨d, found', followed⟩ := Watch.closure?_follows (s := s) follows found
  refine ⟨?_, d, env, found', ?_, fun name member =>
    (introduced name member).mono (Watch.nodes_subset (s := s) nodes)⟩
  · rw [show ({ t with current := s.current } : Session).nodes.toList = s.nodes.toList ++ new from nodes,
      List.length_append]
    exact Nat.le_add_right_of_le stood
  · rw [followed.scope]
    have agrees := (inside small sees.placed).agrees_of_enter (by omega)
    have onward := whole small sees.placed
    exact sees.of_agrees agrees onward.placed.nested onward.size_le rfl

/-- What is built goes along. -/
theorem ofBuilt {limits : Limits} {roots : List Address} (built : Built limits roots s t) :
    Goes s t := by
  obtain ⟨gain, route⟩ := built
  have nodes := route.course.nodes_eq
  refine ⟨route.course.size_le, ⟨_, nodes⟩, ⟨_, route.course.follows⟩,
    fun small placed => (route.course.onward placed small).1, route.course.current_eq, ?_⟩
  rintro small w ⟨stood, c, env, found, sees, known⟩
  obtain ⟨d, found', followed⟩ := Watch.closure?_follows route.course.follows found
  obtain ⟨-, ⟨seen, sees', -, new⟩, -⟩ := route.reveals.seen small sees
  refine ⟨?_, d, seen, found', ?_, fun name member => ?_⟩
  · rw [nodes, List.length_append]
    exact Nat.le_add_right_of_le stood
  · rw [followed.scope]
    exact sees'
  · cases new name member with
    | inl before => exact (known name before).mono (Watch.nodes_subset nodes)
    | inr introduced => exact introduced.mono (Watch.new_subset nodes stood)

end Goes

/-! ## Visits that a closure hears of -/

/-- The bindings that a stretch has found are introduced if those it was given are. -/
theorem Adds.known {s t : Session} {given found : Bindings} {w : Watch}
    (adds : Adds s t given found) (stood : w.stood ≤ s.nodes.toList.length)
    (known : ∀ b ∈ given, Introduces (w.nodes s) b.name) :
    ∀ b ∈ found, Introduces (w.nodes t) b.name := by
  obtain ⟨new, grown, each⟩ := adds
  intro b member
  cases each b member with
  | inl before => exact (known b before).mono (Watch.nodes_subset grown)
  | inr introduced => exact introduced.introduces.mono (Watch.new_subset grown stood)

namespace Visits

variable {limits : Limits} {given : Bindings} {ps : List Station} {s t : Session} {w : Watch}

theorem goes (visits : Visits limits given ps s t) : Goes s t := by
  induction visits with
  | done s => exact .refl s
  | hand _ _ _ first second => exact first.trans second
  | reorder _ _ ih => exact ih
  | position _ ih => exact ih
  | emit _ => exact .emit _ _
  | diagnose _ _ => exact .idle rfl rfl rfl rfl
  | bound s names => exact .bound s names
  | symbol _ => exact (Goes.read _ _ _ _).trans (.emit _ _)
  | size _ _ _ _ ih =>
      split
      · exact ih
      · exact ih.trans (.read _ _ _ _)
  | bind _ adds ih =>
      obtain ⟨new, grown, each⟩ := adds
      exact ih.bindAll _ grown fun b member => (each b member).resolve_left nofun
  | @logged _ _ s t _ ih =>
      have opened : Goes s { s with readLogs := ∅ :: s.readLogs } := .idle rfl rfl rfl rfl
      have closed : Goes t { t with readLogs := t.readLogs.tail } := .idle rfl rfl rfl rfl
      exact (opened.trans ih).trans closed
  | framed _ ih => exact ih.framed
  | inside _ _ ih => exact ih
  | signed _ _ _ _ => exact .emit _ _
  | binary _ _ _ _ ih => exact ih.trans (.emit _ _)
  | @placeholder _ _ _ greatest rest s _ index _ _ _ _ _ _ _ =>
      have counted : Goes s { s with placeholders := max greatest index :: rest } := .idle rfl rfl rfl rfl
      exact counted.trans (.emit _ _)
  | closure _ _ _ _ _ built _ => exact .ofBuilt built

/-- A name that is met on the way is heard of where it is met. -/
theorem told (visits : Visits limits given ps s t) (small : t.scopes.size ≤ 2 ^ 32) (grounds : w.Grounds s)
    (known : ∀ b ∈ given, Introduces (w.nodes s) b.name) {p : Station} (member : p ∈ ps) {site : Address}
    {name : String} (reaches : p.Reaches (site, .name name)) : w.Hears t site name := by
  induction visits generalizing w p with
  | done => cases member
  | hand one adds two first second =>
      have before := two.goes.size_le
      cases List.mem_append.mp member with
      | inl inFirst => exact two.goes.hears (first (by omega) grounds known inFirst reaches)
      | inr inSecond =>
          exact second small (one.goes.grounds (by omega) grounds) (adds.known grounds.1 known) inSecond
            reaches
  | reorder _ same ih => exact ih small grounds known ((same _).mp member) reaches
  | position _ ih => exact ih small grounds nofun member reaches
  | emit => cases member
  | diagnose => cases member
  | bound => cases member
  | symbol =>
      cases List.mem_singleton.mp member
      cases reaches with
      | here => exact (Goes.emit _ _).hears (grounds.hears_read _ _ _)
      | inside met => cases met
  | @size _ found _ s t read _ position parts adds _ _ ih =>
      cases List.mem_append.mp member with
      | inl before =>
          split at small
          · rename_i bound
            rw [if_pos bound]
            exact ih small grounds known before reaches
          · rename_i unbound
            rw [if_neg unbound]
            exact (Goes.read _ _ _ _).hears (ih small grounds known before reaches)
      | inr own =>
          cases List.mem_singleton.mp own
          cases reaches with
          | inside met => cases met
          | here =>
              split
              · rename_i binds
                obtain ⟨b, bound, same⟩ := List.any_eq_true.mp binds
                rw [← beq_iff_eq.mp same]
                exact .inl (adds.known grounds.1 known b bound)
              · rename_i unbound
                rw [if_neg unbound] at small
                exact (parts.goes.grounds small grounds).hears_read _ _ _
  | @bind _ _ s t bindings reads patterns adds ih =>
      rw [(t.bindAll_frames reads bindings).1] at small
      exact (ih small grounds nofun member reaches).mono ⟨[], by rw [(t.bindAll_kept reads bindings).1, List.append_nil]⟩ (Goes.bindAll_follows t reads bindings)
  | @logged _ _ s _ inner ih =>
      have goes : Goes s { s with readLogs := ∅ :: s.readLogs } := .idle rfl rfl rfl rfl
      exact ih small (goes.grounds (Nat.le_trans inner.goes.size_le small) grounds) known member reaches
  | @framed _ _ s kind t inner ih =>
      have room := Session.size_lt_of_enter inner.goes.size_le small
      exact ih small (grounds.enter room kind) known member reaches
  | inside unmarked _ ih =>
      cases List.mem_singleton.mp member
      cases reaches with
      | here => cases unmarked
      | inside met further => exact ih small grounds known met further
  | signed shape =>
      cases List.mem_singleton.mp member
      cases reaches with
      | inside met =>
          rw [Part.stations, Part.patternAt, shape] at met
          cases met
  | binary shape _ _ _ ih =>
      cases List.mem_singleton.mp member
      cases reaches with
      | inside met further =>
          rw [Part.stations, Part.patternAt, shape] at met
          exact (Goes.emit _ _).hears (ih small grounds known met further)
  | placeholder shape =>
      cases List.mem_singleton.mp member
      cases reaches with
      | inside met =>
          rw [Part.stations, Part.expressionAt, shape] at met
          cases met
  | @closure _ site source pushed s t opened others report node inner _ top _ _ _ ih =>
      cases List.mem_singleton.mp member
      cases reaches with
      | inside met further =>
          -- What is heard inside is heard by closures further out as well.
          have grown : (s.openClosure site).scopes.size ≤ t.scopes.size := inner.goes.size_le
          have room := Session.size_lt_of_openClosure grown small
          have counted : Goes (s.openClosure site)
              { s.openClosure site with placeholders := pushed ++ s.placeholders } := .idle rfl rfl rfl rfl
          have inside := counted.grounds (Nat.le_trans grown small) (grounds.openClosure room site)
          have heard := ih small inside nofun met further
          exact (grounds.hears_close inner.goes.follows top heard).mono ⟨_, Session.emit_nodes _ _⟩
            ⟨[], forall₂_follows_refl _⟩

end Visits

end SyntaxGraph
