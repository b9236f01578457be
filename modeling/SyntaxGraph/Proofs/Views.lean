import SyntaxGraph.Proofs.Lexical
import SyntaxGraph.Proofs.Reads

/-!
# What comes into view along a route

Seen from inside of a frame, a stretch of a build takes no name out of view, and a name that
comes into view is one that a pattern of the stretch introduces. Frames that are opened on the
way give back the names they started from, so this holds at the end of a stretch and at each of
its moments. A name that no pattern of a stretch introduces is therefore local throughout the
stretch or nowhere in it.
-/

namespace SyntaxGraph

open Session

/-- A pattern among the nodes introduces a name. -/
def Introduces (nodes : List Node) (name : String) : Prop :=
  ∃ p ∈ nodes, p.IsNamed .variablePattern name

instance (n : Node) (kind : NodeKind) (name : String) : Decidable (n.IsNamed kind name) :=
  inferInstanceAs (Decidable (_ ∧ _))

instance (nodes : List Node) (name : String) : Decidable (Introduces nodes name) :=
  inferInstanceAs (Decidable (∃ p ∈ nodes, _))

theorem Introduces.mono {nodes more : List Node} {name : String} (introduces : Introduces nodes name)
    (subset : nodes ⊆ more) : Introduces more name := by
  obtain ⟨p, member, named⟩ := introduces
  exact ⟨p, subset member, named⟩

theorem Binding.Introduced.introduces {nodes : List Node} {binding : Binding}
    (introduced : binding.Introduced nodes) : Introduces nodes binding.name := by
  obtain ⟨p, member, -, kind, named⟩ := introduced
  exact ⟨p, member, kind, named⟩

/-- From inside of a frame the names of a list are in view, and whatever else is in view is
introduced by the nodes. -/
def Session.Beholds (u : Session) (scope : ScopeId) (env : List String) (nodes : List Node) : Prop :=
  ∃ seen, u.Sees scope seen ∧ env ⊆ seen ∧ ∀ name ∈ seen, name ∈ env ∨ Introduces nodes name

namespace Session.Beholds

variable {s u : Session} {scope : ScopeId} {env seen : List String} {nodes more : List Node}

theorem ofSees (sees : u.Sees scope env) : u.Beholds scope env nodes :=
  ⟨env, sees, List.Subset.refl _, fun _ member => .inl member⟩

/-- What a later stretch brings into view comes on top. -/
theorem after (beholds : u.Beholds scope seen more) (kept : env ⊆ seen)
    (new : ∀ name ∈ seen, name ∈ env ∨ Introduces nodes name) :
    u.Beholds scope env (nodes ++ more) := by
  obtain ⟨later, sees, kept', new'⟩ := beholds
  refine ⟨later, sees, List.Subset.trans kept kept', fun name member => ?_⟩
  cases new' name member with
  | inl before =>
      cases new name before with
      | inl first => exact .inl first
      | inr introduces => exact .inr (introduces.mono (List.subset_append_left _ _))
  | inr introduces => exact .inr (introduces.mono (List.subset_append_right _ _))

theorem mono (beholds : u.Beholds scope env nodes) (subset : nodes ⊆ more) :
    u.Beholds scope env more := by
  obtain ⟨seen, sees, kept, new⟩ := beholds
  exact ⟨seen, sees, kept, fun name member => (new name member).imp_right (·.mono subset)⟩

theorem congr (beholds : s.Beholds scope env nodes) (scopes : u.scopes = s.scopes)
    (current : u.current = s.current) : u.Beholds scope env nodes := by
  obtain ⟨seen, sees, rest⟩ := beholds
  exact ⟨seen, sees.congr scopes current, rest⟩

theorem bind (beholds : u.Beholds scope env nodes) (reads : Option (OrderedSet String))
    {binding : Binding} (introduced : binding.Introduced nodes) :
    (u.bindSymbol reads binding).Beholds scope env nodes := by
  obtain ⟨seen, sees, kept, new⟩ := beholds
  refine ⟨binding.name :: seen, sees.bind reads binding, List.Subset.trans kept (List.subset_cons_self _ _), ?_⟩
  intro name member
  cases List.mem_cons.mp member with
  | inl same =>
      rw [same]
      exact .inr introduced.introduces
  | inr before => exact new name before

/-- Bindings enter the frame one after the other. -/
theorem bindAll (beholds : u.Beholds scope env nodes) (reads : Option (OrderedSet String))
    {bindings : List Binding} (introduced : ∀ b ∈ bindings, b.Introduced nodes) :
    (bindings.foldl (fun s b => s.bindSymbol reads b) u).Beholds scope env nodes := by
  induction bindings generalizing u with
  | nil => exact beholds
  | cons b rest ih =>
      exact ih (beholds.bind reads (introduced b List.mem_cons_self))
        fun c member => introduced c (List.mem_cons_of_mem _ member)

theorem matchMoments (beholds : u.Beholds scope env nodes) (reads : OrderedSet String)
    {bindings : List Binding} (introduced : ∀ b ∈ bindings, b.Introduced nodes) {m : Moment}
    (member : m ∈ u.matchMoments reads bindings) : m.session.Beholds scope env nodes := by
  induction bindings generalizing u with
  | nil => exact (nomatch member)
  | cons b rest ih =>
      cases List.mem_cons.mp member with
      | inl here =>
          rw [here]
          exact beholds
      | inr later =>
          exact ih (beholds.bind (some reads) (introduced b List.mem_cons_self))
            (fun c member => introduced c (List.mem_cons_of_mem _ member)) later

/-- Names of the list are local. -/
theorem isLocal {m : Moment} (beholds : m.session.Beholds scope env nodes) (known : m.name ∈ env) :
    m.isLocal scope = true := by
  obtain ⟨seen, sees, kept, -⟩ := beholds
  exact sees.isLocal_iff.mpr (kept known)

/-- What is local is of the list or introduced by the nodes. -/
theorem of_isLocal {m : Moment} (beholds : m.session.Beholds scope env nodes)
    (here : m.isLocal scope = true) : m.name ∈ env ∨ Introduces nodes m.name := by
  obtain ⟨seen, sees, -, new⟩ := beholds
  exact new m.name (sees.isLocal_iff.mp here)

end Session.Beholds

/-- Bindings open no frame and leave none. -/
theorem Session.bindAll_frames (s : Session) (reads : Option (OrderedSet String))
    (bindings : List Binding) :
    (bindings.foldl (fun s b => s.bindSymbol reads b) s).scopes.size = s.scopes.size ∧
      (bindings.foldl (fun s b => s.bindSymbol reads b) s).current = s.current := by
  induction bindings generalizing s with
  | nil => exact ⟨rfl, rfl⟩
  | cons b rest ih =>
      obtain ⟨size, current⟩ := ih (s.bindSymbol reads b)
      exact ⟨size.trans Scopes.size_bind, current⟩

/-- A stretch that hides no name and brings into view only such as its nodes introduce. -/
structure Reveals (gain : Gain) (s t : Session) : Prop where
  size_le : s.scopes.size ≤ t.scopes.size
  seen : t.scopes.size ≤ 2 ^ 32 → ∀ {scope env}, s.Sees scope env →
    t.current = s.current ∧ t.Beholds scope env gain.nodes ∧
      ∀ m ∈ gain.moments, m.session.Beholds scope env gain.nodes

namespace Reveals

variable {g k : Gain} {s t u : Session}

/-- What changes no frame reveals nothing, and its moments see what its start does. -/
theorem quiet (scopes : t.scopes = s.scopes) (current : t.current = s.current)
    (moments : ∀ m ∈ g.moments, m.session = s) : Reveals g s t := by
  refine ⟨by rw [scopes], fun _ {scope env} sees => ⟨current, ?_, ?_⟩⟩
  · exact .ofSees (sees.congr scopes current)
  · intro m member
    rw [moments m member]
    exact .ofSees sees

theorem next (first : Reveals g s t) (second : Reveals k t u) : Reveals (g ++ k) s u := by
  have grown := second.size_le
  refine ⟨Nat.le_trans first.size_le grown, fun small {scope env} sees => ?_⟩
  obtain ⟨current, ⟨seen, sees', kept, new⟩, moments⟩ := first.seen (by omega) sees
  obtain ⟨current', beholds, moments'⟩ := second.seen small sees'
  refine ⟨current'.trans current, beholds.after kept new, fun m member => ?_⟩
  cases List.mem_append.mp member with
  | inl earlier => exact (moments m earlier).mono (List.subset_append_left _ _)
  | inr later => exact (moments' m later).after kept new

/-- What touches no frame may come before or after. -/
theorem congr {s' t' : Session} (reveals : Reveals g s t) (scopes : s.scopes = s'.scopes)
    (current : s.current = s'.current) (scopes' : t'.scopes = t.scopes)
    (current' : t'.current = t.current) : Reveals g s' t' := by
  refine ⟨?_, ?_⟩
  · rw [← scopes, scopes']
    exact reveals.size_le
  · rw [scopes']
    intro small scope env sees
    obtain ⟨same, beholds, moments⟩ := reveals.seen small (sees.congr scopes current)
    exact ⟨(current'.trans same).trans current, beholds.congr scopes' current', moments⟩

/-- Bindings of a stretch that enter the frame at its end. -/
theorem bindAll (reveals : Reveals g s t) (reads : Option (OrderedSet String))
    {bindings : List Binding} (introduced : ∀ b ∈ bindings, b.Introduced g.nodes) :
    Reveals g s (bindings.foldl (fun s b => s.bindSymbol reads b) t) := by
  obtain ⟨size, current⟩ := t.bindAll_frames reads bindings
  refine ⟨by rw [size]; exact reveals.size_le, ?_⟩
  rw [size, current]
  intro small scope env sees
  obtain ⟨same, beholds, moments⟩ := reveals.seen small sees
  exact ⟨same, beholds.bindAll reads introduced, moments⟩

/-- So do the bindings of a match, each at a moment of its own. -/
theorem bindMatch (reveals : Reveals g s t) (reads : OrderedSet String)
    {bindings : List Binding} (introduced : ∀ b ∈ bindings, b.Introduced g.nodes) :
    Reveals (g ++ .ofMoments (t.matchMoments reads bindings)) s
      (bindings.foldl (fun s b => s.bindSymbol (some reads) b) t) := by
  have entered := reveals.bindAll (some reads) introduced
  have nodes : (g ++ Gain.ofMoments (t.matchMoments reads bindings)).nodes = g.nodes :=
    List.append_nil _
  refine ⟨entered.size_le, fun small {scope env} sees => ?_⟩
  obtain ⟨same, beholds, moments⟩ := entered.seen small sees
  rw [nodes]
  refine ⟨same, beholds, fun m member => ?_⟩
  cases List.mem_append.mp member with
  | inl earlier => exact moments m earlier
  | inr here =>
      rw [(t.bindAll_frames (some reads) bindings).1] at small
      exact (reveals.seen small sees).2.1.matchMoments reads introduced here

/-- A frame that is opened for a stretch gives back the names it started from. -/
theorem framed {entered : Session} {kind : ScopeKind} (inner : Reveals g entered t)
    (scopes : entered.scopes = (s.enter kind).scopes) (current : entered.current = (s.enter kind).current)
    (onward : s.Placed → t.scopes.size ≤ 2 ^ 32 → Onward (s.enter kind) t)
    (scopes' : u.scopes = t.scopes) (current' : u.current = s.current) : Reveals g s u := by
  have size : (s.enter kind).scopes.size = s.scopes.size + 1 := Scopes.size_add
  have grown := inner.size_le
  rw [scopes, size] at grown
  refine ⟨by rw [scopes']; omega, ?_⟩
  rw [scopes']
  intro small scope env sees
  have inside := onward sees.placed small
  have whole := ((Onward.enter sees.placed (by omega) kind).trans sees.placed inside).leave sees.placed
    scopes' current'
  have agrees := inside.agrees_of_enter (by omega)
  rw [← scopes'] at agrees
  obtain ⟨-, -, moments⟩ := inner.seen small ((sees.enter (by omega) kind).congr scopes current)
  refine ⟨current', .ofSees ?_, moments⟩
  exact sees.of_agrees agrees whole.placed.nested whole.size_le current'

end Reveals

/-- Every route reveals what its nodes introduce. -/
theorem Route.reveals {limits : Limits} {roots : List Address} {gain : Gain} {s t : Session}
    (route : Route limits roots gain s t) : Reveals gain s t := by
  induction route with
  | done s => exact .quiet rfl rfl fun _ none => (nomatch none)
  | next _ _ _ first second => exact first.next second
  | node _ _ ih => exact ih.next (.quiet rfl rfl fun _ none => (nomatch none))
  | symbol _ _ _ => exact .quiet rfl rfl fun m member => by rw [List.mem_singleton.mp member]
  | size _ _ _ ih =>
      exact ih.next (.quiet rfl rfl fun m member => by rw [List.mem_singleton.mp member])
  | headed _ introduced ih => exact ih.bindAll none introduced
  | @matched _ _ _ _ g k _ s t u _ _ _ _ introduced _ _ _ valued pattern rest =>
      have value : Reveals g s t := valued.congr rfl rfl rfl rfl
      have bound := (pattern.congr rfl rfl rfl rfl : Reveals k t u).bindMatch t.logged introduced
      exact ((value.next bound).next rest).next (.quiet rfl rfl fun _ none => (nomatch none))
  | diagnose s diagnostic => exact .quiet rfl rfl fun _ none => (nomatch none)
  | bound s names => exact .quiet (by simp) (by simp) fun _ none => (nomatch none)
  | placeholder _ _ => exact .quiet rfl rfl fun _ none => (nomatch none)
  | @framed _ _ s kind t inner ih =>
      refine ih.framed rfl rfl (fun placed small => ?_) rfl rfl
      have room := Session.size_lt_of_enter inner.course.size_le small
      exact (inner.course.onward (Onward.enter placed room kind).placed small).1
  | counted _ ih => exact ih.congr rfl rfl rfl rfl
  | @closure _ node g s t opened others report inner top _ _ ih =>
      have inside : Reveals g s (t.close opened.enclosing others report) := by
        have scopes : (s.openClosure node.address).scopes = (s.enter .closure).scopes := rfl
        refine ih.framed scopes rfl (fun placed small => ?_) rfl (inner.course.opened_follows top).1
        have room := Session.size_lt_of_openClosure inner.course.size_le small
        have entered := Onward.openClosure placed room node.address
        exact (inner.course.onward entered.placed small).1.start rfl rfl
      exact inside.next (.quiet rfl rfl fun _ none => (nomatch none))

/-! ## Closures on a route -/

/-- Logs play no part in where a session stands. -/
theorem Session.Placed.logs {s : Session} (placed : s.Placed) {logs : List (OrderedSet String)} :
    Session.Placed { s with readLogs := logs } := ⟨placed.nested, placed.standing⟩

theorem Session.Placed.bindAll {s : Session} (placed : s.Placed) (reads : Option (OrderedSet String))
    (bindings : List Binding) : (bindings.foldl (fun s b => s.bindSymbol reads b) s).Placed := by
  induction bindings generalizing s with
  | nil => exact placed
  | cons b rest ih => exact ih (Onward.bind placed reads b).placed

/-- A closure on a route: its own route, from where it was opened to its report. -/
def Enclosed (limits : Limits) (gain : Gain) (t : Session) (report : ClosureReport) : Prop :=
  ∃ (slots : List Slot) (before : Session) (inner : Gain) (after : Session) (opened : OpenClosure)
    (others : List OpenClosure),
    Route limits (slots.map report.closure.at) inner (before.openClosure report.closure) after ∧
    after.closures = opened :: others ∧
    opened.tracker.report after.scopes opened.enclosing limits = .ok report ∧
    before.Placed ∧ after.scopes.size ≤ t.scopes.size ∧ inner.nodes ⊆ gain.nodes

/-- What encloses a part of a route encloses the closures of that part. -/
theorem Enclosed.mono {limits : Limits} {g k : Gain} {t u : Session} {report : ClosureReport}
    (enclosed : Enclosed limits g t report) (subset : g.nodes ⊆ k.nodes)
    (grown : t.scopes.size ≤ u.scopes.size) : Enclosed limits k u report := by
  obtain ⟨slots, before, inner, after, opened, others, route, top, reported, placed, size, nodes⟩ :=
    enclosed
  exact ⟨slots, before, inner, after, opened, others, route, top, reported, placed,
    Nat.le_trans size grown, List.Subset.trans nodes subset⟩

/-- Every report of a route is that of a closure on it. -/
theorem Route.enclosed {limits : Limits} {roots : List Address} {gain : Gain} {s t : Session}
    (route : Route limits roots gain s t) (placed : s.Placed) (small : t.scopes.size ≤ 2 ^ 32)
    {report : ClosureReport} (member : report ∈ gain.reports) : Enclosed limits gain t report := by
  induction route with
  | next first second _ ih ih' =>
      have grown := second.course.size_le
      cases List.mem_append.mp member with
      | inl earlier => exact (ih placed (by omega) earlier).mono (List.subset_append_left _ _) grown
      | inr later =>
          have middle := (first.course.onward placed (by omega)).1.placed
          exact (ih' middle small later).mono (List.subset_append_right _ _) (Nat.le_refl _)
  | node _ _ ih =>
      cases List.mem_append.mp member with
      | inl earlier => exact (ih placed small earlier).mono (List.subset_append_left _ _) (Nat.le_refl _)
      | inr none => exact (nomatch none)
  | size _ _ _ ih =>
      cases List.mem_append.mp member with
      | inl earlier => exact (ih placed small earlier).mono (List.subset_append_left _ _) (Nat.le_refl _)
      | inr none => exact (nomatch none)
  | @headed _ _ _ t bindings _ _ ih =>
      have size := (t.bindAll_frames none bindings).1
      exact (ih placed (by omega) member).mono (List.Subset.refl _) (by omega)
  | @matched node ofValue ofPattern slots g k l s t u v bindings valued pattern introduced rest holds
      isMatch ih ih' ih'' =>
      have size := (u.bindAll_frames (some t.logged) bindings).1
      have grown := rest.course.size_le
      have grown' : t.scopes.size ≤ u.scopes.size := pattern.course.size_le
      replace small : v.scopes.size ≤ 2 ^ 32 := small
      have middle := (valued.course.onward placed.logs (by omega)).1.placed
      have bound := (pattern.course.onward middle.logs (by omega)).1.placed
      simp only [Gain.append_reports, List.mem_append] at member
      rcases member with ((inValue | inPattern | none) | inRest) | none
      · refine (ih placed.logs (by omega) inValue).mono ?_ (show t.scopes.size ≤ v.scopes.size by omega)
        intro p member
        simp only [Gain.append_nodes, List.mem_append, member, true_or]
      · refine (ih' middle.logs (by omega) inPattern).mono ?_ (show u.scopes.size ≤ v.scopes.size by omega)
        intro p member
        simp only [Gain.append_nodes, List.mem_append, member, true_or, or_true]
      · exact (nomatch none)
      · refine (ih'' (bound.bindAll _ bindings) small inRest).mono ?_ (Nat.le_refl _)
        intro p member
        simp only [Gain.append_nodes, List.mem_append, member, true_or, or_true]
      · exact (nomatch none)
  | @framed _ _ s kind t inner ih =>
      have room := Session.size_lt_of_enter inner.course.size_le small
      exact ih (Onward.enter placed room kind).placed small member
  | counted _ ih => exact ih ⟨placed.nested, placed.standing⟩ small member
  | @closure slots node g s t opened others report' inner top reported holds ih =>
      cases List.mem_append.mp member with
      | inl earlier =>
          have room := Session.size_lt_of_openClosure inner.course.size_le small
          have entered := Onward.openClosure placed room node.address
          exact (ih entered.placed small earlier).mono (List.subset_append_left _ _) (Nat.le_refl _)
      | inr last =>
          obtain rfl := List.mem_singleton.mp last
          have closure : report.closure = node.address :=
            (Tracker.report_closure reported).trans (inner.course.opened_follows top).closure
          refine ⟨slots, s, g, t, opened, others, ?_, top, reported, placed, Nat.le_refl _,
            List.subset_append_left _ _⟩
          rw [closure]
          exact inner
  | _ => exact (nomatch member)

/-- A construct is built along a route, and its reports are those of the closures on the route. -/
theorem Compiler.construct_enclosed {c : Compiler} {k : Construct} {compiled : Compiled}
    (h : c.construct k = .ok compiled) (few : c.openedFrames k < 2 ^ 32) :
    ∃ gain t, t.scopes.size ≤ 2 ^ 32 ∧ (∀ n, n ∈ compiled.nodes ↔ n ∈ gain.nodes) ∧
      ∀ report ∈ compiled.closures, Enclosed c.limits gain t report := by
  obtain ⟨gain, traces⟩ := exists_traces h
  obtain ⟨t, success, rfl, -, small, placed⟩ := traces.small few
  obtain ⟨gain, route⟩ := construct_route success
  refine ⟨gain, t, small, fun n => ?_, fun report member => ?_⟩
  · have nodes : t.nodes.toList = gain.nodes := route.course.nodes_eq
    rw [← nodes]
    exact (sortNodes_perm _).mem_iff
  · apply route.enclosed placed small
    have reports : t.reports.toList = gain.reports := route.course.reports_eq
    rw [← reports]
    exact member

end SyntaxGraph
