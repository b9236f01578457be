import Mathlib.Algebra.Ring.Nat
import Mathlib.Data.List.Infix
import Mathlib.Data.List.Nodup
import SyntaxGraph.Proofs.Provenance
import SyntaxGraph.Proofs.Tree

/-!
# Closures as brackets

Between its opening and its report a closure brackets a stretch of the build. While the
bracket is open, bindings go to the closure's frame or to frames opened inside of it; the
frames that were there before stay as they are. `Onward` says what any later session of a
stretch keeps of the session it started from, and `Course.bracket` finds the bracket of
every report, with its moments and with the reports of the closures inside.

Frames are numbered in 32 bits, so all of this holds of builds that stay below that.
-/

namespace SyntaxGraph

/-- As long as the numbers suffice, the next frame is numbered by its position. -/
theorem Scopes.next_eq {scopes : Scopes} (small : scopes.size < 2 ^ 32) :
    scopes.next = ⟨scopes.size⟩ := by
  have numbered : scopes.size < UInt32.size := small
  unfold Scopes.next ScopeId.ofPosition
  rw [Nat.mod_eq_of_lt numbered]

namespace Session

section

variable {s : Session} {n : Nat}

theorem size_lt_of_enter {kind : ScopeKind} (grown : (s.enter kind).scopes.size ≤ n) (small : n ≤ 2 ^ 32) :
    s.scopes.size < 2 ^ 32 := by
  have size : (s.enter kind).scopes.size = s.scopes.size + 1 := Scopes.size_add
  omega

theorem size_lt_of_openClosure {closure : Address} (grown : (s.openClosure closure).scopes.size ≤ n)
    (small : n ≤ 2 ^ 32) : s.scopes.size < 2 ^ 32 :=
  size_lt_of_enter grown small

end

/-- The frames are nested and the current one is among them. -/
structure Placed (s : Session) : Prop where
  nested : s.scopes.Nested
  standing : s.current.index < s.scopes.size

/-- What a later session of a stretch keeps. Only the current frame may gain bindings, and the
frame that is current later is that one or a new one inside of it. -/
structure Onward (s u : Session) : Prop where
  placed : u.Placed
  size_le : s.scopes.size ≤ u.scopes.size
  kept : ∀ scope : ScopeId, scope.index < s.scopes.size → scope ≠ s.current →
    u.scopes.frame? scope = s.scopes.frame? scope
  parent : u.scopes.parent? s.current = s.scopes.parent? s.current
  here : u.current = s.current ∨ s.scopes.size ≤ u.current.index
  inside : u.scopes.Inside u.current s.current

namespace Onward

variable {s t u : Session}

theorem refl (placed : s.Placed) : Onward s s :=
  ⟨placed, Nat.le_refl _, fun _ _ _ => rfl, rfl, .inl rfl, .here _⟩

/-- What changes neither frames nor the current one goes on from where it was. -/
theorem congr (onward : Onward s t) (scopes : u.scopes = t.scopes) (current : u.current = t.current) :
    Onward s u := by
  obtain ⟨placed, size_le, kept, parent, here, inside⟩ := onward
  refine ⟨⟨?_, ?_⟩, ?_, ?_, ?_, ?_, ?_⟩
  · rw [scopes]
    exact placed.nested
  · rw [scopes, current]
    exact placed.standing
  · rwa [scopes]
  · rwa [scopes]
  · rwa [scopes]
  · rwa [current]
  · rwa [scopes, current]

/-- Only frames and the current one matter at the start as well. -/
theorem start (onward : Onward t u) (scopes : t.scopes = s.scopes) (current : t.current = s.current) :
    Onward s u := by
  obtain ⟨placed, size_le, kept, parent, here, inside⟩ := onward
  rw [scopes] at size_le kept parent here
  rw [current] at kept parent here inside
  exact ⟨placed, size_le, kept, parent, here, inside⟩

/-- A frame that is kept has the parent it had. -/
theorem parent?_eq (onward : Onward s u) {scope : ScopeId} (old : scope.index < s.scopes.size) :
    u.scopes.parent? scope = s.scopes.parent? scope := by
  by_cases same : scope = s.current
  · rw [same]
    exact onward.parent
  · rw [Scopes.parent?, Scopes.parent?, onward.kept scope old same]

/-- Frames that were around an old frame still are. -/
theorem inside_of_inside (onward : Onward s u) (nested : s.scopes.Nested) {scope ancestor : ScopeId}
    (old : scope.index < s.scopes.size) (inside : s.scopes.Inside scope ancestor) :
    u.scopes.Inside scope ancestor := by
  induction inside with
  | here _ => exact .here _
  | further up _ ih =>
      have smaller := nested.lt up
      rw [← onward.parent?_eq old] at up
      exact .further up (ih (by omega))

theorem trans (placed : s.Placed) (first : Onward s t) (second : Onward t u) : Onward s u := by
  have standing := placed.standing
  have grown := first.size_le
  refine ⟨second.placed, by have := second.size_le; omega, ?_, ?_, ?_, ?_⟩
  · intro scope old other
    have notCurrent : scope ≠ t.current := by
      cases first.here with
      | inl same => rwa [same]
      | inr new =>
          intro same
          rw [← same] at new
          omega
    rw [second.kept scope (by omega) notCurrent, first.kept scope old other]
  · rw [second.parent?_eq (by omega), first.parent]
  · cases second.here with
    | inl same =>
        rw [same]
        exact first.here
    | inr new => exact .inr (by omega)
  · have around := second.inside_of_inside first.placed.nested first.placed.standing first.inside
    exact second.inside.trans around

/-- A binding goes to the current frame. -/
theorem bind (placed : s.Placed) (reads : Option (OrderedSet String)) (binding : Binding) :
    Onward s (s.bindSymbol reads binding) := by
  refine ⟨⟨placed.nested.bind, ?_⟩, ?_, ?_, ?_, .inl rfl, .here _⟩
  · show s.current.index < (s.scopes.bind s.current binding).size
    rw [Scopes.size_bind]
    exact placed.standing
  · show s.scopes.size ≤ (s.scopes.bind s.current binding).size
    rw [Scopes.size_bind]
  · intro scope _ other
    exact Scopes.frame?_bind_of_ne other
  · exact Scopes.parent?_bind s.current

/-- A new frame is opened behind all others. -/
theorem enter (placed : s.Placed) (small : s.scopes.size < 2 ^ 32) (kind : ScopeKind) :
    Onward s (s.enter kind) := by
  have standing := placed.standing
  have scopes : (s.enter kind).scopes = s.scopes.add s.current kind := rfl
  have current : (s.enter kind).current = ⟨s.scopes.size⟩ := Scopes.next_eq small
  have up : (s.enter kind).scopes.parent? (s.enter kind).current = some s.current := by
    rw [scopes, current, Scopes.parent?, Scopes.frame?_add, if_pos rfl]
    rfl
  refine ⟨⟨?_, ?_⟩, ?_, ?_, ?_, .inr ?_, .further up (.here _)⟩
  · rw [scopes]
    exact placed.nested.add standing
  · rw [scopes, current, Scopes.size_add]
    exact Nat.lt_succ_self _
  · rw [scopes, Scopes.size_add]
    exact Nat.le_succ _
  · intro scope old _
    rw [scopes, Scopes.frame?_add_of_lt old]
  · rw [scopes, Scopes.parent?, Scopes.parent?, Scopes.frame?_add_of_lt standing]
  · rw [current]

/-- While a new frame is open, the frames from before stay as they are. -/
theorem agrees_of_enter (small : s.scopes.size < 2 ^ 32) {kind : ScopeKind}
    (onward : Onward (s.enter kind) u) : Scopes.AgreesBelow s.scopes.size u.scopes s.scopes := by
  have scopes : (s.enter kind).scopes = s.scopes.add s.current kind := rfl
  have current : (s.enter kind).current = ⟨s.scopes.size⟩ := Scopes.next_eq small
  have size : (s.enter kind).scopes.size = s.scopes.size + 1 := Scopes.size_add
  intro scope old
  have notNew : scope ≠ (s.enter kind).current := by
    rw [current]
    intro same
    rw [same] at old
    exact Nat.lt_irrefl _ old
  rw [onward.kept scope (by omega) notNew, scopes, Scopes.frame?_add_of_lt old]

theorem openClosure (placed : s.Placed) (small : s.scopes.size < 2 ^ 32) (closure : Address) :
    Onward s (s.openClosure closure) :=
  (enter placed small .closure).congr rfl rfl

/-- Coming back to the frame a stretch started from. -/
theorem leave (placed : s.Placed) (onward : Onward s t) (scopes : u.scopes = t.scopes)
    (current : u.current = s.current) : Onward s u := by
  have standing := placed.standing
  have grown := onward.size_le
  refine ⟨⟨?_, ?_⟩, ?_, ?_, ?_, .inl current, ?_⟩
  · rw [scopes]
    exact onward.placed.nested
  · rw [scopes, current]
    omega
  · rwa [scopes]
  · rw [scopes]
    exact onward.kept
  · rw [scopes]
    exact onward.parent
  · rw [current]
    exact .here _

end Onward

end Session

open Session

namespace Course

variable {limits : Limits} {roots : List Address} {gain : Gain} {s t : Session}

/-- Frames are never taken away. -/
theorem size_le (course : Course limits roots gain s t) : s.scopes.size ≤ t.scopes.size := by
  induction course with
  | next _ _ _ first second => exact Nat.le_trans first second
  | node _ _ ih => exact ih
  | size _ _ _ ih => exact ih
  | bind _ => exact Nat.le_of_eq Scopes.size_bind.symm
  | bound s names =>
      rw [boundByClosure_scopes]
  | framed _ ih =>
      refine Nat.le_trans ?_ ih
      exact Nat.le_of_lt (by simp [Session.enter])
  | logged _ ih => exact ih
  | counted _ ih => exact ih
  | closure _ _ _ _ ih =>
      refine Nat.le_trans ?_ ih
      exact Nat.le_of_lt (by simp [Session.openClosure, Session.enter])
  | _ => exact Nat.le_refl _

/-- Every later session of a stretch, at its end or at a moment of it, keeps the frames the stretch
started from. -/
theorem onward (course : Course limits roots gain s t) (placed : s.Placed)
    (small : t.scopes.size ≤ 2 ^ 32) : Onward s t ∧ ∀ m ∈ gain.moments, Onward s m.session := by
  induction course with
  | done s => exact ⟨.refl placed, fun _ member => (nomatch member)⟩
  | next first second _ ih ih' =>
      have size := second.size_le
      obtain ⟨onward, moments⟩ := ih placed (by omega)
      obtain ⟨onward', moments'⟩ := ih' onward.placed small
      refine ⟨onward.trans placed onward', fun m member => ?_⟩
      cases List.mem_append.mp member with
      | inl earlier => exact moments m earlier
      | inr later => exact onward.trans placed (moments' m later)
  | node _ _ ih =>
      obtain ⟨onward, moments⟩ := ih placed small
      refine ⟨onward.congr rfl rfl, fun m member => moments m ?_⟩
      rwa [Gain.append_moments, show (Gain.ofNode _).moments = [] from rfl, List.append_nil] at member
  | symbol _ _ _ =>
      refine ⟨(Onward.refl placed).congr rfl rfl, fun m member => ?_⟩
      rw [List.mem_singleton.mp member]
      exact .refl placed
  | size _ _ _ ih =>
      obtain ⟨onward, moments⟩ := ih placed small
      refine ⟨onward.congr rfl rfl, fun m member => ?_⟩
      cases List.mem_append.mp member with
      | inl earlier => exact moments m earlier
      | inr last =>
          rw [List.mem_singleton.mp last]
          exact onward
  | @bind s reads binding _ =>
      refine ⟨.bind placed reads binding, fun m member => ?_⟩
      cases reads with
      | none => exact (nomatch member)
      | some names =>
          rw [List.mem_singleton.mp member]
          exact .refl placed
  | diagnose _ _ => exact ⟨(Onward.refl placed).congr rfl rfl, fun _ member => (nomatch member)⟩
  | bound s names =>
      exact ⟨(Onward.refl placed).congr (by simp) (by simp), fun _ member => (nomatch member)⟩
  | placeholder _ _ => exact ⟨(Onward.refl placed).congr rfl rfl, fun _ member => (nomatch member)⟩
  | @framed _ _ s kind t inner ih =>
      have entered := Onward.enter placed (Session.size_lt_of_enter inner.size_le small) kind
      obtain ⟨onward, moments⟩ := ih entered.placed small
      have whole := entered.trans placed onward
      exact ⟨whole.leave placed rfl rfl, fun m member => entered.trans placed (moments m member)⟩
  | @logged _ _ s t _ ih =>
      obtain ⟨onward, moments⟩ := ih ⟨placed.nested, placed.standing⟩ small
      have started : Onward s t := onward.start rfl rfl
      exact ⟨started.congr rfl rfl, fun m member => (moments m member).start rfl rfl⟩
  | @counted _ _ s t _ ih =>
      obtain ⟨onward, moments⟩ := ih ⟨placed.nested, placed.standing⟩ small
      have started : Onward s t := onward.start rfl rfl
      exact ⟨started.congr rfl rfl, fun m member => (moments m member).start rfl rfl⟩
  | @closure _ node _ s t _ _ _ inner top _ _ ih =>
      have room := Session.size_lt_of_openClosure inner.size_le small
      have entered := Onward.openClosure placed room node.address
      obtain ⟨onward, moments⟩ := ih entered.placed small
      have whole := entered.trans placed onward
      refine ⟨whole.leave placed rfl (inner.opened_follows top).1, fun m member => ?_⟩
      rw [Gain.append_moments, show (Gain.ofReport _ _).moments = [] from rfl,
        List.append_nil] at member
      exact entered.trans placed (moments m member)

/-- The reports of a stretch come after those that were there. -/
theorem reports_eq (course : Course limits roots gain s t) :
    t.reports.toList = s.reports.toList ++ gain.reports := by
  induction course with
  | next _ _ _ first second => simp [second, first]
  | node _ _ ih => simpa [Session.emit, Gain.ofNode] using ih
  | symbol _ _ _ => simp [Session.emit, Session.readSymbol, Gain.ofNode, Gain.ofMoments]
  | size _ _ _ ih => simpa [Session.readSymbol, Gain.ofMoments] using ih
  | bound s names => simp
  | framed _ ih => exact ih
  | logged _ ih => exact ih
  | counted _ ih => exact ih
  | closure _ _ _ _ ih =>
      simp [Session.emit, Session.close, Gain.ofReport, ih, Session.openClosure, Session.enter]
  | _ => simp [Session.bindSymbol, Session.diagnose, Gain.ofMoments, Gain.ofDiagnostic]

/-- Whatever a stretch reports on lies within one of its roots. -/
theorem report_isWithin (course : Course limits roots gain s t) {report : ClosureReport}
    (member : report ∈ gain.reports) : ∃ root ∈ roots, report.closure.isWithin root = true := by
  induction course with
  | next _ _ _ first second =>
      cases List.mem_append.mp member with
      | inl earlier =>
          obtain ⟨root, hroot, within⟩ := first earlier
          exact ⟨root, List.mem_append_left _ hroot, within⟩
      | inr later =>
          obtain ⟨root, hroot, within⟩ := second later
          exact ⟨root, List.mem_append_right _ hroot, within⟩
  | node _ _ ih =>
      rw [Gain.append_reports, show (Gain.ofNode _).reports = [] from rfl, List.append_nil] at member
      obtain ⟨root, hroot, within⟩ := ih member
      obtain ⟨slot, -, rfl⟩ := List.mem_map.mp hroot
      exact ⟨_, List.mem_singleton_self _, Address.isWithin_trans within (Address.at_isWithin _ slot)⟩
  | size _ _ _ ih =>
      rw [Gain.append_reports, show (Gain.ofMoments _).reports = [] from rfl,
        List.append_nil] at member
      exact ih member
  | framed _ ih => exact ih member
  | logged _ ih => exact ih member
  | counted _ ih => exact ih member
  | closure inner top reported _ ih =>
      refine ⟨_, List.mem_singleton_self _, ?_⟩
      cases List.mem_append.mp member with
      | inl earlier =>
          obtain ⟨root, hroot, within⟩ := ih earlier
          obtain ⟨slot, -, rfl⟩ := List.mem_map.mp hroot
          exact Address.isWithin_trans within (Address.at_isWithin _ slot)
      | inr last =>
          rw [List.mem_singleton.mp last, Tracker.report_closure reported,
            (inner.opened_follows top).closure]
          exact Address.isWithin_self _
  | _ => exact (nomatch member)

/-- Inner closures are reported on before outer ones. -/
theorem reports_innerFirst (course : Course limits roots gain s t) :
    gain.reports.Pairwise fun earlier later => later.closure.isWithin earlier.closure = false := by
  induction course with
  | next first second apart ih ih' =>
      rw [Gain.append_reports]
      refine List.pairwise_append.mpr ⟨ih, ih', ?_⟩
      intro earlier member later member'
      obtain ⟨x, hx, inX⟩ := first.report_isWithin member
      obtain ⟨y, hy, inY⟩ := second.report_isWithin member'
      by_contra within
      rw [Bool.not_eq_false] at within
      exact (apart x hx y hy).ne_of_isWithin (Address.isWithin_trans within inX) inY rfl
  | node _ _ ih =>
      rwa [Gain.append_reports, show (Gain.ofNode _).reports = [] from rfl, List.append_nil]
  | size _ _ _ ih =>
      rwa [Gain.append_reports, show (Gain.ofMoments _).reports = [] from rfl, List.append_nil]
  | framed _ ih => exact ih
  | logged _ ih => exact ih
  | counted _ ih => exact ih
  | @closure slots node g s t opened others report inner top reported _ ih =>
      have closure : report.closure = node.address :=
        (Tracker.report_closure reported).trans (inner.opened_follows top).closure
      rw [Gain.append_reports]
      refine List.pairwise_append.mpr ⟨ih, List.pairwise_singleton _ _, ?_⟩
      intro earlier member last isLast
      obtain ⟨root, hroot, inRoot⟩ := inner.report_isWithin member
      obtain ⟨slot, -, rfl⟩ := List.mem_map.mp hroot
      by_contra within
      rw [Bool.not_eq_false, List.mem_singleton.mp isLast, closure] at within
      have inside := Address.isWithin_trans within inRoot
      rw [Address.not_isWithin_at] at inside
      cases inside
  | _ => exact .nil

/-- No closure is reported on twice. -/
theorem closures_nodup (course : Course limits roots gain s t) :
    (gain.reports.map (·.closure)).Nodup := by
  refine List.pairwise_map.mpr (course.reports_innerFirst.imp ?_)
  intro earlier later outside same
  rw [same, Address.isWithin_self] at outside
  cases outside

/-- No node reads twice. -/
theorem references_nodup (course : Course limits roots gain s t) :
    (gain.moments.filterMap Moment.reference?).Nodup := by
  induction course with
  | next first second apart ih ih' =>
      rw [Gain.append_moments, List.filterMap_append]
      refine List.nodup_append.mpr ⟨ih, ih', ?_⟩
      intro a ha b hb
      obtain ⟨m, member, reads⟩ := List.mem_filterMap.mp ha
      obtain ⟨m', member', reads'⟩ := List.mem_filterMap.mp hb
      obtain ⟨x, hx, inX⟩ := first.reference_isWithin member reads
      obtain ⟨y, hy, inY⟩ := second.reference_isWithin member' reads'
      exact (apart x hx y hy).ne_of_isWithin inX inY
  | node _ _ ih =>
      rwa [Gain.append_moments, show (Gain.ofNode _).moments = [] from rfl, List.append_nil]
  | symbol _ _ _ => exact List.pairwise_singleton _ _
  | size _ _ fresh ih =>
      rw [Gain.append_moments, List.filterMap_append]
      refine List.nodup_append.mpr ⟨ih, List.pairwise_singleton _ _, ?_⟩
      intro a ha b hb same
      obtain ⟨m, member, reads⟩ := List.mem_filterMap.mp ha
      rw [same, List.mem_singleton.mp hb] at reads
      exact fresh m member reads
  | @bind s bound binding introduced =>
      cases bound with
      | none => exact List.nodup_nil
      | some names => exact List.nodup_nil
  | framed _ ih => exact ih
  | logged _ ih => exact ih
  | counted _ ih => exact ih
  | closure _ _ _ _ ih =>
      rwa [Gain.append_moments, show (Gain.ofReport _ _).moments = [] from rfl, List.append_nil]
  | _ => exact List.nodup_nil

end Course

/-! ## Brackets -/

/-- The stretch between the opening of a closure and its report. -/
structure Bracket (limits : Limits) (before : Session) (inner : Gain) (after : Session)
    (report : ClosureReport) : Prop where
  course : ∃ slots : List Slot,
    Course limits (slots.map report.closure.at) inner (before.openClosure report.closure) after
  reported : ∃ opened others, after.closures = opened :: others ∧
    opened.tracker.report after.scopes opened.enclosing limits = .ok report

/-- A bracket inside of a stretch, and what the stretch has to do with it. -/
structure Encloses (limits : Limits) (s : Session) (gain : Gain) (t : Session)
    (before : Session) (inner : Gain) (after : Session) (report : ClosureReport) : Prop where
  bracket : Bracket limits before inner after report
  onward : Onward s before
  settled : s.Settled → before.Settled
  size_le : after.scopes.size ≤ t.scopes.size
  nodes : before.nodes.toList ⊆ t.nodes.toList
  moments : inner.moments <:+: gain.moments
  /-- What was emitted before the bracket lies elsewhere. -/
  earlier : ∃ nodes, before.nodes.toList = s.nodes.toList ++ nodes ∧
    ∀ node ∈ nodes, node.address.isWithin report.closure = false
  /-- Closures below the reported one were reported on inside of the bracket. -/
  reports : ∀ other ∈ gain.reports, other.closure.isWithin report.closure = true →
    other.closure ≠ report.closure → other ∈ inner.reports

namespace Encloses

variable {limits : Limits} {s t u before after : Session} {g k inner : Gain}
  {report : ClosureReport}

/-- A stretch may go on as long as it adds no report. -/
theorem extend (e : Encloses limits s g t before inner after report)
    (moments : g.moments <:+: k.moments) (reports : k.reports = g.reports)
    (size : t.scopes.size ≤ u.scopes.size) (nodes : t.nodes.toList ⊆ u.nodes.toList) :
    Encloses limits s k u before inner after report := by
  refine ⟨e.bracket, e.onward, e.settled, Nat.le_trans e.size_le size, List.Subset.trans e.nodes nodes,
    e.moments.trans moments, e.earlier, ?_⟩
  rw [reports]
  exact e.reports

/-- A stretch may start earlier as long as no node is emitted. -/
theorem starting (e : Encloses limits t g u before inner after report) (placed : s.Placed)
    (onward : Onward s t) (settled : s.Settled → t.Settled) (nodes : t.nodes = s.nodes) :
    Encloses limits s g u before inner after report := by
  refine ⟨e.bracket, onward.trans placed e.onward, fun h => e.settled (settled h), e.size_le,
    e.nodes, e.moments, ?_, e.reports⟩
  rw [← nodes]
  exact e.earlier

variable {xs ys : List Address}

/-- What is built after a bracket lies elsewhere, so nothing below its closure is reported on there. -/
theorem ahead (e : Encloses limits s g t before inner after report)
    (first : Course limits xs g s t) (second : Course limits ys k t u)
    (apart : ∀ x ∈ xs, ∀ y ∈ ys, x.Apart y) (here : report ∈ g.reports) :
    Encloses limits s (g ++ k) u before inner after report := by
  have later : t.nodes.toList ⊆ u.nodes.toList := by
    rw [second.nodes_eq]
    exact List.subset_append_left _ _
  refine ⟨e.bracket, e.onward, e.settled, Nat.le_trans e.size_le second.size_le,
    List.Subset.trans e.nodes later, e.moments.trans (List.prefix_append _ _).isInfix, e.earlier, ?_⟩
  intro other hother within strict
  cases List.mem_append.mp hother with
  | inl same => exact e.reports other same within strict
  | inr later =>
      obtain ⟨x, hx, inX⟩ := first.report_isWithin here
      obtain ⟨y, hy, inY⟩ := second.report_isWithin later
      exact absurd rfl ((apart x hx y hy).ne_of_isWithin (Address.isWithin_trans within inX) inY)

/-- What was built before a bracket lies elsewhere too. -/
theorem behind (e : Encloses limits t k u before inner after report) (placed : s.Placed)
    (small : t.scopes.size ≤ 2 ^ 32) (first : Course limits xs g s t) (second : Course limits ys k t u)
    (apart : ∀ x ∈ xs, ∀ y ∈ ys, x.Apart y) (there : report ∈ k.reports) :
    Encloses limits s (g ++ k) u before inner after report := by
  have onward := (first.onward placed small).1
  obtain ⟨y, hy, inY⟩ := second.report_isWithin there
  refine ⟨e.bracket, onward.trans placed e.onward, fun settled => e.settled (first.settled settled),
    e.size_le, e.nodes, e.moments.trans (List.suffix_append _ _).isInfix, ?_, ?_⟩
  · obtain ⟨nodes, same, elsewhere⟩ := e.earlier
    refine ⟨g.nodes ++ nodes, by rw [same, first.nodes_eq, List.append_assoc], fun node member => ?_⟩
    cases List.mem_append.mp member with
    | inl old =>
        obtain ⟨x, hx, inX⟩ := first.forest.within node old
        by_contra inside
        rw [Bool.not_eq_false] at inside
        exact (apart x hx y hy).ne_of_isWithin inX (Address.isWithin_trans inside inY) rfl
    | inr new => exact elsewhere node new
  · intro other hother within strict
    cases List.mem_append.mp hother with
    | inl earlier =>
        obtain ⟨x, hx, inX⟩ := first.report_isWithin earlier
        exact absurd rfl ((apart x hx y hy).ne_of_isWithin inX (Address.isWithin_trans within inY))
    | inr same => exact e.reports other same within strict

/-- The bracket of a closure inside of another one. The outer closure is no closure below it. -/
theorem deeper {slots : List Slot} {own : ClosureReport} {node : Node}
    (e : Encloses limits s g u before inner after report)
    (course : Course limits (slots.map node.address.at) g t u) (here : report ∈ g.reports)
    (closure : own.closure = node.address) :
    Encloses limits s (g ++ Gain.ofReport own node) u before inner after report := by
  refine ⟨e.bracket, e.onward, e.settled, e.size_le, e.nodes,
    e.moments.trans (List.prefix_append _ _).isInfix, e.earlier, fun other hother within strict => ?_⟩
  cases List.mem_append.mp hother with
  | inl below => exact e.reports other below within strict
  | inr last =>
      rw [List.mem_singleton.mp last, closure] at within
      obtain ⟨root, hroot, inRoot⟩ := course.report_isWithin here
      obtain ⟨slot, -, rfl⟩ := List.mem_map.mp hroot
      have up := Address.isWithin_trans within inRoot
      exact absurd ((Address.not_isWithin_at _ slot).symm.trans up) Bool.false_ne_true

end Encloses

/-- Every report has its bracket. -/
theorem Course.bracket {limits : Limits} {roots : List Address} {gain : Gain} {s t : Session}
    (course : Course limits roots gain s t) (placed : s.Placed) (small : t.scopes.size ≤ 2 ^ 32)
    {report : ClosureReport} (member : report ∈ gain.reports) :
    ∃ before inner after, Encloses limits s gain t before inner after report := by
  induction course with
  | @next xs ys g k s t u first second apart ih ih' =>
      have size := second.size_le
      cases List.mem_append.mp member with
      | inl here =>
          obtain ⟨before, inner, after, e⟩ := ih placed (by omega) here
          exact ⟨before, inner, after, e.ahead first second apart here⟩
      | inr there =>
          obtain ⟨before, inner, after, e⟩ := ih' (first.onward placed (by omega)).1.placed small there
          exact ⟨before, inner, after, e.behind placed (by omega) first second apart there⟩
  | node _ _ ih =>
      rw [Gain.append_reports, show (Gain.ofNode _).reports = [] from rfl, List.append_nil] at member
      obtain ⟨before, inner, after, e⟩ := ih placed small member
      exact ⟨before, inner, after, e.extend (List.prefix_append _ _).isInfix
        (List.append_nil _) (Nat.le_refl _) (by simp)⟩
  | size _ _ _ ih =>
      rw [Gain.append_reports, show (Gain.ofMoments _).reports = [] from rfl,
        List.append_nil] at member
      obtain ⟨before, inner, after, e⟩ := ih placed small member
      exact ⟨before, inner, after, e.extend (List.prefix_append _ _).isInfix
        (List.append_nil _) (Nat.le_refl _) (List.Subset.refl _)⟩
  | @framed _ _ s kind t framed ih =>
      have entered := Onward.enter placed (Session.size_lt_of_enter framed.size_le small) kind
      obtain ⟨before, inner, after, e⟩ := ih entered.placed small member
      exact ⟨before, inner, after, (e.starting placed entered (fun h => h.enter kind) rfl).extend
        List.infix_rfl rfl (Nat.le_refl _) (List.Subset.refl _)⟩
  | @logged _ _ s t _ ih =>
      obtain ⟨before, inner, after, e⟩ := ih ⟨placed.nested, placed.standing⟩ small member
      exact ⟨before, inner, after, (e.starting placed ((Onward.refl placed).congr rfl rfl)
        (fun h => h.congr rfl (List.Subset.refl _)) rfl).extend List.infix_rfl rfl (Nat.le_refl _)
        (List.Subset.refl _)⟩
  | @counted _ _ s t _ ih =>
      obtain ⟨before, inner, after, e⟩ := ih ⟨placed.nested, placed.standing⟩ small member
      exact ⟨before, inner, after, (e.starting placed ((Onward.refl placed).congr rfl rfl)
        (fun h => h.congr rfl (List.Subset.refl _)) rfl).extend List.infix_rfl rfl (Nat.le_refl _)
        (List.Subset.refl _)⟩
  | @closure slots node g s t opened others own course top reported holds ih =>
      have closure : own.closure = node.address :=
        (Tracker.report_closure reported).trans (course.opened_follows top).closure
      cases List.mem_append.mp member with
      | inl below =>
          have room := Session.size_lt_of_openClosure course.size_le small
          have entered := Onward.openClosure placed room node.address
          obtain ⟨before, inner, after, e⟩ := ih entered.placed small below
          have started := e.starting placed entered (fun h => h.openClosure node.address) rfl
          exact ⟨before, inner, after, (started.deeper course below closure).extend List.infix_rfl rfl
            (Nat.le_refl _) (by simp)⟩
      | inr last =>
          obtain rfl := List.mem_singleton.mp last
          refine ⟨s, g, t, ⟨⟨slots, ?_⟩, opened, others, top, reported⟩, .refl placed, id,
            Nat.le_refl _, ?_, (List.prefix_append _ _).isInfix,
            ⟨[], by simp, fun _ none => absurd none List.not_mem_nil⟩, ?_⟩
          · rw [closure]
            exact course
          · rw [(Course.closure course top reported holds).nodes_eq]
            exact List.subset_append_left _ _
          · intro other hother _ strict
            cases List.mem_append.mp hother with
            | inl below => exact below
            | inr same => exact absurd (congrArg _ (List.mem_singleton.mp same)) strict
  | _ => exact absurd member List.not_mem_nil

/-- What is found under a key is the only member with that key. -/
theorem find?_of_nodup {α : Type} {key : α → Address} {xs : List α} (distinct : (xs.map key).Nodup)
    {x : α} (member : x ∈ xs) : (xs.find? fun y => key y == key x) = some x := by
  cases found : xs.find? fun y => key y == key x with
  | none =>
      have absent := List.find?_eq_none.mp found x member
      simp at absent
  | some y =>
      have same : key y = key x := by simpa using List.find?_some found
      exact congrArg some
        (List.inj_on_of_nodup_map distinct (List.mem_of_find?_eq_some found) member same)

/-- The report that is found for an address is the only one there is. -/
theorem Compiled.closure?_of_nodup {compiled : Compiled}
    (distinct : (compiled.closures.map (·.closure)).Nodup) {report : ClosureReport}
    (member : report ∈ compiled.closures) : compiled.closure? report.closure = some report :=
  find?_of_nodup distinct member

end SyntaxGraph
