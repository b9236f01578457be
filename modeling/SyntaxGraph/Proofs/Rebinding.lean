import SyntaxGraph.Proofs.Views

/-!
# Names that are bound again from what they were

A match that binds a captured name again counts as computed from the captured value if its value
reads the name. What is read is kept in a log that holds names only, so the log cannot tell the
captured variable from one of the same name that the value introduces itself. This is the only way
in which it can be wrong: a capture that counts as bound again from itself is bound by a match
inside of the closure whose value reads the captured variable, or introduces the name.
-/

namespace SyntaxGraph

open Session

/-! ## What a log holds -/

/-- A name is read at a moment. -/
def Moment.Reads (m : Moment) (name : String) : Prop := ∃ site position, m.use = .read name site position

/-- A log after a stretch with the given moments. -/
def LogGrows (moments : List Moment) (before after : OrderedSet String) : Prop :=
  ∀ name, after.contains name = true → before.contains name = true ∨ ∃ m ∈ moments, m.Reads name

namespace LogGrows

variable {moments more : List Moment} {a b c : OrderedSet String}

theorem refl (log : OrderedSet String) : LogGrows moments log log := fun _ held => .inl held

theorem trans (first : LogGrows moments a b) (second : LogGrows more b c) :
    LogGrows (moments ++ more) a c := by
  intro name held
  cases second name held with
  | inl before =>
      refine (first name before).imp_right ?_
      rintro ⟨m, member, reads⟩
      exact ⟨m, List.mem_append_left _ member, reads⟩
  | inr read =>
      obtain ⟨m, member, reads⟩ := read
      exact .inr ⟨m, List.mem_append_right _ member, reads⟩

theorem read (s : Session) (name : String) (site : Address) (position : Option Position) :
    List.Forall₂ (LogGrows [⟨s, .read name site position⟩]) s.readLogs
      (s.readSymbol name site position).readLogs := by
  refine List.forall₂_map_right_iff.mpr (List.forall₂_same.mpr fun log _ other held => ?_)
  rw [OrderedSet.add, OrderedMap.contains, OrderedMap.get?_insert] at held
  split at held
  · rename_i same
    rw [Std.LawfulEqOrd.eq_of_compare same]
    exact .inr ⟨_, List.mem_singleton_self _, site, position, rfl⟩
  · exact .inl held

end LogGrows

theorem forall₂_logGrows_refl (moments : List Moment) (logs : List (OrderedSet String)) :
    List.Forall₂ (LogGrows moments) logs logs :=
  List.forall₂_same.mpr fun log _ => .refl log

theorem forall₂_logGrows_trans {moments more : List Moment} {as bs cs : List (OrderedSet String)}
    (first : List.Forall₂ (LogGrows moments) as bs) (second : List.Forall₂ (LogGrows more) bs cs) :
    List.Forall₂ (LogGrows (moments ++ more)) as cs := by
  induction first generalizing cs with
  | nil =>
      cases second
      exact .nil
  | cons head _ ih =>
      cases second with
      | cons head' tail' => exact .cons (head.trans head') (ih tail')

namespace Course

variable {limits : Limits} {roots : List Address} {gain : Gain} {s t : Session}

/-- Whatever a stretch adds to an open log is read at one of its moments. -/
theorem logs (course : Course limits roots gain s t) :
    List.Forall₂ (LogGrows gain.moments) s.readLogs t.readLogs := by
  induction course with
  | next _ _ _ first second => exact forall₂_logGrows_trans first second
  | node _ _ ih => exact forall₂_logGrows_trans ih (forall₂_logGrows_refl _ _)
  | symbol _ _ _ => exact LogGrows.read _ _ _ _
  | size _ _ _ ih => exact forall₂_logGrows_trans ih (LogGrows.read _ _ _ _)
  | bound s names =>
      unfold Session.boundByClosure
      split <;> exact forall₂_logGrows_refl _ _
  | framed _ ih => exact ih
  | @logged _ g s t _ ih =>
      obtain ⟨log, others, -, grown, same⟩ := List.forall₂_cons_left_iff.mp ih
      show List.Forall₂ (LogGrows g.moments) s.readLogs t.readLogs.tail
      rw [same]
      exact grown
  | counted _ ih => exact ih
  | closure _ _ _ _ ih => exact forall₂_logGrows_trans ih (forall₂_logGrows_refl _ _)
  | _ => exact forall₂_logGrows_refl _ _

/-- A log that is opened for a stretch holds nothing but what the stretch reads. -/
theorem reads_of_logged (course : Course limits roots gain { s with readLogs := ∅ :: s.readLogs } t)
    {name : String} (held : t.logged.contains name = true) : ∃ m ∈ gain.moments, m.Reads name := by
  obtain ⟨log, others, grows, -, same⟩ := List.forall₂_cons_left_iff.mp course.logs
  rw [Session.logged, same] at held
  exact (grows name held).resolve_left Bool.false_ne_true

end Course

/-! ## Matches that bind a name again -/

/-- A pattern at a site or inside of it introduces a name. -/
def IntroducesAt (nodes : List Node) (site : Address) (name : String) : Prop :=
  ∃ p ∈ nodes, p.address.isWithin site = true ∧ p.IsNamed .variablePattern name

/-- A match whose pattern binds a name; `value` is where its value stands. -/
structure Node.Rebinds (m : Node) (nodes : List Node) (name : String) (value : Address) : Prop where
  parts : ∃ ofValue ofPattern pattern, m.Matches ofValue ofPattern ∧ (ofValue, value) ∈ m.links ∧
    (ofPattern, pattern) ∈ m.links ∧ IntroducesAt nodes pattern name

theorem IntroducesAt.mono {nodes more : List Node} {site : Address} {name : String}
    (introduces : IntroducesAt nodes site name) (subset : nodes ⊆ more) :
    IntroducesAt more site name := by
  obtain ⟨p, member, rest⟩ := introduces
  exact ⟨p, subset member, rest⟩

theorem Node.Rebinds.mono {m : Node} {nodes more : List Node} {name : String} {value : Address}
    (rebinds : m.Rebinds nodes name value) (subset : nodes ⊆ more) : m.Rebinds more name value := by
  obtain ⟨ofValue, ofPattern, pattern, isMatch, valued, patterned, introduces⟩ := rebinds.parts
  exact ⟨ofValue, ofPattern, pattern, isMatch, valued, patterned, introduces.mono subset⟩

/-- A stretch has a match that binds a name again, and the value of the match reads the name from
outside of a frame or introduces it. -/
def Gain.Justifies (gain : Gain) (scope : ScopeId) (name : String) : Prop :=
  ∃ m ∈ gain.nodes, ∃ value, m.Rebinds gain.nodes name value ∧
    ((∃ q ∈ gain.moments, q.name = name ∧ q.isLocal scope = false ∧
        ∃ site, q.reference? = some site ∧ site.isWithin value = true) ∨
      IntroducesAt gain.nodes value name)

theorem Gain.Justifies.mono {g k : Gain} {scope : ScopeId} {name : String}
    (justifies : g.Justifies scope name) (nodes : g.nodes ⊆ k.nodes) (moments : g.moments ⊆ k.moments) :
    k.Justifies scope name := by
  obtain ⟨m, member, value, rebinds, reason⟩ := justifies
  refine ⟨m, nodes member, value, rebinds.mono nodes, ?_⟩
  refine reason.imp ?_ (·.mono nodes)
  rintro ⟨q, hq, rest⟩
  exact ⟨q, moments hq, rest⟩

theorem Gain.Justifies.left {g : Gain} {scope : ScopeId} {name : String}
    (justifies : g.Justifies scope name) (k : Gain) : (g ++ k).Justifies scope name :=
  justifies.mono (List.subset_append_left _ _) (List.subset_append_left _ _)

theorem Gain.Justifies.right {k : Gain} {scope : ScopeId} {name : String}
    (justifies : k.Justifies scope name) (g : Gain) : (g ++ k).Justifies scope name :=
  justifies.mono (List.subset_append_right _ _) (List.subset_append_right _ _)

/-- Each moment of a match belongs to one of its bindings. -/
theorem Session.mem_matchMoments {s : Session} {reads : OrderedSet String} {bindings : List Binding}
    {m : Moment} (member : m ∈ s.matchMoments reads bindings) :
    ∃ b ∈ bindings, m.use = .rebind b.name (reads.contains b.name) := by
  induction bindings generalizing s with
  | nil => exact (nomatch member)
  | cons b rest ih =>
      cases List.mem_cons.mp member with
      | inl here => exact ⟨b, List.mem_cons_self, by rw [here]⟩
      | inr later =>
          obtain ⟨c, inRest, use⟩ := ih later
          exact ⟨c, List.mem_cons_of_mem _ inRest, use⟩

namespace Route

variable {limits : Limits} {roots : List Address} {gain : Gain} {s t : Session} {scope : ScopeId}
  {env : List String} {name : String}

/-- The nodes of a stretch that introduce a name stand below its root. -/
theorem introducesAt {root : Address} (route : Route limits [root] gain s t)
    (introduces : Introduces gain.nodes name) : IntroducesAt gain.nodes root name := by
  obtain ⟨p, member, named⟩ := introduces
  obtain ⟨site, here, within⟩ := route.course.forest.within p member
  rw [List.mem_singleton.mp here] at within
  exact ⟨p, member, within, named⟩

/-- A moment of a match names what the pattern of the match introduces. -/
theorem rebinds_of_match {node : Node} {ofValue ofPattern : Role} {slots : List Slot}
    {reads : OrderedSet String} {bindings : List Binding}
    (pattern : Route limits [node.address.at (ofPattern, none)] gain s t)
    (introduced : ∀ b ∈ bindings, b.Introduced gain.nodes)
    (holds : node.Holds ([(ofValue, none), (ofPattern, none)] ++ slots))
    (isMatch : node.Matches ofValue ofPattern) {b : Moment} {flag : Bool}
    (member : b ∈ t.matchMoments reads bindings) (use : b.use = .rebind name flag) :
    node.Rebinds gain.nodes name (node.address.at (ofValue, none)) := by
  obtain ⟨c, inBindings, same⟩ := mem_matchMoments member
  rw [use, NameUse.rebind.injEq] at same
  obtain ⟨rfl, -⟩ := same
  have linked : ∀ slot ∈ [(ofValue, none), (ofPattern, none)],
      (slot.1, node.address.at slot) ∈ node.links := by
    intro slot listed
    exact holds.links.mem_iff.mpr (List.mem_map.mpr ⟨slot, List.mem_append_left _ listed, rfl⟩)
  refine ⟨ofValue, ofPattern, _, isMatch, linked _ List.mem_cons_self,
    linked _ (List.mem_cons_of_mem _ (List.mem_singleton_self _)), ?_⟩
  exact pattern.introducesAt (introduced c inBindings).introduces

/-- The read behind a binding that counts as reading its own name: it was made in the value of the
match, and it went outside of a frame if the binding did, unless the value introduces the name. -/
theorem read_of_match {root other : Address} {g k : Gain} {u : Session} {bindings : List Binding}
    (valued : Route limits [root] g { s with readLogs := ∅ :: s.readLogs } t)
    (pattern : Route limits [other] k { t with readLogs := t.readLogs.tail } u)
    (introduced : ∀ b ∈ bindings, b.Introduced k.nodes) (small : u.scopes.size ≤ 2 ^ 32)
    (sees : s.Sees scope env) {b : Moment} (member : b ∈ u.matchMoments t.logged bindings)
    (use : b.use = .rebind name true) (outer : b.isLocal scope = false) :
    (∃ q ∈ g.moments, q.name = name ∧ q.isLocal scope = false ∧
        ∃ site, q.reference? = some site ∧ site.isWithin root = true) ∨
      IntroducesAt g.nodes root name := by
  by_cases introduces : Introduces g.nodes name
  · exact .inr (valued.introducesAt introduces)
  · obtain ⟨c, -, same⟩ := mem_matchMoments member
    rw [use, NameUse.rebind.injEq] at same
    obtain ⟨rfl, held⟩ := same
    obtain ⟨q, inValue, site, position, read⟩ := valued.course.reads_of_logged held.symm
    have named : q.name = c.name := by rw [Moment.name, read]; rfl
    have reference : q.reference? = some site := by rw [Moment.reference?, read]; rfl
    obtain ⟨root', here, within⟩ := valued.course.reference_isWithin inValue reference
    rw [List.mem_singleton.mp here] at within
    refine .inl ⟨q, inValue, named, ?_, site, reference, within⟩
    have value : Reveals g s t := valued.reveals.congr rfl rfl rfl rfl
    have patterns : Reveals k t u := pattern.reveals.congr rfl rfl rfl rfl
    obtain ⟨-, -, moments⟩ := value.seen (Nat.le_trans patterns.size_le small) sees
    obtain ⟨-, after, -⟩ := (value.next patterns).seen small sees
    -- A name in view at the start of the value is still in view where it is bound again.
    have known : c.name ∉ env := by
      intro known
      have bound := after.matchMoments t.logged
        (fun d inBindings => (introduced d inBindings).mono (List.subset_append_right _ _)) member
      have here := bound.isLocal (show b.name ∈ env by rw [Moment.name, use]; exact known)
      exact Bool.false_ne_true (outer.symm.trans here)
    rw [Bool.eq_false_iff]
    intro here
    cases (moments q inValue).of_isLocal here with
    | inl before => exact known (named ▸ before)
    | inr new => exact introduces (named ▸ new)

/-- If a match counts as reading the name that it binds again, then its value does, or introduces
the name. -/
theorem justified (route : Route limits roots gain s t) (small : t.scopes.size ≤ 2 ^ 32)
    (sees : s.Sees scope env) {b : Moment} (member : b ∈ gain.moments)
    (use : b.use = .rebind name true) (outer : b.isLocal scope = false) :
    gain.Justifies scope name := by
  induction route generalizing env with
  | next first second _ ih ih' =>
      have grown := second.course.size_le
      cases List.mem_append.mp member with
      | inl earlier => exact (ih (by omega) sees earlier).left _
      | inr later =>
          obtain ⟨-, ⟨seen, sees', -⟩, -⟩ := first.reveals.seen (by omega) sees
          exact (ih' small sees' later).right _
  | node _ _ ih =>
      cases List.mem_append.mp member with
      | inl earlier => exact (ih small sees earlier).left _
      | inr none => exact (nomatch none)
  | symbol _ _ _ =>
      rw [List.mem_singleton.mp member] at use
      cases use
  | size _ _ _ ih =>
      cases List.mem_append.mp member with
      | inl earlier => exact (ih small sees earlier).left _
      | inr last =>
          rw [List.mem_singleton.mp last] at use
          cases use
  | @headed _ _ _ t bindings _ _ ih =>
      rw [(t.bindAll_frames none bindings).1] at small
      exact ih small sees member
  | @matched node ofValue ofPattern slots g k l s t u v bindings valued pattern introduced rest holds
      isMatch ih ih' ih'' =>
      have value : Reveals g s t := valued.reveals.congr rfl rfl rfl rfl
      have patterns : Reveals k t u := pattern.reveals.congr rfl rfl rfl rfl
      have head := value.next (patterns.bindMatch t.logged introduced)
      have grown := rest.course.size_le
      have bound := (u.bindAll_frames (some t.logged) bindings).1
      have grown' := patterns.size_le
      replace small : v.scopes.size ≤ 2 ^ 32 := small
      obtain ⟨-, ⟨seen, sees', -⟩, -⟩ := value.seen (by omega) sees
      rcases List.mem_append.mp member with before | none
      · rcases List.mem_append.mp before with earlier | later
        · rcases List.mem_append.mp earlier with inValue | inPattern
          · exact (((ih (by omega) (sees.congr rfl rfl) inValue).left _).left _).left _
          · rcases List.mem_append.mp inPattern with inside | here
            · exact ((((ih' (by omega) (sees'.congr rfl rfl) inside).left _).right _).left _).left _
            · have rebinds := pattern.rebinds_of_match introduced holds isMatch here use
              have read := read_of_match valued pattern introduced (by omega) sees here use outer
              refine ⟨node, List.mem_append_right _ (List.mem_singleton_self _), _,
                rebinds.mono ?_, read.imp ?_ (·.mono ?_)⟩
              · intro p hp
                simp only [Gain.append_nodes, List.mem_append, hp, true_or, or_true]
              · rintro ⟨q, hq, reads⟩
                refine ⟨q, ?_, reads⟩
                simp only [Gain.append_moments, List.mem_append, hq, true_or]
              · intro p hp
                simp only [Gain.append_nodes, List.mem_append, hp, true_or]
        · obtain ⟨-, ⟨seen', sees'', -⟩, -⟩ := head.seen (by omega) sees
          exact ((ih'' small sees'' later).right _).left _
      · exact (nomatch none)
  | @framed _ _ s kind t inner ih =>
      have room := Session.size_lt_of_enter inner.course.size_le small
      exact ih small (sees.enter room kind) member
  | counted _ ih => exact ih small (sees.congr rfl rfl) member
  | @closure _ node _ s t _ _ _ inner top reported holds ih =>
      cases List.mem_append.mp member with
      | inl earlier =>
          have room := Session.size_lt_of_openClosure inner.course.size_le small
          exact (ih small ((sees.enter room .closure).congr rfl rfl) earlier).left _
      | inr none => exact (nomatch none)
  | _ => exact (nomatch member)

end Route

/-! ## Captures that count as bound again from themselves -/

theorem Mutation.classify_eq_rebind_iff {rebinds : List Bool} :
    classify rebinds = .rebind ↔ true ∈ rebinds := by
  unfold classify
  by_cases read : rebinds.any id = true
  · rw [if_pos read, eq_self_iff_true, true_iff]
    obtain ⟨flag, member, here⟩ := List.any_eq_true.mp read
    exact (show flag = true from here) ▸ member
  · rw [if_neg read]
    constructor
    · intro other
      split at other <;> cases other
    · intro member
      exact absurd (List.any_eq_true.mpr ⟨true, member, rfl⟩) read

/-- What is noted of a match was noted at a moment, of a name from outside. -/
theorem Tracker.moment_of_mem_rebinds {tracker : Tracker} {moments : List Moment} {name : String}
    {flag : Bool} (member : flag ∈ ((tracker.followAll moments).use name).rebinds) :
    flag ∈ (tracker.use name).rebinds ∨
      ∃ m ∈ moments, m.use = .rebind name flag ∧ m.isLocal tracker.scope = false := by
  induction moments generalizing tracker with
  | nil => exact .inl member
  | cons m moments ih =>
      have afterwards : flag ∈ (((tracker.follow m).followAll moments).use name).rebinds := member
      rcases ih afterwards with noted | ⟨b, later, use, outer⟩
      · rw [use_follow] at noted
        split at noted
        · rename_i heeded
          obtain ⟨heeds, rfl⟩ := heeded
          cases use : m.use with
          | read read site position =>
              rw [use] at noted
              exact .inl noted
          | rebind bound readsSelf =>
              rw [use] at noted
              cases List.mem_append.mp noted with
              | inl before => exact .inl before
              | inr here =>
                  obtain rfl := List.mem_singleton.mp here
                  rw [Tracker.heeds, Bool.and_eq_true, Bool.not_eq_true'] at heeds
                  refine .inr ⟨m, List.mem_cons_self, ?_, heeds.1⟩
                  rw [use, Moment.name, use]
                  rfl
        · exact .inl noted
      · rw [follow_scope] at outer
        exact .inr ⟨b, List.mem_cons_of_mem _ later, use, outer⟩

/-- Noted as captured are the reads that are not local. -/
theorem Tracker.mem_references_of_moment {closure : Address} {scope : ScopeId} {moments : List Moment}
    {q : Moment} {site : Address} (member : q ∈ moments) (outer : q.isLocal scope = false)
    (reference : q.reference? = some site) :
    site ∈ (((start closure scope).followAll moments).use q.name).references := by
  rw [references_followAll]
  refine List.mem_append_right _ (List.mem_flatMap.mpr ⟨q, member, ?_⟩)
  rw [Moment.readsOf, if_pos ⟨rfl, outer⟩, reference]
  exact List.mem_singleton_self _

/-- Inside of a closure a match binds a captured name, and its value reads the captured variable or
introduces the name. -/
def Capture.Recomputed (capture : Capture) (closure : Address) (nodes : List Node) : Prop :=
  ∃ m ∈ nodes, m.address.isWithin closure = true ∧ ∃ value, m.Rebinds nodes capture.name value ∧
    ((∃ site ∈ capture.references, site.isWithin value = true) ∨
      IntroducesAt nodes value capture.name)

theorem Capture.Recomputed.mono {capture : Capture} {closure : Address} {nodes more : List Node}
    (recomputed : capture.Recomputed closure nodes) (subset : nodes ⊆ more) :
    capture.Recomputed closure more := by
  obtain ⟨m, member, within, value, rebinds, reason⟩ := recomputed
  exact ⟨m, subset member, within, value, rebinds.mono subset, reason.imp_right (·.mono subset)⟩

/-- Captures that count as bound again from themselves are. -/
def ClosureReport.JustifiesRebinds (report : ClosureReport) (nodes : List Node) : Prop :=
  ∀ capture ∈ report.captures, capture.mutation = .rebind → capture.Recomputed report.closure nodes

/-- So it is for every closure on a route. -/
theorem Enclosed.justifiesRebinds {limits : Limits} {gain : Gain} {t : Session} {report : ClosureReport}
    (enclosed : Enclosed limits gain t report) (small : t.scopes.size ≤ 2 ^ 32) :
    report.JustifiesRebinds gain.nodes := by
  obtain ⟨slots, s, inner, after, opened, others, route, top, reported, placed, size_le, nodes⟩ := enclosed
  have follows := route.course.opened_follows top
  have room := Session.size_lt_of_openClosure route.course.size_le (Nat.le_trans size_le small)
  intro capture member rebind
  have records := Tracker.report_records reported member
  have noted : true ∈ (((Tracker.start report.closure s.scopes.next).followAll inner.moments).use
      capture.name).rebinds := by
    rw [← follows.use]
    exact Mutation.classify_eq_rebind_iff.mp (records.mutation.symm.trans rebind)
  rcases Tracker.moment_of_mem_rebinds noted with none | ⟨b, inMoments, use, outer⟩
  · exact (nomatch none)
  · obtain ⟨m, inNodes, value, rebinds, reason⟩ :=
      route.justified (by omega) (.opened placed room report.closure) inMoments use outer
    obtain ⟨root, hroot, within⟩ := route.course.forest.within m inNodes
    obtain ⟨slot, -, rfl⟩ := List.mem_map.mp hroot
    refine ⟨m, nodes inNodes, Address.isWithin_trans within (Address.at_isWithin _ slot), value,
      rebinds.mono nodes, reason.imp ?_ (·.mono nodes)⟩
    rintro ⟨q, hq, named, outside, reference, reads, inValue⟩
    refine ⟨reference, ?_, inValue⟩
    rw [records.references, follows.use, ← named]
    exact Tracker.mem_references_of_moment hq outside reads

/-- Whatever counts as bound again from itself is bound by a match inside of the closure, and the
value of the match reads the captured variable unless it introduces the name. -/
theorem Compiler.construct_justifiesRebinds {c : Compiler} {k : Construct} {compiled : Compiled}
    (h : c.construct k = .ok compiled) (few : c.openedFrames k < 2 ^ 32) :
    ∀ report ∈ compiled.closures, report.JustifiesRebinds compiled.nodes := by
  intro report member capture inReport rebind
  obtain ⟨gain, t, small, nodes, enclosed⟩ := construct_enclosed h few
  exact ((enclosed report member).justifiesRebinds small capture inReport rebind).mono
    fun n standing => (nodes n).mpr standing

/-- `fn -> x = x + 1 end` -/
def countsOn : Construct :=
  .expression ⟨"expr/0"⟩ (.closure [.clause []
    (.binary "=" (.symbol "x" .empty) (.binary "+" (.symbol "x" .empty) (.integer 1)))])

/-- Seen from a function with the parameter `x`, the value reads what is captured. -/
theorem Compiler.construct_justifiesRebinds_countsOn :
    ∃ compiled, Compiler.construct ⟨.standard, [(.function, ["x"])]⟩ countsOn = .ok compiled ∧
      Compiler.openedFrames ⟨.standard, [(.function, ["x"])]⟩ countsOn < 2 ^ 32 ∧
      (compiled.closures.map fun report => report.captures.map fun capture =>
        (capture.name, capture.mutation, capture.references.map (·.text))) =
          [[("x", .rebind, ["expr/0/clause/0/body/right/left"])]] ∧
      ∀ report ∈ compiled.closures, report.JustifiesRebinds compiled.nodes := by
  obtain ⟨compiled, success, listed⟩ : ∃ compiled,
      Compiler.construct ⟨.standard, [(.function, ["x"])]⟩ countsOn = .ok compiled ∧
        (compiled.closures.map fun report => report.captures.map fun capture =>
          (capture.name, capture.mutation, capture.references.map (·.text))) =
            [[("x", .rebind, ["expr/0/clause/0/body/right/left"])]] := ⟨_, rfl, rfl⟩
  have few : Compiler.openedFrames ⟨.standard, [(.function, ["x"])]⟩ countsOn < 2 ^ 32 := by decide
  exact ⟨compiled, success, few, listed, Compiler.construct_justifiesRebinds success few⟩

/-- `fn -> x = (case 1 do x -> x end) end` -/
def readsItsOwn : Construct :=
  .expression ⟨"expr/0"⟩ (.closure [.clause [] (.binary "=" (.symbol "x" .empty)
    (.form "case" .empty [.integer 1,
      .keywords [("do", .list [.clause [.symbol "x" .empty] (.symbol "x" .empty)])]]))])

/-- The value reads an `x` of its own, and the captured one counts as bound again from itself although
nothing reads it. -/
theorem Compiler.construct_rebind_unread :
    ∃ compiled, Compiler.construct ⟨.standard, [(.function, ["x"])]⟩ readsItsOwn = .ok compiled ∧
      ∃ report ∈ compiled.closures, ∃ capture ∈ report.captures, capture.mutation = .rebind ∧
        ¬ ∃ m ∈ compiled.nodes, m.address.isWithin report.closure = true ∧
          ∃ value, m.Rebinds compiled.nodes capture.name value ∧
            ∃ site ∈ capture.references, site.isWithin value = true := by
  obtain ⟨compiled, success, report, member, capture, inReport, rebind, unread⟩ : ∃ compiled,
      Compiler.construct ⟨.standard, [(.function, ["x"])]⟩ readsItsOwn = .ok compiled ∧
        ∃ report ∈ compiled.closures, ∃ capture ∈ report.captures, capture.mutation = .rebind ∧
          capture.references = [] :=
    ⟨_, rfl, _, List.mem_singleton_self _, _, List.mem_singleton_self _, rfl, rfl⟩
  refine ⟨compiled, success, report, member, capture, inReport, rebind, ?_⟩
  rintro ⟨m, -, -, value, -, site, reads, -⟩
  rw [unread] at reads
  exact (nomatch reads)

end SyntaxGraph
