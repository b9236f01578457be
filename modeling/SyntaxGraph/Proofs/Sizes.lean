import SyntaxGraph.Proofs.Walks
import SyntaxGraph.Proofs.Watching

/-!
# Sizes in patterns that a closure captures

A variable that gives the size of a segment is read where the segment stands, unless the pattern
position that the binary is part of binds the name. That is asked when the whole binary is built, so
the position may bind the name anywhere: before the segment, in it, or after it. Where no pattern of a
closure has the name, the closure has captured the read, however deep in it the binary stands.
-/

namespace SyntaxGraph

open Session

/-! ## What reports note -/

/-- A report is on the closure that was opened for it. -/
theorem Visits.report_closure {limits : Limits} {given : Bindings} {ps : List Station} {s t : Session}
    {site : Address} {placeholders : List Int64} {opened : OpenClosure} {others : List OpenClosure}
    {report : ClosureReport} (visits : Visits limits given ps { s.openClosure site with placeholders } t)
    (top : t.closures = opened :: others)
    (reported : opened.tracker.report t.scopes opened.enclosing limits = .ok report) :
    report.closure = site ∧ others.length = s.closures.length := by
  obtain ⟨moments, follows⟩ := visits.goes.follows
  rw [top] at follows
  cases follows with
  | cons own rest =>
      exact ⟨(Tracker.report_closure reported).trans own.closure, rest.length_eq.symm⟩

/-- A closure captures a name with a read, or a pattern in it has the name. -/
def ClosureReport.Knows (all : List Node) (r : ClosureReport) (site : Address) (name : String) : Prop :=
  (∃ n ∈ all, n.address.isWithin r.closure = true ∧ n.IsNamed .variablePattern name) ∨
    ∃ capture ∈ r.captures, capture.name = name ∧ site ∈ capture.references

/-- A closure knows of all names that are met while it is open. -/
theorem Visits.knows {limits : Limits} {ps : List Station} {s t : Session} {site : Address}
    {placeholders : List Int64} {opened : OpenClosure} {others : List OpenClosure} {report : ClosureReport}
    {all new : List Node} (visits : Visits limits [] ps { s.openClosure site with placeholders } t)
    (top : t.closures = opened :: others)
    (reported : opened.tracker.report t.scopes opened.enclosing limits = .ok report) (placed : s.Placed)
    (small : t.scopes.size ≤ 2 ^ 32) (grown : t.nodes.toList = s.nodes.toList ++ new) (among : new ⊆ all)
    (within : ∀ n ∈ new, n.address.isWithin report.closure = true) {p : Station} (member : p ∈ ps)
    {place : Address} {name : String} (reaches : p.Reaches (place, .name name)) :
    report.Knows all place name := by
  have later : (s.openClosure site).scopes.size ≤ t.scopes.size := visits.goes.size_le
  have counted : Goes (s.openClosure site) { s.openClosure site with placeholders } := .idle rfl rfl rfl rfl
  have room := Session.size_lt_of_openClosure later small
  have grounds := counted.grounds (Nat.le_trans later small) (Watch.opened placed room site)
  obtain ⟨-, depth⟩ := visits.report_closure top reported
  rcases visits.told small grounds nofun member reaches with ⟨n, standing, named⟩ | ⟨c, found, noted⟩
  · rw [Watch.nodes, grown, List.drop_left] at standing
    exact .inl ⟨n, among standing, within n standing, named⟩
  · -- The closure that has heard of the name is the one reported on.
    rw [Watch.closure?, top, ← depth] at found
    have same : (opened :: others).reverse[others.length]? = some opened := by simp
    obtain rfl := Option.some.inj (same.symm.trans found)
    obtain ⟨capture, inReport, rfl⟩ :=
      Tracker.report_complete reported (Tracker.captures_of_mem_references noted)
    exact .inr ⟨capture, inReport, rfl, (Tracker.report_records reported inReport).references ▸ noted⟩

/-- What a report notes of the stations that a stretch comes to: it knows of all names that are met inside
of its closure. -/
structure ClosureReport.Notes (all new : List Node) (ps : List Station) (r : ClosureReport) : Prop where
  lies : ∃ p ∈ ps, r.closure.isWithin p.1 = true
  /-- The nodes of the closure are among the new ones. -/
  block : ∃ block, block ⊆ new ∧ Forest [r.closure] block
  noted : ∀ p ∈ ps, ∀ site name, p.Reaches (site, .name name) → site.isWithin r.closure = true →
    site ≠ r.closure → r.Knows all site name

namespace ClosureReport.Notes

variable {limits : Limits} {all new more : List Node} {ps qs : List Station} {r : ClosureReport} {site : Address}
  {p : Part}

theorem mono (notes : r.Notes all new ps) (subset : new ⊆ more) : r.Notes all more ps := by
  obtain ⟨block, among, tree⟩ := notes.block
  exact ⟨notes.lies, ⟨block, List.Subset.trans among subset, tree⟩, notes.noted⟩

theorem reorder (notes : r.Notes all new ps) (same : ∀ q, q ∈ qs ↔ q ∈ ps) : r.Notes all new qs := by
  obtain ⟨p, member, within⟩ := notes.lies
  exact ⟨⟨p, (same p).mpr member, within⟩, notes.block, fun q among => notes.noted q ((same q).mp among)⟩

/-- What is met elsewhere is not inside of the closure. -/
theorem beside (notes : r.Notes all new ps) (accounts : Accounts limits qs more) (reaching : Reaching all)
    (distinct : (all.map (·.address)).Nodup) (among : new ⊆ all) (among' : more ⊆ all)
    (apart : ∀ n ∈ new, n ∉ more) {both : List Station} (split : ∀ q, q ∈ both ↔ q ∈ ps ∨ q ∈ qs) :
    r.Notes all new both := by
  obtain ⟨p, member, within⟩ := notes.lies
  refine ⟨⟨p, (split p).mpr (.inl member), within⟩, notes.block, fun q inBoth site name reaches inside strict => ?_⟩
  cases (split q).mp inBoth with
  | inl here => exact notes.noted q here site name reaches inside strict
  | inr there =>
      obtain ⟨block, inNew, tree⟩ := notes.block
      obtain ⟨n, standing, rfl⟩ := accounts.leaves q there _ reaches
      have inBlock := tree.mem_of_isWithin reaching distinct (List.Subset.trans inNew among) (among' standing) inside
      exact absurd standing (apart n (inNew inBlock))

/-- What is met from a tree is what is met from its parts. -/
theorem enclose (notes : r.Notes all new (p.stations site)) (tree : ∀ name, p ≠ .name name) :
    r.Notes all new [(site, p)] := by
  obtain ⟨q, met, within⟩ := notes.lies
  refine ⟨⟨_, List.mem_singleton_self _, Address.isWithin_trans within (Part.within_stations p q met)⟩, notes.block,
    fun first member other name reaches => ?_⟩
  cases List.mem_singleton.mp member
  cases reaches with
  | here => exact absurd rfl (tree name)
  | inside met further => exact notes.noted _ met other name further

/-- A name that is read inside of no station before is not inside of the closure. -/
theorem andName (notes : r.Notes all new ps) (outside : ∀ p ∈ ps, site.isWithin p.1 = true → p.1 = site)
    (name : String) : r.Notes all new (ps ++ [(site, .name name)]) := by
  obtain ⟨p, member, within⟩ := notes.lies
  refine ⟨⟨p, List.mem_append_left _ member, within⟩, notes.block, fun q among other read reaches inside strict => ?_⟩
  cases List.mem_append.mp among with
  | inl before => exact notes.noted q before other read reaches inside strict
  | inr own =>
      cases List.mem_singleton.mp own
      cases reaches with
      | here =>
          have same := outside p member (Address.isWithin_trans inside within)
          rw [same] at within
          exact absurd (Address.isWithin_antisymm inside within) strict
      | inside met => cases met

end ClosureReport.Notes

/-- The reports of a stretch note all names that are met inside of their closures. -/
theorem Visits.notes {limits : Limits} {given : Bindings} {ps : List Station} {s t : Session} {all : List Node}
    (visits : Visits limits given ps s t) (reaching : Reaching all) (distinct : (all.map (·.address)).Nodup)
    (placed : s.Placed) (small : t.scopes.size ≤ 2 ^ 32) : ∃ new reports,
      t.nodes.toList = s.nodes.toList ++ new ∧ t.reports.toList = s.reports.toList ++ reports ∧
      (new.Sublist all → ∀ r ∈ reports, r.Notes all new ps) := by
  induction visits with
  | done => exact ⟨[], [], by simp, by simp, fun _ => nofun⟩
  | hand one _ two first second =>
      have grown := two.goes.size_le
      have middle := (one.goes.onward (by omega) placed).placed
      obtain ⟨_, reports, nodes, listed, notes⟩ := first placed (by omega)
      obtain ⟨_, reports', nodes', listed', notes'⟩ := second middle small
      obtain ⟨new, same, accounts⟩ := one.accounts
      obtain rfl := List.append_cancel_left (same.symm.trans nodes)
      obtain ⟨more, same', accounts'⟩ := two.accounts
      obtain rfl := List.append_cancel_left (same'.symm.trans nodes')
      refine ⟨new ++ more, reports ++ reports', by rw [nodes', nodes, List.append_assoc],
        by rw [listed', listed, List.append_assoc], fun among r member => ?_⟩
      have nodup := List.Nodup.of_map _ ((among.map (·.address)).nodup distinct)
      have apart := (List.nodup_append.mp nodup).2.2
      have left := (List.sublist_append_left new more).trans among
      have right := (List.sublist_append_right new more).trans among
      cases List.mem_append.mp member with
      | inl inFirst =>
          exact ((notes left r inFirst).beside accounts' reaching distinct left.subset right.subset
            (fun n here there => apart n here n there rfl) fun q => List.mem_append).mono
              (List.subset_append_left _ _)
      | inr inSecond =>
          exact ((notes' right r inSecond).beside accounts reaching distinct right.subset left.subset
            (fun n here there => apart n there n here rfl) fun q => List.mem_append.trans Or.comm).mono
              (List.subset_append_right _ _)
  | reorder _ same ih =>
      obtain ⟨new, reports, nodes, listed, notes⟩ := ih placed small
      exact ⟨new, reports, nodes, listed, fun among r member => (notes among r member).reorder same⟩
  | position _ ih => exact ih placed small
  | emit => exact ⟨_, [], Session.emit_nodes _ _, (List.append_nil _).symm, fun _ => nofun⟩
  | diagnose => exact ⟨[], [], (List.append_nil _).symm, (List.append_nil _).symm, fun _ => nofun⟩
  | bound => exact ⟨[], [], by simp, by simp, fun _ => nofun⟩
  | symbol => exact ⟨_, [], Session.emit_nodes _ _, (List.append_nil _).symm, fun _ => nofun⟩
  | @size _ found _ s t name site position _ _ _ outside ih =>
      have same : ∀ u, u = (if found.binds name then t else t.readSymbol name site position) →
          u.nodes = t.nodes ∧ u.reports = t.reports ∧ u.scopes = t.scopes := by
        rintro _ rfl
        split <;> exact ⟨rfl, rfl, rfl⟩
      obtain ⟨same, told, scopes⟩ := same _ rfl
      rw [scopes] at small
      obtain ⟨new, reports, nodes, listed, notes⟩ := ih placed small
      exact ⟨new, reports, by rw [same, nodes], by rw [told, listed],
        fun among r member => (notes among r member).andName outside name⟩
  | @bind _ _ _ t bindings reads _ _ ih =>
      obtain ⟨same, told, -⟩ := t.bindAll_kept reads bindings
      rw [(t.bindAll_frames reads bindings).1] at small
      obtain ⟨new, reports, nodes, listed, notes⟩ := ih placed small
      exact ⟨new, reports, by rw [same, nodes], by rw [told, listed], notes⟩
  | logged _ ih => exact ih placed.logs small
  | @framed _ _ s kind t inner ih =>
      have room := Session.size_lt_of_enter inner.goes.size_le small
      exact ih (Onward.enter placed room kind).placed small
  | inside unmarked _ ih =>
      obtain ⟨new, reports, nodes, listed, notes⟩ := ih placed small
      refine ⟨new, reports, nodes, listed, fun among r member => (notes among r member).enclose ?_⟩
      rintro name rfl
      cases unmarked
  | signed => exact ⟨_, [], Session.emit_nodes _ _, (List.append_nil _).symm, fun _ => nofun⟩
  | @binary _ site source segments s t node shape _ _ _ ih =>
      obtain ⟨new, reports, nodes, listed, notes⟩ := ih placed small
      refine ⟨new ++ [node], reports, by rw [Session.emit_nodes, nodes, List.append_assoc], listed,
        fun among r member => ?_⟩
      have inside : r.Notes all new (Part.stations site (.pattern source)) := by
        rw [Part.stations, Part.patternAt, shape]
        exact notes ((List.sublist_append_left new [node]).trans among) r member
      exact (inside.enclose fun _ same => Part.noConfusion same).mono (List.subset_append_left _ _)
  | placeholder => exact ⟨_, [], Session.emit_nodes _ _, (List.append_nil _).symm, fun _ => nofun⟩
  | @closure _ site source pushed s t opened others report node inner _ top reported _ built ih =>
      have grown : (s.openClosure site).scopes.size ≤ t.scopes.size := inner.goes.size_le
      have entered := (Onward.openClosure placed (Session.size_lt_of_openClosure grown small) site).placed
      obtain ⟨new, reports, nodes, listed, notes⟩ := ih ⟨entered.nested, entered.standing⟩ small
      have emitted := t.emit_close_nodes (t.placeholders.drop pushed.length) opened.enclosing others report node
      rw [nodes, List.append_assoc] at emitted
      have tree := built.forest emitted
      obtain ⟨rfl, -⟩ := inner.report_closure top reported
      have told : (t.reports.push report).toList = s.reports.toList ++ (reports ++ [report]) := by
        rw [Array.toList_push, listed, List.append_assoc]
        rfl
      refine ⟨_, reports ++ [report], emitted, told, fun among r member => ?_⟩
      cases List.mem_append.mp member with
      | inl deeper =>
          have inside : r.Notes all new (Part.stations report.closure (.expression source)) :=
            notes ((List.sublist_append_left _ _).trans among) r deeper
          exact (inside.enclose fun _ same => Part.noConfusion same).mono (List.subset_append_left _ _)
      | inr own =>
          obtain rfl := List.mem_singleton.mp own
          refine ⟨⟨_, List.mem_singleton_self _, Address.isWithin_self _⟩, ⟨_, List.Subset.refl _, tree⟩,
            fun p first place name reaches _ _ => ?_⟩
          cases List.mem_singleton.mp first
          cases reaches with
          | inside met further =>
              have subset := List.Subset.trans (List.subset_append_left new _) among.subset
              refine inner.knows top reported placed small nodes subset (fun n member => ?_) met further
              obtain ⟨root, same, inside⟩ := tree.within n (List.mem_append_left _ member)
              exact List.mem_singleton.mp same ▸ inside

namespace Compiler

/-- A binary among patterns stands where one is matched against. If no pattern of a closure around it has the
name of a variable that gives the size of a segment, then the closure captures the name, and the segment
is among the references of the capture. -/
theorem construct_sizes {c : Compiler} {k : Construct} {compiled : Compiled} (h : c.construct k = .ok compiled)
    (few : c.openedFrames k < 2 ^ 32) :
    (∀ b ∈ compiled.nodes, b.kind = .binaryPattern → ∃ source segments,
      k.Meets b.address (.pattern source) ∧ source.pattern = .binary segments) ∧
    ∀ r ∈ compiled.closures, ∀ site source segments, k.Meets site (.pattern source) →
      source.pattern = .binary segments → site.isWithin r.closure = true →
      ∀ i segment name, segments[i]? = some segment →
      (Segment.split segment).2.bind Segment.sizeName? = some name →
      (∀ p ∈ compiled.nodes, p.IsNamed .variablePattern name → p.address.isWithin r.closure = false) →
      ∃ capture, r.capture? name = some capture ∧
        site.indexed Role.segment.label i ∈ capture.references := by
  obtain ⟨gain, traces⟩ := exists_traces h
  have among : ∀ {r}, r ∈ compiled.closures → r ∈ gain.reports := traces.report_mem.mp
  obtain ⟨t, success, rfl, course, small, placed⟩ := traces.small few
  have visits := construct_visits success
  obtain ⟨new, grown, accounts⟩ := visits.accounts
  have all : gain.nodes = new := List.append_cancel_left (course.nodes_eq.symm.trans grown)
  have standing : ∀ n, n ∈ (finish k.root t).nodes ↔ n ∈ gain.nodes := fun n => by
    have nodes : t.nodes.toList = gain.nodes := course.nodes_eq
    rw [← nodes]
    exact (sortNodes_perm _).mem_iff
  constructor
  · intro b member sort
    obtain ⟨first, inFirst, source, segments, reaches, shape⟩ :=
      accounts.binaries b (all ▸ (standing b).mp member) sort
    exact ⟨source, segments, ⟨first, inFirst, reaches⟩, shape⟩
  · rintro r member site source segments ⟨first, inFirst, reaches⟩ shape within i segment name found size free
    obtain ⟨_, reports, nodes, listed, notes⟩ := visits.notes course.reaching course.forest.distinct placed small
    have same := List.append_cancel_left (nodes.symm.trans course.nodes_eq)
    have inReports : r ∈ reports := List.append_cancel_left (listed.symm.trans course.reports_eq) ▸ among member
    have noted := (notes (same ▸ List.Sublist.refl _) r inReports).noted
    -- The size is met at its segment, which lies below the binary.
    have below := Address.at_isWithin site (.segment, some i)
    have met : (site.indexed Role.segment.label i, Part.name name) ∈ Part.stations site (.pattern source) := by
      rw [Part.stations, Part.patternAt, shape]
      refine Part.mem_numbered.mpr ⟨i, segment, found, ?_⟩
      rw [Nat.zero_add]
      exact List.mem_cons_of_mem _ (by simp [Part.sizeAt, size])
    have further : first.Reaches (site.indexed Role.segment.label i, .name name) :=
      reaches.trans (.inside met (.here _))
    have strict : site.at (.segment, some i) ≠ r.closure := fun equal => by
      rw [← equal] at within
      exact absurd ((Address.not_isWithin_at site (.segment, some i)).symm.trans within) Bool.false_ne_true
    rcases noted first inFirst _ name further (Address.isWithin_trans below within) strict with
      ⟨p, here, inside, named⟩ | ⟨capture, captured, rfl, listed⟩
    · exact absurd inside (by simp [free p ((standing p).mpr here) named])
    · obtain ⟨before, inner, after, encloses⟩ := course.bracket placed small (among member)
      exact ⟨capture, encloses.bracket.capture?_eq_some captured, listed⟩

/-- `fn <<b::size(n), …>> -> b end` -/
def sizedFirst (others : List Source) : Construct :=
  .expression ⟨"expr/0"⟩ (.closure [.clause [.form "<<>>" .empty
    (.form "::" .empty [.symbol "b" .empty, .form "size" .empty [.symbol "n" .empty]] :: others)]
    (.symbol "b" .empty)])

theorem construct_sizes_sizedFirst :
    ∃ compiled r capture, Compiler.construct ⟨.standard, []⟩ (sizedFirst []) = .ok compiled ∧
      r ∈ compiled.closures ∧ r.closure = ⟨"expr/0"⟩ ∧ r.capture? "n" = some capture ∧
      ⟨"expr/0/clause/0/parameter/0/segment/0"⟩ ∈ capture.references := by
  have few : Compiler.openedFrames ⟨.standard, []⟩ (sizedFirst []) < 2 ^ 32 := by decide +kernel
  have reported : ((Compiler.construct ⟨.standard, []⟩ (sizedFirst [])).toOption.map fun compiled =>
      compiled.closures.map (·.closure)) = some [⟨"expr/0"⟩] := by decide +kernel
  cases success : Compiler.construct ⟨.standard, []⟩ (sizedFirst []) with
  | error fault => exact nomatch success ▸ reported
  | ok compiled =>
      rw [success] at reported
      obtain ⟨r, member, here⟩ := List.mem_map.mp (Option.some.inj reported ▸ List.mem_singleton_self _)
      have free : ∀ p ∈ Compiler.emitted ⟨.standard, []⟩ (sizedFirst []), ¬ p.IsNamed .variablePattern "n" := by
        decide +kernel
      have met : (sizedFirst []).Meets ⟨"expr/0/clause/0/parameter/0"⟩ _ :=
        ⟨_, List.mem_singleton_self _, .inside (.head _) (.here _)⟩
      obtain ⟨capture, captured, listed⟩ := (construct_sizes success few).2 r member _ _ _ met rfl
        (here ▸ by decide +kernel) 0 _ "n" rfl rfl fun p standing named =>
          absurd named (free p ((mem_emitted success).mpr standing))
      exact ⟨compiled, r, capture, rfl, member, here, captured, listed⟩

/-- A size is not captured if a later segment binds its name. -/
theorem construct_size_lost :
    ∃ compiled, Compiler.construct ⟨.standard, []⟩ (sizedFirst [.symbol "n" .empty]) = .ok compiled ∧
      compiled.closures.map (fun r => (r.closure, r.captures.map (·.name))) = [(⟨"expr/0"⟩, [])] ∧
      (∃ b ∈ compiled.nodes, b.kind = .binaryPattern ∧ b.address = ⟨"expr/0/clause/0/parameter/0"⟩) ∧
      ∀ p ∈ compiled.nodes, p.IsNamed .variablePattern "n" →
        p.address.isWithin ⟨"expr/0/clause/0/parameter/0/segment/1"⟩ = true := by
  have reported : ((Compiler.construct ⟨.standard, []⟩ (sizedFirst [.symbol "n" .empty])).toOption.map fun compiled =>
      compiled.closures.map fun r => (r.closure, r.captures.map (·.name))) = some [(⟨"expr/0"⟩, [])] := by
    decide +kernel
  cases success : Compiler.construct ⟨.standard, []⟩ (sizedFirst [.symbol "n" .empty]) with
  | error fault => exact nomatch success ▸ reported
  | ok compiled =>
      rw [success] at reported
      obtain ⟨b, among, binary⟩ : ∃ b ∈ Compiler.emitted ⟨.standard, []⟩ (sizedFirst [.symbol "n" .empty]),
          b.kind = .binaryPattern ∧ b.address = ⟨"expr/0/clause/0/parameter/0"⟩ := by decide +kernel
      have later : ∀ p ∈ Compiler.emitted ⟨.standard, []⟩ (sizedFirst [.symbol "n" .empty]),
          p.IsNamed .variablePattern "n" →
          p.address.isWithin ⟨"expr/0/clause/0/parameter/0/segment/1"⟩ = true := by decide +kernel
      exact ⟨compiled, rfl, Option.some.inj reported, ⟨b, (mem_emitted success).mp among, binary⟩,
        fun p standing => later p ((mem_emitted success).mpr standing)⟩

end Compiler

end SyntaxGraph
