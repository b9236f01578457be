import SyntaxGraph.Compiler
import SyntaxGraph.Proofs.Supplies
import SyntaxGraph.Proofs.Trackers

/-!
# Where bindings come from

A session is settled if every binding stands in its frame under its own name, and every
binding that names a node is introduced by a variable pattern that has been emitted. The
frames around a construct are settled because their names come from outside, and every
stretch of a build keeps a session settled. What a captured symbol points at is then a
node that stands.
-/

namespace SyntaxGraph

namespace Session

/-- Every binding stands under its own name, and its node, if it has one, is a pattern that
introduces it. -/
structure Settled (s : Session) : Prop where
  origin : ∀ {scope frame name binding}, s.scopes.frame? scope = some frame →
    frame.bindings.get? name = some binding →
    binding.name = name ∧ ∀ site, binding.node = some site → binding.Introduced s.nodes.toList

variable {s t : Session}

theorem Settled.congr (settled : s.Settled) (scopes : t.scopes = s.scopes)
    (nodes : s.nodes.toList ⊆ t.nodes.toList) : t.Settled := by
  refine ⟨fun {scope frame name binding} present bound => ?_⟩
  rw [scopes] at present
  obtain ⟨named, introduced⟩ := settled.origin present bound
  exact ⟨named, fun site node => (introduced site node).mono nodes⟩

theorem Settled.enter (settled : s.Settled) (kind : ScopeKind) : (s.enter kind).Settled := by
  refine ⟨fun {scope frame name binding} present bound => ?_⟩
  rw [show (s.enter kind).scopes = s.scopes.add s.current kind from rfl, Scopes.frame?_add] at present
  split at present
  · obtain rfl := Option.some.inj present
    cases bound
  · exact settled.origin present bound

theorem Settled.openClosure (settled : s.Settled) (closure : Address) :
    (s.openClosure closure).Settled :=
  (settled.enter .closure).congr rfl (List.Subset.refl _)

/-- A binding replaces another of its name and no other. -/
theorem Settled.bind (settled : s.Settled) (reads : Option (OrderedSet String)) (binding : Binding)
    (introduced : ∀ site, binding.node = some site → binding.Introduced s.nodes.toList) :
    (s.bindSymbol reads binding).Settled := by
  refine ⟨fun {scope frame name found} present bound => ?_⟩
  rw [show (s.bindSymbol reads binding).scopes = s.scopes.bind s.current binding from rfl,
    Scopes.frame?_bind] at present
  split at present
  · obtain ⟨old, before, rfl⟩ := Option.map_eq_some_iff.mp present
    rw [OrderedMap.get?_insert] at bound
    split at bound
    · rename_i same
      obtain rfl := Option.some.inj bound
      exact ⟨(Std.LawfulEqOrd.eq_of_compare same).symm, introduced⟩
    · exact settled.origin before bound
  · exact settled.origin present bound

end Session

/-- Every stretch keeps a session settled. -/
theorem Course.settled {limits : Limits} {roots : List Address} {gain : Gain} {s t : Session}
    (course : Course limits roots gain s t) (settled : s.Settled) : t.Settled := by
  induction course with
  | done _ => exact settled
  | next _ _ _ first second => exact second (first settled)
  | node _ _ ih => exact (ih settled).congr rfl (by simp [Session.emit])
  | symbol _ _ _ => exact settled.congr rfl (by simp [Session.emit, Session.readSymbol])
  | size _ _ _ ih => exact (ih settled).congr rfl (by simp [Session.readSymbol])
  | bind introduced => exact settled.bind _ _ fun _ _ => introduced
  | diagnose _ _ => exact settled.congr rfl (by simp [Session.diagnose])
  | bound s names => exact settled.congr (by simp) (by simp)
  | placeholder _ _ => exact settled.congr rfl (List.Subset.refl _)
  | framed _ ih => exact (ih (settled.enter _)).congr rfl (List.Subset.refl _)
  | logged _ ih =>
      exact (ih (settled.congr rfl (List.Subset.refl _))).congr rfl (List.Subset.refl _)
  | counted _ ih =>
      exact (ih (settled.congr rfl (List.Subset.refl _))).congr rfl (List.Subset.refl _)
  | closure _ _ _ _ ih =>
      exact (ih (settled.openClosure _)).congr rfl (by simp [Session.emit, Session.close])

namespace Compiler

/-- Names given from outside have no node. -/
theorem openFrames_settled (frames : List (ScopeKind × List String)) {scopes : Scopes}
    {current : ScopeId} (settled : (Session.start scopes current).Settled) :
    (Session.start (openFrames frames scopes current).1 (openFrames frames scopes current).2).Settled := by
  induction frames generalizing scopes current with
  | nil => exact settled
  | cons first rest ih =>
      obtain ⟨kind, names⟩ := first
      refine ih ?_
      have entered : (Session.start (scopes.add current kind) scopes.next).Settled :=
        (settled.enter kind).congr rfl (List.Subset.refl _)
      generalize scopes.add current kind = opened at entered
      induction names generalizing opened with
      | nil => exact entered
      | cons name names inner =>
          exact inner _ ((entered.bind none ⟨name, none, none⟩
            fun _ node => (nomatch node)).congr rfl (List.Subset.refl _))

theorem session_settled (c : Compiler) : c.session.Settled := by
  refine openFrames_settled c.frames ?_
  refine ⟨fun {scope frame name binding} present bound => ?_⟩
  obtain ⟨index⟩ := scope
  cases index with
  | zero =>
      obtain rfl := Option.some.inj present
      cases bound
  | succ n => simp [Session.start, Scopes.frame?, Scopes.initial] at present

end Compiler

end SyntaxGraph
