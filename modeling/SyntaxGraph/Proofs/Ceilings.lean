import Mathlib.Data.Nat.Find
import SyntaxGraph.Proofs.Correspondence

/-!
# Ceilings cut builds off

Under lower ceilings a build is cut off or does the same: it ends with a fault of the kind of
some ceiling that is lower, or with the result it has under the higher ones. The two runs have
equal sessions all the way, so this is a simulation in which everything that corresponds is
equal, and only the first run may fail alone.

Where only the ceiling on depth differs the cut is one of depth. The depths at which a construct
builds are then those from some threshold on.
-/

namespace SyntaxGraph

namespace Limits

/-- Each ceiling is at most its counterpart. -/
structure Below (l l' : Limits) : Prop where
  depth : l.maxDepth ≤ l'.maxDepth
  captures : l.maxCaptures ≤ l'.maxCaptures
  fanout : l.maxFanout ≤ l'.maxFanout

/-- The faults by which ceilings cut off what others allow; each is of a kind that belongs to a
ceiling on which the two differ. -/
inductive Cuts (l l' : Limits) (f : Fault) : Prop where
  | depth (differ : l.maxDepth ≠ l'.maxDepth) (kind : f.kind = .depthExceeded)
  | fanout (differ : l.maxFanout ≠ l'.maxFanout) (kind : f.kind = .sizeExceeded)
  | captures (differ : l.maxCaptures ≠ l'.maxCaptures)
      (kind : f.kind = .sizeExceeded ∨ f.kind = .invalidCaptureIndex)

/-- An outcome is that of higher ceilings, or cut off. -/
def Trims {α : Type} (l l' : Limits) (x y : Except Fault α) : Prop :=
  x = y ∨ ∃ f, x = .error f ∧ l.Cuts l' f

namespace Trims

variable {α β : Type} {l l' : Limits} {x y : Except Fault α}

theorem cut {f : Fault} (cuts : l.Cuts l' f) : l.Trims l' (.error f) y := .inr ⟨f, rfl, cuts⟩

theorem bind {next next' : α → Except Fault β} (trims : l.Trims l' x y)
    (rest : ∀ a, l.Trims l' (next a) (next' a)) : l.Trims l' (x >>= next) (y >>= next') := by
  obtain rfl | ⟨f, rfl, cuts⟩ := trims
  · cases x with
    | error f => exact .inl rfl
    | ok a => exact rest a
  · exact cut cuts

theorem map (f : α → β) (trims : l.Trims l' x y) : l.Trims l' (x.map f) (y.map f) := by
  obtain rfl | ⟨f, rfl, cuts⟩ := trims
  · exact .inl rfl
  · exact cut cuts

theorem mapM {f g : β → Except Fault α} (each : ∀ b, l.Trims l' (f b) (g b)) (bs : List β) :
    l.Trims l' (bs.mapM f) (bs.mapM g) := by
  induction bs with
  | nil => exact .inl rfl
  | cons b bs ih =>
      rw [List.mapM_cons, List.mapM_cons]
      exact (each b).bind fun _ => ih.bind fun _ => .inl rfl

end Trims

end Limits

/-! ## Walks over frames -/

namespace Scopes

variable {g : Scopes} {scope : ScopeId} {l l' : Limits}

/-- A walk with more room says the same, if it was not cut off. -/
theorem summariesWithin_mono {cut cut' : Fault} {room room' : Nat} (more : room ≤ room') :
    g.summariesWithin cut room scope = g.summariesWithin cut' room' scope ∨
      g.summariesWithin cut room scope = .error cut := by
  induction room generalizing room' scope with
  | zero => exact .inr rfl
  | succ room ih =>
      obtain ⟨room', rfl⟩ : ∃ n, room' = n + 1 := ⟨room' - 1, by omega⟩
      simp only [summariesWithin]
      cases g.frame? scope with
      | none => exact .inl rfl
      | some frame =>
          dsimp only
          cases frame.parent with
          | none => exact .inl rfl
          | some parent =>
              dsimp only
              refine (@ih parent room' (by omega)).imp (fun same => ?_) fun failed => ?_
              · rw [same]
              · rw [failed]
                rfl

theorem supplyWithin_mono {cut cut' : Fault} {name : String} {room room' distance : Nat}
    (more : room ≤ room') :
    g.supplyWithin cut name room distance scope = g.supplyWithin cut' name room' distance scope ∨
      g.supplyWithin cut name room distance scope = .error cut := by
  induction room generalizing room' scope distance with
  | zero => exact .inr rfl
  | succ room ih =>
      obtain ⟨room', rfl⟩ : ∃ n, room' = n + 1 := ⟨room' - 1, by omega⟩
      simp only [supplyWithin]
      cases g.frame? scope with
      | none => exact .inl rfl
      | some frame =>
          dsimp only
          cases frame.bindings.get? name with
          | some binding => exact .inl rfl
          | none =>
              cases frame.parent with
              | none => exact .inl rfl
              | some parent => exact ih (by omega)

theorem summaries_trims (below : l.Below l') (site : Address) :
    l.Trims l' (g.summaries l.maxDepth site scope) (g.summaries l'.maxDepth site scope) := by
  by_cases differ : l.maxDepth = l'.maxDepth
  · rw [differ]
    exact .inl rfl
  · exact (summariesWithin_mono below.depth).imp id fun failed => ⟨_, failed, .depth differ rfl⟩

theorem supply_trims (below : l.Below l') (site : Address) (name : String) :
    l.Trims l' (g.supply l.maxDepth site scope name) (g.supply l'.maxDepth site scope name) := by
  by_cases differ : l.maxDepth = l'.maxDepth
  · rw [differ]
    exact .inl rfl
  · exact (supplyWithin_mono below.depth).imp id fun failed => ⟨_, failed, .depth differ rfl⟩

end Scopes

namespace Tracker

variable {l l' : Limits} {scopes : Scopes} {enclosing : ScopeId}

/-- The notes on a closure are resolved alike, or the report is cut off. -/
theorem report_trims (below : l.Below l') (t : Tracker) :
    l.Trims l' (t.report scopes enclosing l) (t.report scopes enclosing l') := by
  have resolved : l.Trims l'
      (do
        let scopeChain ← scopes.summaries l.maxDepth t.closure enclosing
        let captures ← t.free.entries.mapM (t.capture scopes enclosing l)
        return (⟨t.closure, t.bound.keys, captures, scopeChain⟩ : ClosureReport))
      (do
        let scopeChain ← scopes.summaries l'.maxDepth t.closure enclosing
        let captures ← t.free.entries.mapM (t.capture scopes enclosing l')
        return (⟨t.closure, t.bound.keys, captures, scopeChain⟩ : ClosureReport)) := by
    refine (Scopes.summaries_trims below _).bind fun chain => ?_
    refine (Limits.Trims.mapM (fun entry => ?_) t.free.entries).bind fun _ => .inl rfl
    exact (Scopes.supply_trims below _ _).map _
  have more := below.captures
  unfold report
  by_cases many : t.free.size > l.maxCaptures
  · rw [if_pos many]
    by_cases same : l.maxCaptures = l'.maxCaptures
    · rw [← same, if_pos many]
      exact .inl rfl
    · exact .cut (.captures same (.inl rfl))
  · rw [if_neg many, if_neg (show ¬ t.free.size > l'.maxCaptures by omega)]
    exact resolved

end Tracker

/-! ## Steps that look at the ceilings -/

def Session.closeWith (s : Session) (closure : OpenClosure) (rest : List OpenClosure)
    (report : ClosureReport) : Session :=
  { s with
    closures := rest
    current := closure.enclosing
    nodes := s.nodes ++ report.captureNodes
    reports := s.reports.push report }

namespace Build

theorem run_checkFanout (l : Limits) (s : Session) (site : Address) (what : String) (count : Nat) :
    ((checkFanout site what count).run l).run s =
      if count > l.maxFanout then .error (.sizeExceeded site what count l.maxFanout)
      else .ok ((), s) := by
  change (ReaderT.run (if count > l.maxFanout then _ else _ : Build Unit) l).run s = _
  split
  · rfl
  · rfl

theorem run_closeClosure (l : Limits) (s : Session) (node : Node) :
    ((closeClosure node).run l).run s = match s.closures with
      | [] => .ok (node, s)
      | closure :: rest => (closure.tracker.report s.scopes closure.enclosing l).map fun report =>
          ((node.declare .captures).relateAll .captures (report.captureNodes.map (·.address)),
            s.closeWith closure rest report) := by
  obtain ⟨scopes, current, nodes, diagnostics, reports, closures, readLogs, placeholders⟩ := s
  cases closures with
  | nil => rfl
  | cons closure rest =>
      show Except.bind (Except.bind (closure.tracker.report scopes closure.enclosing l) _) _ = _
      dsimp only
      cases closure.tracker.report scopes closure.enclosing l with
      | error f => rfl
      | ok report => rfl

theorem run_placeholder (l : Limits) (s : Session) (site : Address) (source : Source) (index : Int64) :
    ((placeholder site source index).run l).run s =
      if (1 ≤ index.toInt && index.toInt.toNat ≤ l.maxCaptures) = true then
        match s.placeholders with
        | [] => .error (.invalidCaptureIndex site index l.maxCaptures)
        | greatest :: rest => .ok ((), { s with placeholders := max greatest index :: rest }.emit
            ((Node.make site .capturePlaceholder)
              |>.withTags [.expression]
              |>.set "index" index
              |>.withPosition source.position))
      else .error (.invalidCaptureIndex site index l.maxCaptures) := by
  obtain ⟨scopes, current, nodes, diagnostics, reports, closures, readLogs, placeholders⟩ := s
  change (ReaderT.run (if (1 ≤ index.toInt && index.toInt.toNat ≤ l.maxCaptures) = true then _
    else _ : Build Unit) l).run _ = _
  by_cases inRange : (1 ≤ index.toInt && index.toInt.toNat ≤ l.maxCaptures) = true
  · rw [if_pos inRange, if_pos inRange]
    cases placeholders with
    | nil => rfl
    | cons g r => rfl
  · rw [if_neg inRange, if_neg inRange]
    rfl
end Build

/-- Two builds whose outcomes are the same from every session, unless the first is cut off. -/
def Build.Trims {α : Type} (l l' : Limits) (m m' : Build α) : Prop :=
  ∀ s, l.Trims l' ((m.run l).run s) ((m'.run l').run s)

namespace Build

variable {l l' : Limits}

theorem checkFanout_trims (below : l.Below l') (site : Address) (what : String) (count : Nat) :
    Trims l l' (checkFanout site what count) (checkFanout site what count) := by
  intro s
  have more := below.fanout
  rw [run_checkFanout, run_checkFanout]
  by_cases many : count > l.maxFanout
  · rw [if_pos many]
    by_cases same : l.maxFanout = l'.maxFanout
    · rw [← same, if_pos many]
      exact .inl rfl
    · exact .cut (.fanout same rfl)
  · rw [if_neg many, if_neg (show ¬ count > l'.maxFanout by omega)]
    exact .inl rfl

theorem placeholder_trims (below : l.Below l') (site : Address) (source : Source) (index : Int64) :
    Trims l l' (placeholder site source index) (placeholder site source index) := by
  intro s
  have more := below.captures
  rw [run_placeholder, run_placeholder]
  by_cases same : l.maxCaptures = l'.maxCaptures
  · rw [same]
    exact .inl rfl
  · by_cases inRange : (1 ≤ index.toInt && index.toInt.toNat ≤ l.maxCaptures) = true
    · have inRange' : (1 ≤ index.toInt && index.toInt.toNat ≤ l'.maxCaptures) = true := by
        simp only [Bool.and_eq_true, decide_eq_true_eq] at inRange ⊢
        omega
      rw [if_pos inRange, if_pos inRange']
      cases s.placeholders with
      | nil => exact .cut (.captures same (.inr rfl))
      | cons greatest rest => exact .inl rfl
    · rw [if_neg inRange]
      exact .cut (.captures same (.inr rfl))

theorem closeClosure_trims (below : l.Below l') (node : Node) :
    Trims l l' (closeClosure node) (closeClosure node) := by
  intro s
  rw [run_closeClosure, run_closeClosure]
  cases s.closures with
  | nil => exact .inl rfl
  | cons closure rest => exact (closure.tracker.report_trims below).map _

theorem closeClosure_address {s t : Session} {node result : Node}
    (h : (closeClosure node).Yields l s result t) : result.address = node.address := by
  have ran : ((closeClosure node).run l).run s = .ok (result, t) := h
  rw [run_closeClosure] at ran
  split at ran
  · cases ran
    rfl
  · obtain ⟨report, -, same⟩ := except_map_eq_ok ran
    cases same
    simp

end Build

/-! ## The simulation -/

namespace Coupling

/-- Equal sessions, in which the ceilings of the first run are at most those of the second. -/
def ceilings (l l' : Limits) : Coupling where
  Stack := Unit
  World := Unit
  grows _ _ := True
  limits := l
  limits' := l'
  like := .same
  session _ _ := Eq
  address := Eq
  within _ _ := True
  node _ := Eq
  part _ := Eq
  segment _ := Eq
  binding _ := Eq
  room n n' := n ≤ n' ∧ (l.maxDepth = l'.maxDepth → n = n')
  varied _ := False
  cut := l.Cuts l'
  lost _ := False
  fault := Eq

variable {l l' : Limits} {stack : (ceilings l l').Stack} {world : (ceilings l l').World}

theorem ceilings_relates {α : Type} {m m' : Build α} {value : (ceilings l l').World → α → α → Prop}
    (trims : Build.Trims l l' m m') (holds : ∀ s a t, m.Yields l s a t → value world a a) :
    (ceilings l l').Relates stack world value m m' := by
  rintro s - rfl
  show (ceilings l l').Meets _ ((m.run l).run s) ((m'.run l').run s)
  obtain same | ⟨f, failed, cuts⟩ := trims s
  · rw [← same]
    cases ran : (m.run l).run s with
    | error f => exact .inr (.inr rfl)
    | ok x => exact ⟨(), trivial, rfl, holds s x.1 x.2 ran⟩
  · rw [failed]
    cases (m'.run l').run s with
    | error f' => exact .inl cuts
    | ok y => exact cuts

end Coupling

/-- Every primitive step respects ceilings. -/
def Simulation.ceilings {l l' : Limits} (below : l.Below l') : Simulation where
  toCoupling := .ceilings l l'
  grows_refl _ := trivial
  grows_trans _ _ := trivial
  node_mono _ := id
  part_mono _ := id
  segment_mono _ := id
  binding_mono _ := id
  address_child label := congrArg (Address.child · label)
  address_indexed label index := congrArg (Address.indexed · label index)
  within_child _ := id
  within_indexed _ _ := id
  node_address := congrArg Node.address
  node_make := by
    rintro _ a - kind rfl -
    rfl
  node_set name value _ := congrArg (Node.set · name value)
  node_withTags tags := congrArg (Node.withTags · tags)
  node_withPosition := by
    rintro _ n - p - rfl rfl
    rfl
  node_declare role := congrArg (Node.declare · role)
  node_relate := by
    rintro _ n - a - role rfl rfl
    rfl
  node_varied varied := varied.elim
  varied_indexed free := free
  varied_cut varied := varied.elim
  varied_lost varied := varied.elim
  binding_name := congrArg Binding.name
  fails_malformed what := fun same => .inr (.inr (congrArg (Fault.malformed · what) same))
  fails_arity counts := fun same => .inr (.inr (congrArg (Fault.inconsistentArity · counts) same))
  fails_deep := by
    rintro a - rfl
    by_cases same : l.maxDepth = l'.maxDepth
    · exact .inr (.inr (congrArg (Fault.depthExceeded a) same))
    · exact .inl (.depth same rfl)
  room_pred := by
    rintro n n' ⟨fewer, same⟩
    exact ⟨Nat.sub_le_sub_right fewer 1, fun h => congrArg (· - 1) (same h)⟩
  room_zero := by
    rintro n' ⟨-, same⟩ a
    exact .depth (fun h => nomatch same h) rfl
  room_succ := by
    rintro n ⟨fewer, -⟩
    exact absurd fewer (by omega)
  relates_fanout := by
    rintro stack world a - what count rfl
    exact Coupling.ceilings_relates (Build.checkFanout_trims below a what count) fun _ _ _ _ => trivial
  relates_placeholder := by
    rintro stack world a - source source' index - rfl positions
    have same : Build.placeholder a source' index = Build.placeholder a source index := by
      unfold Build.placeholder
      rw [show source.position = source'.position from positions]
    rw [same]
    exact Coupling.ceilings_relates (Build.placeholder_trims below a source index) fun _ _ _ _ => rfl
  session_emit := by
    rintro stack world n - s - - rfl rfl
    refine ⟨(), trivial, rfl, rfl, fun _ => rfl, ?_⟩
    rintro name position - - - rfl
    rfl
  session_symbol := by
    rintro stack world a - source source' s - name - rfl positions rfl
    refine ⟨(), trivial, ?_, rfl⟩
    show _ = _
    unfold Build.nameNode
    rw [show source.position = source'.position from positions]
  session_size := by
    rintro stack world a - position - s - name - rfl rfl rfl
    rfl
  session_bind := by
    rintro stack world site reads reads' b - s - - rfl figures rfl
    obtain rfl : reads = reads' := Coupling.eq_of_figures id figures
    rfl
  session_bound names := congrArg (Session.boundByClosure · names)
  session_diagnose := by
    rintro stack world a - position - s - kind tag rfl rfl rfl
    rfl
  session_enter := by
    rintro stack world s - kind rfl
    refine ⟨(), (), fun _ _ => trivial, trivial, rfl, ?_⟩
    rintro later t - - rfl
    rfl
  session_log := by
    rintro stack world site s - - rfl
    refine ⟨(), (), trivial, trivial, rfl, ?_⟩
    rintro later t - - rfl
    exact ⟨rfl, .inl rfl⟩
  session_count := by
    rintro stack world site s - - rfl
    refine ⟨(), (), trivial, trivial, rfl, ?_⟩
    rintro later t - - rfl
    exact ⟨rfl, .inl rfl⟩
  relates_closure := by
    intro α β stack world site site' value m m' opened opened' finish finish' _ same inner _ node last
    obtain rfl : site = site' := same
    have opening : (Coupling.ceilings l l').Relates stack world (fun _ _ _ => True)
        (Build.openClosure site) (Build.openClosure site) :=
      Coupling.ceilings_relates (fun _ => .inl rfl) fun _ _ _ _ => trivial
    refine .bind (fun _ _ => trivial) opening fun v _ _ _ _ => ?_
    refine .bind (fun _ _ => trivial) (inner () v trivial) fun v a b _ built => ?_
    obtain ⟨same, here, -⟩ := node v a b built
    rw [show opened' b = opened a from same.symm]
    have closing : (Coupling.ceilings l l').Relates stack v (fun _ n n' => n = n' ∧ n.address = site)
        (Build.closeClosure (opened a)) (Build.closeClosure (opened a)) :=
      Coupling.ceilings_relates (Build.closeClosure_trims below _) fun _ _ _ closed =>
        ⟨rfl, (Build.closeClosure_address closed).trans here⟩
    refine .bind (fun _ _ => trivial) closing fun u n n' _ closed => ?_
    obtain ⟨rfl, place⟩ := closed
    have done := last v a b n n built ⟨rfl, place, place⟩
    rw [show finish' b n = finish a n from done.1.symm]
    exact Coupling.ceilings_relates (fun _ => .inl rfl) fun _ _ _ _ => rfl

/-- No branch is free if all trees are the same. -/
theorem Level.free_ceilings {l l' : Limits} (below : l.Below l') (level level' : Level) :
    level.Free (.ceilings below) level' := .ofNone (fun _ => id) level level'

/-! ## Constructs under other ceilings -/

namespace Compiler

variable {α β : Type}

/-- The same frames under another ceiling on depth. -/
def withDepth (c : Compiler) (depth : Nat) : Compiler :=
  { c with limits := { c.limits with maxDepth := depth } }

/-- Ceilings do no more to what is compiled than cut it off. -/
structure OnlyCut (compile : Compiler → Except ConstructFault α) : Prop where
  /-- Under lower ceilings the result is the same, or a failure of the kind of a ceiling. -/
  same_or_cut : ∀ {c c' : Compiler}, c.frames = c'.frames → c.limits.Below c'.limits →
    compile c = compile c' ∨ ∃ f, compile c = .error f ∧
      f.fault.kind ∈ [.depthExceeded, .sizeExceeded, .invalidCaptureIndex]
  /-- What is compiled at some depth is compiled from a threshold on, and too deep below it. -/
  threshold : ∀ {c : Compiler} {depth result}, compile (c.withDepth depth) = .ok result →
    ∃ least, (∀ d, least ≤ d → compile (c.withDepth d) = .ok result) ∧
      ∀ d < least, ∃ f, compile (c.withDepth d) = .error f ∧ f.fault.kind = .depthExceeded

/-- Under lower ceilings the result is the same, or cut off by a ceiling that is lower. -/
def Trimmed (compile : Compiler → Except ConstructFault α) : Prop :=
  ∀ c c' : Compiler, c.frames = c'.frames → c.limits.Below c'.limits →
    compile c = compile c' ∨ ∃ f, compile c = .error f ∧ c.limits.Cuts c'.limits f.fault

theorem Trimmed.map {compile : Compiler → Except ConstructFault α} (trimmed : Trimmed compile)
    (f : α → β) : Trimmed fun c => (compile c).map f := by
  intro c c' frames below
  obtain same | ⟨fault, failed, cuts⟩ := trimmed c c' frames below
  · exact .inl (congrArg (·.map f) same)
  · exact .inr ⟨fault, congrArg (·.map f) failed, cuts⟩

theorem withDepth_below {c : Compiler} {d d' : Nat} (fewer : d ≤ d') :
    (c.withDepth d).limits.Below (c.withDepth d').limits :=
  ⟨fewer, Nat.le_refl _, Nat.le_refl _⟩

theorem cuts_kind {l l' : Limits} {f : Fault} (cuts : l.Cuts l' f) :
    f.kind ∈ [.depthExceeded, .sizeExceeded, .invalidCaptureIndex] := by
  cases cuts with
  | depth _ kind => simp [kind]
  | fanout _ kind => simp [kind]
  | captures _ kind => cases kind with
    | inl kind => simp [kind]
    | inr kind => simp [kind]

/-- Where only the depths differ, it is depth that cuts. -/
theorem cuts_depth {c : Compiler} {d d' : Nat} {f : Fault}
    (cuts : (c.withDepth d).limits.Cuts (c.withDepth d').limits f) : f.kind = .depthExceeded := by
  cases cuts with
  | depth _ kind => exact kind
  | fanout differ _ => exact absurd rfl differ
  | captures differ _ => exact absurd rfl differ

theorem Trimmed.onlyCut {compile : Compiler → Except ConstructFault α} (trimmed : Trimmed compile) :
    OnlyCut compile where
  same_or_cut frames below :=
    (trimmed _ _ frames below).imp id fun ⟨f, failed, cuts⟩ => ⟨f, failed, cuts_kind cuts⟩
  threshold := by
    intro c depth result success
    classical
    -- The threshold is the least depth at which the construct builds.
    have built : ∃ d, compile (c.withDepth d) = .ok result := ⟨depth, success⟩
    have least := Nat.find_spec built
    refine ⟨Nat.find built, fun d more => ?_, fun d fewer => ?_⟩
    · obtain same | ⟨f, failed, -⟩ := trimmed (c.withDepth (Nat.find built)) (c.withDepth d) rfl
        (withDepth_below more)
      · exact same.symm.trans least
      · exact nomatch failed.symm.trans least
    · obtain same | ⟨f, failed, cuts⟩ := trimmed (c.withDepth d) (c.withDepth (Nat.find built)) rfl
        (withDepth_below (Nat.le_of_lt fewer))
      · exact absurd (same.trans least) (Nat.find_min built fewer)
      · exact ⟨f, failed, cuts_depth cuts⟩

/-- Builds that are related give the same result, unless the first one is cut off. -/
theorem run_trimmed {root : Address} {build : Compiler → Build α}
    (related : ∀ {c c' : Compiler} (below : c.limits.Below c'.limits),
      (Simulation.ceilings below).Relates () () (fun _ => Eq) (build c) (build c')) :
    Trimmed fun c => c.run root (build c) := by
  intro c c' frames below
  have start : c.session = c'.session := by
    unfold session
    rw [frames]
  have meets := related below c.session c'.session start
  change (Coupling.ceilings c.limits c'.limits).Meets _ (((build c).run c.limits).run c.session)
    (((build c').run c'.limits).run c'.session) at meets
  simp only [run]
  generalize ((build c).run c.limits).run c.session = first at meets ⊢
  generalize ((build c').run c'.limits).run c'.session = second at meets ⊢
  cases first with
  | error f =>
      cases second with
      | error f' =>
          obtain cuts | lost | same := meets
          · exact .inr ⟨⟨root, f⟩, rfl, cuts⟩
          · exact lost.elim
          · obtain rfl : f = f' := same
            exact .inl rfl
      | ok y => exact .inr ⟨⟨root, f⟩, rfl, meets⟩
  | ok x =>
      cases second with
      | error f' => exact meets.elim
      | ok y =>
          obtain ⟨a, s⟩ := x
          obtain ⟨b, t⟩ := y
          obtain ⟨_, _, sessions, values⟩ := meets
          obtain rfl : s = t := sessions
          obtain rfl : a = b := values
          exact .inl rfl

/-- Ceilings only cut off builds: whatever a construct is compiled to, under lower ceilings it is
compiled to the same or not at all. -/
theorem ceilings_onlyCut :
    (∀ root source, OnlyCut fun c => c.expression root source) ∧
    (∀ root clauses, OnlyCut fun c => c.function root clauses) ∧
    ∀ root source, OnlyCut fun c => c.pattern root source := by
  have level : ∀ {c c' : Compiler} (below : c.limits.Below c'.limits),
      c.level.Related (.ceilings below) c'.level := fun below =>
    Level.ofRoom_related Likeness.same_closed (fun _ _ => Level.free_ceilings below _ _) _ _
      ⟨below.depth, id⟩
  refine ⟨fun root source => ?_, fun root clauses => ?_, fun root source => ?_⟩
  · refine Trimmed.onlyCut ((run_trimmed fun below => ?_).map _)
    exact Simulation.relates_mono ((level below).expression trivial rfl rfl) fun _ _ _ _ _ => rfl
  · refine Trimmed.onlyCut ((run_trimmed fun below => ?_).map _)
    exact Simulation.relates_mono (Simulation.relates_buildFunction Likeness.same_closed
      (fun _ _ => Level.free_ceilings below _ _) ⟨below.depth, id⟩ trivial rfl
      (Likeness.same_reflexive.forms _ _)) fun _ _ _ _ _ => rfl
  · refine Trimmed.onlyCut ((run_trimmed fun below => ?_).map _)
    exact Simulation.relates_mono ((level below).pattern trivial rfl rfl .nil)
      fun _ _ _ _ found => List.forall₂_eq_eq_eq ▸ found.2

/-- The expression `not not x` is compiled from some depth on. -/
theorem ceilings_onlyCut_negations :
    let source : Source := .unary "not" (.unary "not" (.symbol "x" .empty))
    let c : Compiler := ⟨.standard, []⟩
    ∃ compiled least, 0 < least ∧
      (∀ d, least ≤ d → (c.withDepth d).expression ⟨"expr/0"⟩ source = .ok compiled) ∧
      ∀ d < least, ∃ f, (c.withDepth d).expression ⟨"expr/0"⟩ source = .error f ∧
        f.fault.kind = .depthExceeded := by
  intro source c
  obtain ⟨compiled, success⟩ : ∃ compiled,
      (c.withDepth 256).expression ⟨"expr/0"⟩ source = .ok compiled := ⟨_, rfl⟩
  obtain ⟨least, same, deep⟩ := (ceilings_onlyCut.1 ⟨"expr/0"⟩ source).threshold success
  refine ⟨compiled, least, Nat.pos_of_ne_zero fun none => ?_, same, deep⟩
  exact nomatch same 0 (Nat.le_of_eq none)

end Compiler

end SyntaxGraph
