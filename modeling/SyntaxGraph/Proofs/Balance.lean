import Mathlib.Data.List.Infix
import SyntaxGraph.Build.Expression
import SyntaxGraph.Proofs.Brackets

/-!
# Builders leave balanced stacks

A builder opens frames, logs, counts and closures, and whatever it opens it closes again: the
stacks of the session are afterwards as they were, and of the frames that were there before only the
current one has gained bindings. `Session.Balance` says so of two sessions and `Build.Balanced` of a
step. The rules of the judgement follow the operations that steps are put together from; the one
that has no step of its own is a closure, which is opened and closed by calls that stand apart.

Frames are numbered in 32 bits. A frame that is opened beyond them would get the number of an old
one, so a step is judged by what it leads to as long as all frames have numbers of their own.
-/

namespace SyntaxGraph

/-- A frame later on: opened alike and with all its names, and unless it was the current one, with
the same bindings. -/
structure Frame.Kept (wasCurrent : Prop) (before after : Frame) : Prop where
  kind : after.kind = before.kind
  parent : after.parent = before.parent
  bindings : ¬ wasCurrent → after.bindings = before.bindings
  names : ∀ name, (before.bindings.get? name).isSome = true → (after.bindings.get? name).isSome = true

/-- An open closure later on, whatever it has noted since. -/
structure OpenClosure.Kept (before after : OpenClosure) : Prop where
  closure : after.tracker.closure = before.tracker.closure
  scope : after.tracker.scope = before.tracker.scope
  enclosing : after.enclosing = before.enclosing

/-- The frames that stood still stand, and only the current one may have gained bindings. -/
def Scopes.Keeps (current : ScopeId) (g h : Scopes) : Prop :=
  ∀ scope frame, g.frame? scope = some frame →
    ∃ later, h.frame? scope = some later ∧ frame.Kept (scope = current) later

/-- What a builder leaves of a session. -/
structure Session.Balance (s t : Session) : Prop where
  current : t.current = s.current
  closures : List.Forall₂ OpenClosure.Kept s.closures t.closures
  readLogs : t.readLogs.length = s.readLogs.length
  placeholders : t.placeholders.length = s.placeholders.length
  frames : s.scopes.Keeps s.current t.scopes
  nodes : s.nodes.toList <+: t.nodes.toList
  diagnostics : s.diagnostics.toList <+: t.diagnostics.toList
  reports : s.reports.toList <+: t.reports.toList

/-! ## What stretches keep -/

theorem Frame.Kept.refl (wasCurrent : Prop) (frame : Frame) : frame.Kept wasCurrent frame :=
  ⟨rfl, rfl, fun _ => rfl, fun _ => id⟩

theorem Frame.Kept.trans {wasCurrent : Prop} {a b c : Frame} (first : a.Kept wasCurrent b)
    (second : b.Kept wasCurrent c) : a.Kept wasCurrent c :=
  ⟨second.kind.trans first.kind, second.parent.trans first.parent,
    fun other => (second.bindings other).trans (first.bindings other),
    fun name bound => second.names name (first.names name bound)⟩

theorem OpenClosure.Kept.refl (opened : OpenClosure) : opened.Kept opened := ⟨rfl, rfl, rfl⟩

theorem OpenClosure.Kept.trans {a b c : OpenClosure} (first : a.Kept b) (second : b.Kept c) :
    a.Kept c :=
  ⟨second.closure.trans first.closure, second.scope.trans first.scope,
    second.enclosing.trans first.enclosing⟩

theorem OpenClosure.Follows.kept {moments : List Moment} {a b : OpenClosure}
    (follows : OpenClosure.Follows moments a b) : a.Kept b :=
  ⟨follows.closure, follows.scope, follows.1⟩

namespace Scopes.Keeps

variable {current : ScopeId} {f g h : Scopes}

theorem refl (current : ScopeId) (g : Scopes) : g.Keeps current g :=
  fun _ frame found => ⟨frame, found, .refl _ frame⟩

theorem trans (first : f.Keeps current g) (second : g.Keeps current h) : f.Keeps current h := by
  intro scope frame found
  obtain ⟨middle, found', kept⟩ := first scope frame found
  obtain ⟨last, found'', kept'⟩ := second scope middle found'
  exact ⟨last, found'', kept.trans kept'⟩

theorem bind (current : ScopeId) (g : Scopes) (binding : Binding) :
    g.Keeps current (g.bind current binding) := by
  intro scope frame found
  rw [frame?_bind]
  split
  · rename_i here
    refine ⟨_, congrArg _ found, rfl, rfl, fun other => absurd here other, fun name bound => ?_⟩
    rw [OrderedMap.get?_insert]
    split
    · rfl
    · exact bound
  · exact ⟨frame, found, .refl _ frame⟩

/-- What a stretch keeps inside of a new frame it keeps around it, where nothing is gained at all. -/
theorem of_add {kind : ScopeKind} (small : g.size < 2 ^ 32)
    (inside : (g.add current kind).Keeps g.next h) : g.Keeps current h := by
  intro scope frame found
  have old := lt_size_of_frame? found
  obtain ⟨later, found', kept⟩ := inside scope frame (by rw [frame?_add_of_lt old, found])
  have notNew : scope ≠ g.next := by
    rw [next_eq small]
    rintro rfl
    exact Nat.lt_irrefl _ old
  exact ⟨later, found', kept.kind, kept.parent, fun _ => kept.bindings notNew, kept.names⟩

end Scopes.Keeps

theorem forall₂_kept_refl (closures : List OpenClosure) :
    List.Forall₂ OpenClosure.Kept closures closures :=
  List.forall₂_same.mpr fun opened _ => .refl opened

theorem forall₂_kept_trans {as bs cs : List OpenClosure}
    (first : List.Forall₂ OpenClosure.Kept as bs) (second : List.Forall₂ OpenClosure.Kept bs cs) :
    List.Forall₂ OpenClosure.Kept as cs := by
  induction first generalizing cs with
  | nil =>
      cases second
      exact .nil
  | cons head _ ih =>
      cases second with
      | cons head' tail' => exact .cons (head.trans head') (ih tail')

namespace Session

variable {s t u : Session}

namespace Balance

theorem refl (s : Session) : s.Balance s :=
  ⟨rfl, forall₂_kept_refl _, rfl, rfl, .refl _ _, List.prefix_rfl, List.prefix_rfl, List.prefix_rfl⟩

theorem trans (first : s.Balance t) (second : t.Balance u) : s.Balance u := by
  have frames := second.frames
  rw [first.current] at frames
  exact ⟨second.current.trans first.current, forall₂_kept_trans first.closures second.closures,
    second.readLogs.trans first.readLogs, second.placeholders.trans first.placeholders,
    first.frames.trans frames, first.nodes.trans second.nodes,
    first.diagnostics.trans second.diagnostics, first.reports.trans second.reports⟩

theorem emit (s : Session) (node : Node) : s.Balance (s.emit node) := by
  refine { refl s with nodes := ?_ }
  simp [Session.emit]

theorem diagnose (s : Session) (diagnostic : Diagnostic) : s.Balance (s.diagnose diagnostic) := by
  refine { refl s with diagnostics := ?_ }
  simp [Session.diagnose]

theorem readSymbol (s : Session) (name : String) (reference : Address) (position : Option Position) :
    s.Balance (s.readSymbol name reference position) :=
  { refl s with
    closures := (readSymbol_follows s name reference position).imp fun _ _ => OpenClosure.Follows.kept
    readLogs := List.length_map _ }

theorem bindSymbol (s : Session) (reads : Option (OrderedSet String)) (binding : Binding) :
    s.Balance (s.bindSymbol reads binding) :=
  { refl s with
    closures := (bindSymbol_follows s reads binding).imp fun _ _ => OpenClosure.Follows.kept
    frames := .bind s.current s.scopes binding }

theorem boundByClosure (s : Session) (names : List String) : s.Balance (s.boundByClosure names) := by
  have closures := (boundByClosure_follows s names).imp fun _ _ => OpenClosure.Follows.kept
  unfold Session.boundByClosure at closures ⊢
  split
  · exact refl s
  · rename_i opened others top
    rw [top] at closures
    exact { refl s with closures := by rw [top]; exact closures }

theorem placeholder {greatest : Int64} {rest : List Int64} (seen : s.placeholders = greatest :: rest)
    (index : Int64) : s.Balance { s with placeholders := max greatest index :: rest } :=
  { refl s with placeholders := by rw [seen]; rfl }

/-- A frame of its own is left again. -/
theorem framed {kind : ScopeKind} (small : s.scopes.size < 2 ^ 32) (inner : (s.enter kind).Balance t) :
    s.Balance { t with current := s.current } :=
  { inner with
    current := rfl
    frames := .of_add small inner.frames }

theorem logged (inner : Balance { s with readLogs := ∅ :: s.readLogs } t) :
    s.Balance { t with readLogs := t.readLogs.tail } :=
  { inner with readLogs := by rw [List.length_tail, inner.readLogs]; rfl }

theorem counted (inner : Balance { s with placeholders := 0 :: s.placeholders } t) :
    s.Balance { t with placeholders := t.placeholders.tail } :=
  { inner with placeholders := by rw [List.length_tail, inner.placeholders]; rfl }

/-- While a closure is open, what it was opened on lies below it on the stack. -/
theorem closures_of_open {site : Address} (inner : (s.openClosure site).Balance t) :
    ∃ opened others, t.closures = opened :: others ∧ opened.enclosing = s.current ∧
      List.Forall₂ OpenClosure.Kept s.closures others := by
  have closures := inner.closures
  generalize t.closures = after at closures
  cases closures with
  | cons first rest => exact ⟨_, _, rfl, first.enclosing, rest⟩

/-- A closure is closed where it was opened, and its report and the nodes of its captures stay. -/
theorem closed {site : Address} {opened : OpenClosure} {others : List OpenClosure}
    (small : s.scopes.size < 2 ^ 32) (inner : (s.openClosure site).Balance t)
    (top : t.closures = opened :: others) (report : ClosureReport) :
    s.Balance (t.close opened.enclosing others report) := by
  obtain ⟨opened', others', top', enclosing, closures⟩ := inner.closures_of_open
  obtain ⟨rfl, rfl⟩ := List.cons.inj (top.symm.trans top')
  exact { inner with
    current := enclosing
    closures := closures
    frames := .of_add small inner.frames
    nodes := inner.nodes.trans (by simp)
    reports := inner.reports.trans (by simp [close]) }

end Balance

/-- What a step may lead to: a session with no fewer frames, and a balanced one unless the frames
have run out of numbers. -/
def Settles (s t : Session) : Prop :=
  s.scopes.size ≤ t.scopes.size ∧ (t.scopes.size < 2 ^ 32 → s.Balance t)

namespace Settles

theorem refl (s : Session) : s.Settles s := ⟨Nat.le_refl _, fun _ => .refl s⟩

theorem trans (first : s.Settles t) (second : t.Settles u) : s.Settles u := by
  obtain ⟨grown, balance⟩ := first
  obtain ⟨grown', balance'⟩ := second
  exact ⟨Nat.le_trans grown grown', fun small => (balance (by omega)).trans (balance' small)⟩

theorem of_balance (balance : s.Balance t) (scopes : t.scopes.size = s.scopes.size) : s.Settles t :=
  ⟨Nat.le_of_eq scopes.symm, fun _ => balance⟩

theorem foldl {α : Type} {change : Session → α → Session}
    (each : ∀ (s : Session) (a : α), s.Settles (change s a)) (items : List α) (s : Session) :
    s.Settles (items.foldl change s) := by
  induction items generalizing s with
  | nil => exact .refl s
  | cons item items ih => exact (each s item).trans (ih _)

end Settles

end Session

/-! ## The rules -/

namespace Build

/-- Wherever the step succeeds, it leads to what a step may lead to. -/
def Balanced {α : Type} (step : Build α) : Prop :=
  ∀ limits s a t, step.Yields limits s a t → s.Settles t

/-- Without an open closure there is nothing to close. -/
theorem yields_closeClosure_of_nil {limits : Limits} {s t : Session} {node result : Node}
    (none : s.closures = []) (h : (closeClosure node).Yields limits s result t) : s = t := by
  obtain ⟨now, u, got, rest⟩ := yields_bind h
  obtain ⟨rfl, rfl⟩ := yields_get got
  rw [none] at rest
  exact (yields_pure rest).2

namespace Balanced

variable {α β : Type} {step : Build α} {next : α → Build β}

theorem pure (a : α) : Balanced (Pure.pure a : Build α) := by
  intro limits s b t h
  obtain ⟨-, rfl⟩ := yields_pure h
  exact .refl s

theorem bind (first : Balanced step) (rest : ∀ a, Balanced (next a)) : Balanced (step >>= next) := by
  intro limits s b t h
  obtain ⟨a, u, begun, ended⟩ := yields_bind h
  exact (first _ _ _ _ begun).trans (rest a _ _ _ _ ended)

theorem throw (fault : Fault) : Balanced (MonadExcept.throw fault : Build α) :=
  fun _ _ _ _ h => absurd h not_yields_throw

theorem tooDeep (site : Address) : Balanced (Build.tooDeep site : Build α) :=
  fun _ _ _ _ h => absurd h not_yields_tooDeep

theorem malformed (site : Address) (what : Malformation) :
    Balanced (Build.malformed site what : Build α) :=
  fun _ _ _ _ h => absurd h not_yields_malformed

theorem checkFanout (site : Address) (what : String) (count : Nat) :
    Balanced (Build.checkFanout site what count) := by
  intro limits s _ t h
  obtain ⟨-, rfl⟩ := yields_checkFanout h
  exact .refl s

theorem emit (node : Node) : Balanced (Build.emit node) := by
  intro limits s _ t h
  obtain rfl := yields_emit h
  exact .of_balance (.emit s node) rfl

theorem unknown (site : Address) (tag : String) (position : Option Position) :
    Balanced (Build.unknown site tag position) := by
  refine (emit _).bind fun _ => ?_
  intro limits s _ t h
  obtain rfl := yields_modify h
  exact .of_balance (.diagnose s _) rfl

theorem readSymbol (name : String) (reference : Address) (position : Option Position) :
    Balanced (Build.readSymbol name reference position) := by
  intro limits s _ t h
  obtain rfl := yields_readSymbol h
  exact .of_balance (.readSymbol s name reference position) rfl

theorem readAll (reads : List (String × Address)) (position : Option Position) :
    Balanced (Build.readAll reads position) := by
  intro limits s _ t h
  obtain rfl := yields_readAll h
  have each (s : Session) (read : String × Address) : s.Settles (s.readSymbol read.1 read.2 position) :=
    .of_balance (.readSymbol s read.1 read.2 position) rfl
  exact .foldl each reads s

theorem bindAll (bindings : List Binding) (reads : Option (OrderedSet String)) :
    Balanced (Build.bindAll bindings reads) := by
  intro limits s _ t h
  obtain rfl := yields_bindAll h
  have each (s : Session) (binding : Binding) : s.Settles (s.bindSymbol reads binding) :=
    .of_balance (.bindSymbol s reads binding) Scopes.size_bind
  exact .foldl each bindings s

theorem boundByClosure (names : List String) : Balanced (Build.boundByClosure names) := by
  intro limits s _ t h
  obtain rfl := yields_boundByClosure h
  exact .of_balance (.boundByClosure s names) (by simp)

theorem inScope (kind : ScopeKind) (inner : Balanced step) : Balanced (Build.inScope kind step) := by
  intro limits s a t h
  obtain ⟨u, within, rfl⟩ := yields_inScope h
  obtain ⟨grown, balance⟩ := inner _ _ _ _ within
  have opened : (s.enter kind).scopes.size = s.scopes.size + 1 := Scopes.size_add
  refine ⟨show s.scopes.size ≤ u.scopes.size by omega, fun small => ?_⟩
  replace small : u.scopes.size < 2 ^ 32 := small
  exact .framed (by omega) (balance small)

theorem trackReads (inner : Balanced step) : Balanced (Build.trackReads step) := by
  intro limits s a t h
  obtain ⟨u, within, -, rfl⟩ := yields_trackReads h
  obtain ⟨grown, balance⟩ := inner _ _ _ _ within
  exact ⟨grown, fun small => (balance small).logged⟩

theorem trackPlaceholders (inner : Balanced step) : Balanced (Build.trackPlaceholders step) := by
  intro limits s a t h
  obtain ⟨u, within, -, rfl⟩ := yields_trackPlaceholders h
  obtain ⟨grown, balance⟩ := inner _ _ _ _ within
  exact ⟨grown, fun small => (balance small).counted⟩

/-- The calls that open and close a closure are balanced together. -/
theorem closure (site : Address) (inner : Balanced step) (node : α → Node) (finish : α → Node → Node) :
    Balanced (do
      openClosure site
      let a ← step
      let n ← closeClosure (node a)
      Build.emit (finish a n)) := by
  intro limits s _ t h
  obtain ⟨a, v, n, w, within, closing, rfl⟩ := yields_closure h
  obtain ⟨grown, balance⟩ := inner _ _ _ _ within
  have opened : (s.openClosure site).scopes.size = s.scopes.size + 1 := Scopes.size_add
  suffices closed : s.Settles w from closed.trans (.of_balance (.emit w _) rfl)
  cases top : v.closures with
  | nil =>
      have left := yields_closeClosure_of_nil top closing
      subst left
      refine ⟨by omega, fun small => ?_⟩
      obtain ⟨first, others, top', -⟩ := (balance small).closures_of_open
      cases top.symm.trans top'
  | cons first others =>
      obtain ⟨report, -, -, rfl⟩ := yields_closeClosure top closing
      refine ⟨show s.scopes.size ≤ v.scopes.size by omega, fun small => ?_⟩
      replace small : v.scopes.size < 2 ^ 32 := small
      exact (balance small).closed (by omega) top report

theorem foldlM {build : β → α → Build β} (each : ∀ value part, Balanced (build value part))
    (parts : List α) (value : β) : Balanced (parts.foldlM build value) := by
  induction parts generalizing value with
  | nil => exact pure _
  | cons part parts ih =>
      rw [List.foldlM_cons]
      exact (each value part).bind ih

theorem foldParts {site : Address} {role : Role} {build : Address → α → β → Build β}
    (each : ∀ address part value, Balanced (build address part value)) (index : Nat) (parts : List α)
    (value : β) : Balanced (Build.foldParts site role build index parts value) := by
  induction parts generalizing index value with
  | nil => exact pure _
  | cons part parts ih =>
      exact (each _ part value).bind fun value => (ih _ value).bind fun _ => pure _

theorem eachPart {site : Address} {role : Role} {build : Address → α → Build Unit}
    (each : ∀ address part, Balanced (build address part)) (parts : List α) :
    Balanced (Build.eachPart site role build parts) :=
  (foldParts (fun address part _ => each address part) 0 parts ()).bind fun _ => pure _

end Balanced

end Build

end SyntaxGraph
