import SyntaxGraph.Proofs.Ceilings

/-!
# Runs on changed data

Some changes of what a build is given pass through it: whatever it collects is changed
alike, and nothing is decided otherwise. Moving a construct to another root is one, taking
the positions out of a tree is another. A `Recast` is a change of addresses that keeps their
order and goes along with steps, together with a change of positions wherever they are
noted. One lemma per operation says that it goes along with a recast; so does every
primitive step, and with them every builder.
-/

namespace SyntaxGraph

/-- A map of addresses that keeps their order and goes along with every step. -/
structure Placement where
  place : Address → Address
  compare_place : ∀ a b, compare (place a) (place b) = compare a b
  place_child : ∀ a label, place (a.child label) = (place a).child label
  place_indexed : ∀ a label index, place (a.indexed label index) = (place a).indexed label index

theorem Placement.place_inj (p : Placement) {a b : Address} : p.place a = p.place b ↔ a = b := by
  rw [← Std.compare_eq_iff_eq, p.compare_place, Std.compare_eq_iff_eq]

namespace OrderedMap

variable {κ : Type} [Ord κ] {α β : Type}

def mapValues (f : α → β) (m : OrderedMap κ α) : OrderedMap κ β :=
  ⟨m.entries.map fun entry => (entry.1, f entry.2), List.pairwise_map.mpr m.rising⟩

@[simp] theorem mapValues_empty (f : α → β) : (∅ : OrderedMap κ α).mapValues f = ∅ := rfl

@[simp] theorem get?_mapValues (f : α → β) (m : OrderedMap κ α) (key : κ) :
    (m.mapValues f).get? key = (m.get? key).map f := by
  simp [get?, mapValues, List.find?_map, Function.comp_def]

@[simp] theorem contains_mapValues (f : α → β) (m : OrderedMap κ α) (key : κ) :
    (m.mapValues f).contains key = m.contains key := by
  simp [contains]

@[simp] theorem keys_mapValues (f : α → β) (m : OrderedMap κ α) : (m.mapValues f).keys = m.keys := by
  simp [keys, mapValues, Function.comp_def]

@[simp] theorem size_mapValues (f : α → β) (m : OrderedMap κ α) : (m.mapValues f).size = m.size := by
  simp [size, mapValues]

@[simp] theorem mapValues_insert [Std.TransOrd κ] (f : α → β) (m : OrderedMap κ α) (key : κ) (value : α) :
    (m.insert key value).mapValues f = (m.mapValues f).insert key (f value) := by
  obtain ⟨entries, rising⟩ := m
  apply ext
  show (insertEntry key value entries).map _ = insertEntry key (f value) (entries.map _)
  clear rising
  induction entries with
  | nil => rfl
  | cons entry rest ih =>
      simp only [List.map_cons, insertEntry]
      split <;> simp [ih]

theorem mapValues_mapValues {γ : Type} (f : α → β) (g : β → γ) (m : OrderedMap κ α) :
    (m.mapValues f).mapValues g = m.mapValues fun value => g (f value) := by
  apply ext
  simp [mapValues]

end OrderedMap

/-- Note a known position among properties. -/
def Node.notePosition (properties : OrderedMap String Property) :
    Option Position → OrderedMap String Property
  | none => properties
  | some p =>
    let properties := properties.insert "line" (.ofNat p.line.toNat)
    match p.column with
    | none => properties
    | some column => properties.insert "column" (.ofNat column.toNat)

theorem Node.withPosition_eq (n : Node) (position : Option Position) :
    n.withPosition position = { n with properties := notePosition n.properties position } := by
  cases position with
  | none => rfl
  | some p =>
      simp only [withPosition, notePosition]
      cases p.column <;> rfl

/-- A change of addresses and positions that goes along with everything a build does. -/
structure Recast extends Placement where
  position : Option Position → Option Position
  /-- What becomes of the positions of the reads of a name. -/
  positions : List Position → List Position
  /-- What becomes of the properties of a node, positions among them. -/
  properties : OrderedMap String Property → OrderedMap String Property
  position_none : position none = none
  positions_nil : positions [] = []
  positions_append : ∀ noted p, positions (noted ++ p.toList) = positions noted ++ (position p).toList
  properties_empty : properties ∅ = ∅
  properties_insert : ∀ m name value, name ∉ Node.placeNames →
    properties (m.insert name value) = (properties m).insert name value
  properties_note : ∀ m p, properties (Node.notePosition m p) =
    Node.notePosition (properties m) (position p)

/-! ## The same data, changed -/

def Relation.readdress (f : Address → Address) (r : Relation) : Relation :=
  { r with targets := r.targets.map f }

def Node.recast (r : Recast) (n : Node) : Node :=
  { n with
    address := r.place n.address
    properties := r.properties n.properties
    relations := n.relations.mapValues (·.readdress r.place) }

def Binding.recast (r : Recast) (b : Binding) : Binding :=
  { b with node := b.node.map r.place, position := r.position b.position }

def Frame.recast (r : Recast) (frame : Frame) : Frame :=
  { frame with bindings := frame.bindings.mapValues (·.recast r) }

def Scopes.recast (r : Recast) (g : Scopes) : Scopes := ⟨g.frames.map (·.recast r)⟩

def Supply.readdress (f : Address → Address) (s : Supply) : Supply :=
  { s with binding := s.binding.map f }

def Capture.recast (r : Recast) (c : Capture) : Capture :=
  { c with
    positions := r.positions c.positions
    references := c.references.map r.place
    supply := c.supply.map (·.readdress r.place) }

def ClosureReport.recast (r : Recast) (report : ClosureReport) : ClosureReport :=
  { report with closure := r.place report.closure, captures := report.captures.map (·.recast r) }

def Diagnostic.recast (r : Recast) (d : Diagnostic) : Diagnostic :=
  { d with site := r.place d.site, position := r.position d.position }

def Fault.readdress (f : Address → Address) : Fault → Fault
  | .malformed site what => .malformed (f site) what
  | .inconsistentArity site arities => .inconsistentArity (f site) arities
  | .depthExceeded site limit => .depthExceeded (f site) limit
  | .sizeExceeded site what actual limit => .sizeExceeded (f site) what actual limit
  | .invalidCaptureIndex site index greatest => .invalidCaptureIndex (f site) index greatest

def ConstructFault.readdress (f : Address → Address) (fault : ConstructFault) : ConstructFault :=
  ⟨f fault.construct, fault.fault.readdress f⟩

def Compiled.recast (r : Recast) (c : Compiled) : Compiled :=
  ⟨r.place c.root, c.nodes.map (·.recast r), c.diagnostics.map (·.recast r),
    c.closures.map (·.recast r)⟩

def FreeUse.recast (r : Recast) (use : FreeUse) : FreeUse :=
  { use with positions := r.positions use.positions, references := use.references.map r.place }

def Tracker.recast (r : Recast) (t : Tracker) : Tracker :=
  { t with closure := r.place t.closure, free := t.free.mapValues (·.recast r) }

def OpenClosure.recast (r : Recast) (c : OpenClosure) : OpenClosure :=
  { c with tracker := c.tracker.recast r }

def Session.recast (r : Recast) (s : Session) : Session :=
  { s with
    scopes := s.scopes.recast r
    nodes := s.nodes.map (·.recast r)
    diagnostics := s.diagnostics.map (·.recast r)
    reports := s.reports.map (·.recast r)
    closures := s.closures.map (·.recast r) }

/-! ## Nodes -/

section Relations

variable (p : Placement)

theorem Relation.insertSorted_readdress (target : Address) (targets : List Address) :
    insertSorted (p.place target) (targets.map p.place) = (insertSorted target targets).map p.place := by
  have beyond : (fun i : Nat => ((targets.map p.place)[i]?.map fun other =>
        compare other (p.place target) == .gt).getD false) =
      fun i : Nat => (targets[i]?.map fun other => compare other target == .gt).getD false := by
    funext i
    simp [Function.comp_def, p.compare_place]
  unfold insertSorted
  simp only [beyond, List.length_map]
  rw [List.getElem?_map]
  generalize narrow _ targets.length 0 = i
  cases targets[i]? with
  | none => rfl
  | some other =>
      simp only [Option.map_some, p.compare_place]
      cases compare other target <;> simp [List.map_insertIdx]

theorem Relation.push_readdress (r : Relation) (target : Address) :
    (r.push target).readdress p.place = (r.readdress p.place).push (p.place target) := by
  obtain ⟨targets, ordered⟩ := r
  cases ordered <;> simp [push, readdress, insertSorted_readdress]

end Relations

namespace Node

variable (r : Recast) (n : Node)

@[simp] theorem recast_address : (n.recast r).address = r.place n.address := rfl

theorem recast_make (site : Address) (kind : NodeKind) :
    (make site kind).recast r = make (r.place site) kind := by
  simp [recast, make, r.properties_empty]

theorem recast_set (name : String) (value : Property) (other : name ∉ placeNames) :
    (n.set name value).recast r = (n.recast r).set name value := by
  simp [recast, set, r.properties_insert _ _ _ other]

theorem recast_withTags (tags : List NodeTag) :
    (n.withTags tags).recast r = (n.recast r).withTags tags := rfl

theorem recast_withPosition (position : Option Position) :
    (n.withPosition position).recast r = (n.recast r).withPosition (r.position position) := by
  rw [withPosition_eq, withPosition_eq]
  simp [recast, r.properties_note]

theorem relation_recast (role : Role) :
    (n.recast r).relation role = (n.relation role).readdress r.place := by
  unfold relation
  simp only [recast, OrderedMap.get?_mapValues]
  cases n.relations.get? role <;> rfl

theorem recast_declare (role : Role) : (n.declare role).recast r = (n.recast r).declare role := by
  unfold declare
  rw [relation_recast]
  simp [recast]

theorem recast_relate (role : Role) (target : Address) :
    (n.relate role target).recast r = (n.recast r).relate role (r.place target) := by
  unfold relate
  rw [relation_recast, ← Relation.push_readdress]
  simp [recast]

theorem recast_relateAll (role : Role) (targets : List Address) :
    (n.relateAll role targets).recast r = (n.recast r).relateAll role (targets.map r.place) := by
  induction targets generalizing n with
  | nil => rfl
  | cons target targets ih =>
      rw [List.map_cons, relateAll_cons, relateAll_cons, ← recast_relate]
      exact ih (n.relate role target)

end Node

/-! ## Frames -/

namespace Scopes

variable (r : Recast) (g : Scopes)

@[simp] theorem size_recast : (g.recast r).size = g.size := by
  simp [size, recast]

@[simp] theorem next_recast : (g.recast r).next = g.next := by
  simp [next]

@[simp] theorem frame?_recast (scope : ScopeId) :
    (g.recast r).frame? scope = (g.frame? scope).map (·.recast r) := by
  simp [frame?, recast]

@[simp] theorem parent?_recast (scope : ScopeId) :
    (g.recast r).parent? scope = g.parent? scope := by
  simp only [parent?, frame?_recast]
  cases g.frame? scope <;> rfl

@[simp] theorem lookupLocal_recast (scope : ScopeId) (name : String) :
    (g.recast r).lookupLocal scope name = (g.lookupLocal scope name).map (·.recast r) := by
  simp only [lookupLocal, frame?_recast]
  cases g.frame? scope with
  | none => rfl
  | some frame => exact OrderedMap.get?_mapValues _ _ _

theorem recast_add (parent : ScopeId) (kind : ScopeKind) :
    (g.add parent kind).recast r = (g.recast r).add parent kind := by
  simp [add, recast, Frame.recast]

theorem recast_bind (scope : ScopeId) (b : Binding) :
    (g.bind scope b).recast r = (g.recast r).bind scope (b.recast r) := by
  unfold bind recast
  congr 1
  apply Array.ext_getElem?
  intro i
  simp only [Array.getElem?_map, Array.getElem?_modify]
  split
  · simp only [Option.map_map]
    congr 1
    funext frame
    simp [Frame.recast, Binding.recast]
  · rfl

theorem lookupWithin_recast (name : String) (fuel : Nat) (scope : ScopeId) :
    (g.recast r).lookupWithin name fuel scope =
      (g.lookupWithin name fuel scope).map fun found => (found.1, found.2.recast r) := by
  induction fuel generalizing scope with
  | zero => rfl
  | succ fuel ih =>
      simp only [lookupWithin, lookupLocal_recast, parent?_recast]
      cases g.lookupLocal scope name with
      | some b => rfl
      | none =>
          cases g.parent? scope with
          | none => rfl
          | some parent => exact ih parent

theorem reaches_recast (ancestor : ScopeId) (fuel : Nat) (scope : ScopeId) :
    (g.recast r).reaches ancestor fuel scope = g.reaches ancestor fuel scope := by
  induction fuel generalizing scope with
  | zero => rfl
  | succ fuel ih =>
      simp only [reaches, parent?_recast]
      cases g.parent? scope with
      | none => rfl
      | some parent =>
          dsimp only
          rw [ih]

@[simp] theorem isWithin_recast (scope ancestor : ScopeId) :
    (g.recast r).isWithin scope ancestor = g.isWithin scope ancestor := by
  simp only [isWithin, size_recast, reaches_recast]

theorem summaries_recast (depth : Nat) (site : Address) (scope : ScopeId) :
    (g.recast r).summaries depth (r.place site) scope =
      (g.summaries depth site scope).mapError (·.readdress r.place) := by
  have walk : ∀ fault room scope, (g.recast r).summariesWithin (fault.readdress r.place) room scope =
      (g.summariesWithin fault room scope).mapError (·.readdress r.place) := by
    intro fault room
    induction room with
    | zero => exact fun _ => rfl
    | succ room ih =>
        intro scope
        simp only [summariesWithin, frame?_recast]
        cases g.frame? scope with
        | none => rfl
        | some frame =>
            simp only [Option.map_some, Frame.recast, OrderedMap.keys_mapValues]
            cases frame.parent with
            | none => rfl
            | some parent =>
                dsimp only
                rw [ih]
                cases g.summariesWithin fault room parent <;> rfl
  exact walk (.depthExceeded site depth) depth scope

theorem supply_recast (depth : Nat) (site : Address) (scope : ScopeId) (name : String) :
    (g.recast r).supply depth (r.place site) scope name =
      ((g.supply depth site scope name).map (Option.map (·.readdress r.place))).mapError
        (·.readdress r.place) := by
  have walk : ∀ fault room distance scope,
      (g.recast r).supplyWithin (fault.readdress r.place) name room distance scope =
        ((g.supplyWithin fault name room distance scope).map
          (Option.map (·.readdress r.place))).mapError (·.readdress r.place) := by
    intro fault room
    induction room with
    | zero => exact fun _ _ => rfl
    | succ room ih =>
        intro distance scope
        simp only [supplyWithin, frame?_recast]
        cases g.frame? scope with
        | none => rfl
        | some frame =>
            simp only [Option.map_some, Frame.recast, OrderedMap.get?_mapValues]
            cases frame.bindings.get? name with
            | some b => rfl
            | none =>
                cases frame.parent with
                | none => rfl
                | some parent => exact ih (distance + 1) parent
  exact walk (.depthExceeded site depth) depth 0 scope

end Scopes

/-! ## Closures -/

namespace Tracker

variable (r : Recast) (t : Tracker)

theorem use_recast (name : String) : (t.recast r).use name = (t.use name).recast r := by
  simp only [use, recast, OrderedMap.get?_mapValues]
  cases t.free.get? name with
  | some use => rfl
  | none => simp [FreeUse.recast, r.positions_nil, default]

theorem recast_recordRead (name : String) (reference : Address) (position : Option Position) :
    (t.recordRead name reference position).recast r =
      (t.recast r).recordRead name (r.place reference) (r.position position) := by
  simp only [recordRead, use_recast]
  simp [recast, FreeUse.recast, r.positions_append]

theorem recast_recordRebinding (name : String) (readsSelf : Bool) :
    (t.recordRebinding name readsSelf).recast r =
      (t.recast r).recordRebinding name readsSelf := by
  simp only [recordRebinding, use_recast]
  simp [recast, FreeUse.recast]

theorem captures_recast (name : String) : (t.recast r).captures name = t.captures name := by
  simp [captures, recast]

variable (scopes : Scopes) (enclosing : ScopeId) (limits : Limits)

theorem capture_recast (entry : String × FreeUse) :
    (t.recast r).capture (scopes.recast r) enclosing limits (entry.1, entry.2.recast r) =
      ((t.capture scopes enclosing limits entry).map (·.recast r)).mapError (·.readdress r.place) := by
  simp only [capture, recast, Scopes.supply_recast]
  cases scopes.supply limits.maxDepth t.closure enclosing entry.1 <;> rfl

theorem report_recast :
    (t.recast r).report (scopes.recast r) enclosing limits =
      ((t.report scopes enclosing limits).map (·.recast r)).mapError (·.readdress r.place) := by
  have resolved : (t.recast r).free.entries.mapM
      ((t.recast r).capture (scopes.recast r) enclosing limits) =
        ((t.free.entries.mapM (t.capture scopes enclosing limits)).map
          (List.map (·.recast r))).mapError (·.readdress r.place) := by
    show (t.free.entries.map fun entry => (entry.1, entry.2.recast r)).mapM _ = _
    induction t.free.entries with
    | nil => rfl
    | cons entry entries ih =>
        simp only [List.map_cons, List.mapM_cons]
        rw [ih, capture_recast]
        cases t.capture scopes enclosing limits entry with
        | error fault => rfl
        | ok capture => cases entries.mapM (t.capture scopes enclosing limits) <;> rfl
  unfold report
  rw [resolved]
  simp only [recast, OrderedMap.size_mapValues, Scopes.summaries_recast]
  split
  · rfl
  · cases scopes.summaries limits.maxDepth t.closure enclosing with
    | error fault => rfl
    | ok chain => cases t.free.entries.mapM (t.capture scopes enclosing limits) <;> rfl

end Tracker

namespace ClosureReport

variable (r : Recast) (report : ClosureReport)

theorem captureNode_recast (index : Nat) (capture : Capture) :
    (report.recast r).captureNode index (capture.recast r) =
      (report.captureNode index capture).recast r := by
  have site : (report.recast r).closure.indexed Role.captures.label index =
      r.place (report.closure.indexed Role.captures.label index) := (r.place_indexed _ _ _).symm
  unfold captureNode
  rw [Node.recast_relateAll, site]
  obtain ⟨name, positions, references, supply, mutation⟩ := capture
  cases supply with
  | none =>
      simp (disch := decide) only [Capture.recast, Capture.referenceCount, Node.recast_set,
        Node.recast_withTags, Node.recast_make, Option.map_none, List.length_map]
  | some supply =>
      obtain ⟨scope, kind, distance, binding⟩ := supply
      cases binding <;>
        simp (disch := decide) only [Capture.recast, Capture.referenceCount, Supply.readdress,
          Node.recast_relate, Node.recast_set, Node.recast_withTags, Node.recast_make, Option.map_none,
          Option.map_some, Option.isSome_some, List.length_map]

theorem captureNodes_recast :
    (report.recast r).captureNodes = report.captureNodes.map (·.recast r) := by
  apply List.ext_getElem?
  intro i
  have captures : (report.recast r).captures = report.captures.map (·.recast r) := rfl
  simp only [captureNodes, captures, List.getElem?_mapIdx, List.getElem?_map, Option.map_map]
  congr 1
  funext capture
  exact report.captureNode_recast r i capture

end ClosureReport

/-! ## Sessions -/

namespace Session

variable (r : Recast) (s : Session)

theorem recast_emit (node : Node) :
    (s.emit node).recast r = (s.recast r).emit (node.recast r) := by
  simp [emit, recast]

theorem recast_diagnose (d : Diagnostic) :
    (s.diagnose d).recast r = (s.recast r).diagnose (d.recast r) := by
  simp [diagnose, recast]

@[simp] theorem definingScope?_recast (name : String) :
    (s.recast r).definingScope? name = s.definingScope? name := by
  show ((s.scopes.recast r).lookup s.current name).map _ = _
  simp [definingScope?, Scopes.lookup, Scopes.lookupWithin_recast, Function.comp_def]

theorem recast_readSymbol (name : String) (reference : Address) (position : Option Position) :
    (s.readSymbol name reference position).recast r =
      (s.recast r).readSymbol name (r.place reference) (r.position position) := by
  simp only [readSymbol, definingScope?_recast]
  simp only [recast, Scopes.isWithin_recast, List.map_map, Function.comp_def]
  congr 2
  funext closure
  have scope : (closure.recast r).tracker.scope = closure.tracker.scope := rfl
  rw [scope, apply_ite (OpenClosure.recast r)]
  congr 1
  exact congrArg (OpenClosure.mk · closure.enclosing) (closure.tracker.recast_recordRead r _ _ _)

theorem recast_bindSymbol (reads : Option (OrderedSet String)) (b : Binding) :
    (s.bindSymbol reads b).recast r = (s.recast r).bindSymbol reads (b.recast r) := by
  simp only [bindSymbol, show (b.recast r).name = b.name from rfl, definingScope?_recast]
  simp only [recast, Scopes.isWithin_recast, Scopes.recast_bind, List.map_map,
    Function.comp_def]
  congr 2
  funext closure
  cases reads with
  | none => rfl
  | some reads =>
      have scope : (closure.recast r).tracker.scope = closure.tracker.scope := rfl
      have captured : (closure.recast r).tracker.captures b.name = closure.tracker.captures b.name :=
        closure.tracker.captures_recast r b.name
      dsimp only
      rw [scope, captured, apply_ite (OpenClosure.recast r)]
      congr 1
      exact congrArg (OpenClosure.mk · closure.enclosing) (closure.tracker.recast_recordRebinding r _ _)

theorem recast_enter (kind : ScopeKind) :
    (s.enter kind).recast r = (s.recast r).enter kind := by
  simp [enter, recast, Scopes.recast_add]

theorem recast_openClosure (closure : Address) :
    (s.openClosure closure).recast r = (s.recast r).openClosure (r.place closure) := by
  simp only [openClosure, ← recast_enter]
  rfl

theorem recast_boundByClosure (names : List String) :
    (s.boundByClosure names).recast r = (s.recast r).boundByClosure names := by
  obtain ⟨scopes, current, nodes, diagnostics, reports, closures, readLogs, placeholders⟩ := s
  cases closures <;> rfl

theorem recast_closeWith (closure : OpenClosure) (rest : List OpenClosure) (report : ClosureReport) :
    (s.closeWith closure rest report).recast r =
      (s.recast r).closeWith (closure.recast r) (rest.map (·.recast r)) (report.recast r) := by
  have nodes : (s.nodes ++ report.captureNodes).map (·.recast r) =
      s.nodes.map (·.recast r) ++ report.captureNodes.map (·.recast r) := by
    apply Array.ext'
    simp
  simp only [closeWith, recast, nodes, ClosureReport.captureNodes_recast, Array.map_push]
  rfl

end Session

/-! ## The simulation -/

namespace Coupling

/-- The second run does with changed data what the first one does. -/
def recast (r : Recast) (l : Limits) (like : Likeness) : Coupling where
  Stack := Unit
  World := Unit
  grows _ _ := True
  limits := l
  limits' := l
  like := like
  session _ _ s s' := s.recast r = s'
  address a a' := r.place a = a'
  within _ _ := True
  node _ n n' := n.recast r = n'
  part _ a a' := r.place a = a'
  segment _ a a' := r.place a = a'
  binding _ b b' := b.recast r = b'
  room := Eq
  varied _ := False
  cut _ := False
  lost _ := False
  fault f f' := f.readdress r.place = f'

variable {α β : Type} {r : Recast} {l : Limits} {like : Likeness} {m : Build α} {m' : Build β}

/-- The outcome of a build with its data changed. -/
def recasted (r : Recast) (f : α → β) (x : Except Fault (α × Session)) :
    Except Fault (β × Session) :=
  (x.map fun done => (f done.1, done.2.recast r)).mapError (·.readdress r.place)

theorem recast_relates {value : Unit → α → β → Prop} (f : α → β)
    (goes : ∀ s : Session, (m'.run l).run (s.recast r) = recasted r f ((m.run l).run s))
    (holds : ∀ s a t, m.Yields l s a t → value () a (f a)) :
    (recast r l like).Relates () () value m m' := by
  rintro s - rfl
  show (recast r l like).Meets _ ((m.run l).run s) ((m'.run l).run (s.recast r))
  rw [goes]
  cases ran : (m.run l).run s with
  | error fault => exact .inr (.inr rfl)
  | ok done => exact ⟨(), trivial, rfl, holds s done.1 done.2 ran⟩

theorem Relates.recasted {f : α → β}
    (related : (recast r l like).Relates () () (fun _ a b => f a = b) m m') (s : Session) :
    (m'.run l).run (s.recast r) = recasted r f ((m.run l).run s) := by
  have meets := related s _ rfl
  change (recast r l like).Meets _ ((m.run l).run s) ((m'.run l).run (s.recast r)) at meets
  generalize (m.run l).run s = first at meets ⊢
  generalize (m'.run l).run (s.recast r) = second at meets ⊢
  cases first with
  | error fault =>
      cases second with
      | error fault' =>
          obtain ⟨⟨⟩⟩ | ⟨⟨⟩⟩ | same := meets
          exact congrArg Except.error same.symm
      | ok done => exact meets.elim
  | ok done =>
      cases second with
      | error fault => exact meets.elim
      | ok done' =>
          obtain ⟨_, _, sessions, values⟩ := meets
          exact congrArg Except.ok (Prod.ext values.symm sessions.symm)

end Coupling

namespace Build

variable (r : Recast) (l : Limits)

theorem checkFanout_recasted (site : Address) (what : String) (count : Nat) (s : Session) :
    ((checkFanout (r.place site) what count).run l).run (s.recast r) =
      Coupling.recasted r id (((checkFanout site what count).run l).run s) := by
  rw [run_checkFanout, run_checkFanout]
  split <;> rfl

theorem placeholder_recasted (site : Address) {source source' : Source} (index : Int64)
    (positions : r.position source.position = source'.position) (s : Session) :
    ((placeholder (r.place site) source' index).run l).run (s.recast r) =
      Coupling.recasted r id (((placeholder site source index).run l).run s) := by
  rw [run_placeholder, run_placeholder, show (s.recast r).placeholders = s.placeholders from rfl]
  split
  · cases s.placeholders with
    | nil => rfl
    | cons greatest rest =>
        refine congrArg (fun t => Except.ok ((), t)) ?_
        rw [Session.recast_emit, Node.recast_withPosition, Node.recast_set _ _ _ _ (by decide),
          Node.recast_withTags, Node.recast_make, positions]
        rfl
  · rfl

theorem closeClosure_recasted (node : Node) (s : Session) :
    ((closeClosure (node.recast r)).run l).run (s.recast r) =
      Coupling.recasted r (·.recast r) (((closeClosure node).run l).run s) := by
  rw [run_closeClosure, run_closeClosure,
    show (s.recast r).closures = s.closures.map (·.recast r) from rfl]
  cases s.closures with
  | nil => rfl
  | cons closure rest =>
      have report := closure.tracker.report_recast r s.scopes closure.enclosing l
      simp only [List.map_cons]
      rw [show (closure.recast r).tracker.report (s.recast r).scopes (closure.recast r).enclosing l = _
        from report]
      cases closure.tracker.report s.scopes closure.enclosing l with
      | error fault => rfl
      | ok report =>
          refine congrArg Except.ok (Prod.ext ?_ (s.recast_closeWith r closure rest report).symm)
          show Node.relateAll _ _ ((report.recast r).captureNodes.map (·.address)) =
            ((node.declare .captures).relateAll .captures _).recast r
          rw [Node.recast_relateAll, Node.recast_declare, ClosureReport.captureNodes_recast]
          simp [Function.comp_def]

end Build

/-- Every primitive step goes along with a recast, if the trees it compares differ by it. -/
def Simulation.recast (r : Recast) (l : Limits) (like : Likeness)
    (positions : ∀ p p', like.position p p' → r.position p = p') (fixed : ∀ a, ¬ like.free a) :
    Simulation where
  toCoupling := .recast r l like
  grows_refl _ := trivial
  grows_trans _ _ := trivial
  node_mono _ := id
  part_mono _ := id
  segment_mono _ := id
  binding_mono _ := id
  address_child := by
    rintro a - label rfl
    exact r.place_child a label
  address_indexed := by
    rintro a - label index rfl
    exact r.place_indexed a label index
  within_child _ := id
  within_indexed _ _ := id
  node_address := by
    rintro _ n - rfl
    rfl
  node_make := by
    rintro _ a - kind rfl -
    exact Node.recast_make r a kind
  node_set := by
    rintro _ n - name value other rfl
    exact n.recast_set r name value other
  node_withTags := by
    rintro _ n - tags rfl
    rfl
  node_withPosition := by
    rintro _ n - position position' rfl alike
    exact (n.recast_withPosition r position).trans
      (congrArg (n.recast r).withPosition (positions _ _ alike))
  node_declare := by
    rintro _ n - role rfl
    exact n.recast_declare r role
  node_relate := by
    rintro _ n - a - role rfl rfl
    exact n.recast_relate r role a
  node_varied := False.elim
  varied_indexed free := fixed _ free
  varied_cut := False.elim
  varied_lost := False.elim
  binding_name := by
    rintro _ b - rfl
    rfl
  fails_malformed what same := .inr (.inr (congrArg (Fault.malformed · what) same))
  fails_arity counts same := .inr (.inr (congrArg (Fault.inconsistentArity · counts) same))
  fails_deep same := .inr (.inr (congrArg (Fault.depthExceeded · l.maxDepth) same))
  room_pred := congrArg (· - 1)
  room_zero rooms := nomatch rooms
  room_succ rooms := nomatch rooms
  relates_fanout := by
    rintro stack world a - what count rfl
    exact Coupling.recast_relates id (Build.checkFanout_recasted r l a what count)
      fun _ _ _ _ => trivial
  relates_placeholder := by
    rintro stack world a - source source' index - rfl alike
    exact Coupling.recast_relates id
      (Build.placeholder_recasted r l a index (positions _ _ alike)) fun _ _ _ _ => rfl
  session_emit := by
    rintro stack world n - s - - rfl rfl
    refine ⟨(), trivial, s.recast_emit r n, rfl, fun _ => rfl, ?_⟩
    intro name position position' _ _ alike
    obtain rfl := positions _ _ alike
    rfl
  session_symbol := by
    rintro stack world a - source source' s - name - rfl alike rfl
    refine ⟨(), trivial, ?_, rfl⟩
    show Session.recast _ _ = _
    unfold Build.nameNode
    rw [Session.recast_emit, Session.recast_readSymbol, Node.recast_set _ _ _ _ (by decide),
      Node.recast_withPosition, Node.recast_set _ _ _ _ (by decide), Node.recast_withTags,
      Node.recast_make, positions _ _ alike]
  session_size := by
    rintro stack world a - position position' s - name - rfl alike rfl
    obtain rfl := positions _ _ alike
    exact s.recast_readSymbol r name a position
  session_bind := by
    rintro stack world site reads reads' b - s - - rfl figures rfl
    obtain rfl : reads = reads' := Coupling.eq_of_figures id figures
    exact s.recast_bindSymbol r reads b
  session_bound := by
    rintro stack world s - names rfl
    exact s.recast_boundByClosure r names
  session_diagnose := by
    rintro stack world a - position position' s - kind tag rfl alike rfl
    obtain rfl := positions _ _ alike
    exact s.recast_diagnose r _
  session_enter := by
    rintro stack world s - kind rfl
    refine ⟨(), (), fun _ _ => trivial, trivial, s.recast_enter r kind, ?_⟩
    rintro later t - - rfl
    rfl
  session_log := by
    rintro stack world site s - - rfl
    refine ⟨(), (), trivial, trivial, rfl, ?_⟩
    rintro later t - - rfl
    exact ⟨rfl, .inl rfl⟩
  session_count := by
    rintro stack world site s - - rfl
    refine ⟨(), (), trivial, trivial, rfl, ?_⟩
    rintro later t - - rfl
    exact ⟨rfl, .inl rfl⟩
  relates_closure := by
    intro α β stack world site site' value m m' opened opened' finish finish' _ same inner _ node last
    obtain rfl : r.place site = site' := same
    have opening : (Coupling.recast r l like).Relates stack world (fun _ _ _ => True)
        (Build.openClosure site) (Build.openClosure (r.place site)) :=
      Coupling.recast_relates id
        (fun s => congrArg (fun t => Except.ok ((), t)) (s.recast_openClosure r site).symm)
        fun _ _ _ _ => trivial
    refine .bind (fun _ _ => trivial) opening fun v _ _ _ _ => ?_
    refine .bind (fun _ _ => trivial) (inner () v trivial) fun v a b _ built => ?_
    obtain ⟨same, here, -⟩ := node v a b built
    rw [show opened' b = (opened a).recast r from same.symm]
    have closing : (Coupling.recast r l like).Relates stack v
        (fun _ n n' => n.recast r = n' ∧ n.address = site)
        (Build.closeClosure (opened a)) (Build.closeClosure ((opened a).recast r)) :=
      Coupling.recast_relates (·.recast r) (Build.closeClosure_recasted r l _)
        fun _ _ _ closed => ⟨rfl, (Build.closeClosure_address closed).trans here⟩
    refine .bind (fun _ _ => trivial) closing fun u n n' _ closed => ?_
    obtain ⟨rfl, place⟩ := closed
    have done := last v a b n _ built ⟨rfl, place, congrArg r.place place⟩
    rw [show finish' b (n.recast r) = (finish a n).recast r from done.1.symm]
    exact Coupling.recast_relates id
      (fun s => congrArg (fun t => Except.ok ((), t)) (s.recast_emit r (finish a n)).symm)
      fun _ _ _ _ => rfl

/-! ## Constructs -/

namespace Compiler

variable {α β : Type} (c : Compiler) (r : Recast)

/-- The frames around a construct hold no addresses and no positions. -/
theorem session_recast : c.session.recast r = c.session := by
  have given (name : String) : (⟨name, none, none⟩ : Binding).recast r = ⟨name, none, none⟩ := by
    simp [Binding.recast, r.position_none]
  have names : ∀ (names : List String) (inside : ScopeId) (scopes : Scopes),
      scopes.recast r = scopes →
      (names.foldl (fun scopes name => scopes.bind inside ⟨name, none, none⟩) scopes).recast r =
        names.foldl (fun scopes name => scopes.bind inside ⟨name, none, none⟩) scopes := by
    intro names inside
    induction names with
    | nil => exact fun _ same => same
    | cons name names ih =>
        intro scopes same
        refine ih _ ?_
        rw [Scopes.recast_bind, same, given]
  have opened : ∀ (frames : List (ScopeKind × List String)) (scopes : Scopes) (current : ScopeId),
      scopes.recast r = scopes →
      (openFrames frames scopes current).1.recast r = (openFrames frames scopes current).1 := by
    intro frames
    induction frames with
    | nil => exact fun _ _ same => same
    | cons frame frames ih =>
        intro scopes current same
        refine ih _ _ (names frame.2 _ _ ?_)
        rw [Scopes.recast_add, same]
  have start : Scopes.initial.recast r = Scopes.initial := by
    simp [Scopes.initial, Scopes.recast, Frame.recast]
  unfold session Session.start Session.recast
  simp [opened c.frames .initial .root start]

theorem finish_recast (root : Address) (s : Session) :
    finish (r.place root) (s.recast r) = (finish root s).recast r := by
  have sorted : sortNodes (s.nodes.toList.map (·.recast r)) =
      (sortNodes s.nodes.toList).map (·.recast r) := by
    refine (List.map_mergeSort fun a _ b _ => ?_).symm
    rw [Node.recast_address, Node.recast_address, r.compare_place]
  simp [finish, Compiled.recast, Session.recast, sorted]

/-- Steps that a recast relates are compiled to results that differ by it. -/
theorem run_recast {like : Likeness} {root : Address} {build : Build α} {build' : Build β} (f : α → β)
    (related : (Coupling.recast r c.limits like).Relates () () (fun _ a b => f a = b) build build') :
    c.run (r.place root) build' =
      ((c.run root build).map fun done => (done.1.recast r, f done.2)).mapError
        (·.readdress r.place) := by
  have goes := Coupling.Relates.recasted related c.session
  rw [session_recast] at goes
  simp only [run, goes]
  cases (build.run c.limits).run c.session with
  | error fault => rfl
  | ok done => exact congrArg (fun x => Except.ok (x, f done.1)) (finish_recast r root done.2)

end Compiler

end SyntaxGraph
