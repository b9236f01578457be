import SyntaxGraph.Closure.Tracker

/-!
# The state of a build

One session per construct: it collects nodes, diagnostics and closure reports, keeps
the scope frames and knows which closures are open. Depth is no part of it; every
builder gets the levels that are left as an argument.

A build reads its ceilings, changes its session and may fail; a failure drops the
session with everything collected in it.
-/

namespace SyntaxGraph

/-- A shape that nothing recognised. -/
structure Diagnostic where
  site : Address
  kind : FaultKind
  /-- The tag that was not recognised. -/
  tag : String
  position : Option Position
  deriving DecidableEq, Repr

/-- A closure that is being built, and the frame around it. -/
structure OpenClosure where
  tracker : Tracker
  enclosing : ScopeId

/-- Everything a build has collected so far. -/
structure Session where
  scopes : Scopes
  /-- The frame that new bindings go to. -/
  current : ScopeId
  nodes : Array Node
  diagnostics : Array Diagnostic
  reports : Array ClosureReport
  /-- Open closures, innermost first. -/
  closures : List OpenClosure
  /-- Names read since each open log was opened, innermost first. -/
  readLogs : List (OrderedSet String)
  /-- The greatest placeholder seen in each open shorthand closure, innermost first. -/
  placeholders : List Int64

namespace Session

def start (scopes : Scopes) (current : ScopeId) : Session :=
  ⟨scopes, current, #[], #[], #[], [], [], []⟩

def emit (s : Session) (node : Node) : Session := { s with nodes := s.nodes.push node }

def diagnose (s : Session) (diagnostic : Diagnostic) : Session :=
  { s with diagnostics := s.diagnostics.push diagnostic }

/-- The frame that defines a name, seen from the current one. -/
def definingScope? (s : Session) (name : String) : Option ScopeId :=
  (s.scopes.lookup s.current name).map (·.1)

/-- Record a read in every open log, and against every open closure that does not define the
name itself. -/
def readSymbol (s : Session) (name : String) (reference : Address) (position : Option Position) :
    Session :=
  let defined := s.definingScope? name
  let track (closure : OpenClosure) : OpenClosure :=
    let isLocal := match defined with
      | some scope => s.scopes.isWithin scope closure.tracker.scope
      | none => false
    if isLocal then closure
    else { closure with tracker := closure.tracker.recordRead name reference position }
  { s with
    readLogs := s.readLogs.map fun log => log.add name
    closures := s.closures.map track }

/-- Bring a binding into the current frame. If `reads` holds the names read by the value that is
matched, a name defined outside of an open closure, or already captured by it, counts as bound
again there; parameters and clause heads give no reads and capture nothing. -/
def bindSymbol (s : Session) (reads : Option (OrderedSet String)) (binding : Binding) : Session :=
  let outer := s.definingScope? binding.name
  let track (closure : OpenClosure) : OpenClosure :=
    match reads with
    | none => closure
    | some reads =>
      let rebinds := match outer with
        | some scope => !s.scopes.isWithin scope closure.tracker.scope
        | none => closure.tracker.captures binding.name
      if rebinds then
        { closure with
          tracker := closure.tracker.recordRebinding binding.name (reads.contains binding.name) }
      else closure
  { s with
    closures := s.closures.map track
    scopes := s.scopes.bind s.current binding }

/-- Open a frame inside the current one and make it current. -/
def enter (s : Session) (kind : ScopeKind) : Session :=
  { s with scopes := s.scopes.add s.current kind, current := s.scopes.next }

/-- Open the frame of a closure and start following it. -/
def openClosure (s : Session) (closure : Address) : Session :=
  let inside := s.enter .closure
  { inside with closures := ⟨.start closure inside.current, s.current⟩ :: s.closures }

/-- Note names bound by parameters of the innermost open closure. -/
def boundByClosure (s : Session) (names : List String) : Session :=
  match s.closures with
  | [] => s
  | closure :: rest =>
    { s with closures := { closure with tracker := closure.tracker.addBound names } :: rest }

end Session

/-- A build step: it reads the ceilings, changes the session and may fail. -/
abbrev Build := ReaderT Limits (StateT Session (Except Fault))

namespace Build

def tooDeep {α : Type} (site : Address) : Build α := do
  throw (.depthExceeded site (← read).maxDepth)

def malformed {α : Type} (site : Address) (what : Malformation) : Build α :=
  throw (.malformed site what)

def checkFanout (site : Address) (what : String) (count : Nat) : Build Unit := do
  let limit := (← read).maxFanout
  if count > limit then throw (.sizeExceeded site what count limit)

def emit (node : Node) : Build Unit := modify (·.emit node)

/-- Put a node of unknown shape in place of a tree, and note it. The parts of the tree are not
looked at. -/
def unknown (site : Address) (tag : String) (position : Option Position) : Build Unit := do
  emit ((Node.make site .unknownExpression)
    |>.withTags [.expression]
    |>.set "original_tag" tag
    |>.withPosition position)
  modify (·.diagnose ⟨site, .unrecognizedShape, tag, position⟩)

def readSymbol (name : String) (reference : Address) (position : Option Position) : Build Unit :=
  modify (·.readSymbol name reference position)

def readAll (reads : List (String × Address)) (position : Option Position) : Build Unit :=
  modify fun s => reads.foldl (fun s read => s.readSymbol read.1 read.2 position) s

/-- Run a step inside a frame of its own. -/
def inScope {α : Type} (kind : ScopeKind) (step : Build α) : Build α := do
  let previous := (← get).current
  modify (·.enter kind)
  let result ← step
  modify fun s => { s with current := previous }
  return result

/-- Run a step and collect the names it reads. -/
def trackReads {α : Type} (step : Build α) : Build (α × OrderedSet String) := do
  modify fun s => { s with readLogs := ∅ :: s.readLogs }
  let result ← step
  let reads := (← get).readLogs.head?.getD ∅
  modify fun s => { s with readLogs := s.readLogs.tail }
  return (result, reads)

def bindAll (bindings : List Binding) (reads : Option (OrderedSet String)) : Build Unit :=
  modify fun s => bindings.foldl (·.bindSymbol reads ·) s

def openClosure (closure : Address) : Build Unit := modify (·.openClosure closure)

def boundByClosure (names : List String) : Build Unit := modify (·.boundByClosure names)

/-- Close the innermost closure: report on it, add a node per captured symbol, and point the
closure's node at them. -/
def closeClosure (node : Node) : Build Node := do
  match (← get).closures with
  | [] => return node
  | closure :: rest =>
    modify fun s => { s with closures := rest, current := closure.enclosing }
    let report ← liftM (closure.tracker.report (← get).scopes closure.enclosing (← read))
    let captured := report.captureNodes
    modify fun s =>
      { s with nodes := s.nodes ++ captured, reports := s.reports.push report }
    return (node.declare .captures).relateAll .captures (captured.map (·.address))

/-- Run the body of a shorthand closure and find its greatest placeholder. -/
def trackPlaceholders {α : Type} (step : Build α) : Build (α × Int64) := do
  modify fun s => { s with placeholders := 0 :: s.placeholders }
  let result ← step
  let greatest := (← get).placeholders.head?.getD 0
  modify fun s => { s with placeholders := s.placeholders.tail }
  return (result, greatest)

/-- Note a placeholder of the innermost shorthand closure; false if none is open. -/
def sawPlaceholder (index : Int64) : Build Bool := do
  match (← get).placeholders with
  | [] => return false
  | greatest :: rest =>
    modify fun s => { s with placeholders := max greatest index :: rest }
    return true

/-- Build the parts of a node at numbered addresses from `index` on, handing a value from part to
part. -/
def foldParts {α β : Type} (site : Address) (role : Role) (build : Address → α → β → Build β) :
    Nat → List α → β → Build (List Address × β)
  | _, [], value => pure ([], value)
  | index, part :: rest, value => do
    let address := site.indexed role.label index
    let value ← build address part value
    let (addresses, value) ← foldParts site role build (index + 1) rest value
    return (address :: addresses, value)

/-- Build the parts of a node at numbered addresses. -/
def eachPart {α : Type} (site : Address) (role : Role) (build : Address → α → Build Unit)
    (parts : List α) : Build (List Address) := do
  let (addresses, _) ← foldParts site role (fun address part _ => build address part) 0 parts ()
  return addresses

end Build

end SyntaxGraph
