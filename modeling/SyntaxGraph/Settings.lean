import SyntaxGraph.Limits
import SyntaxGraph.OrderedMap
import SyntaxGraph.Toml.Reader

/-!
# The settings file

A project can keep its ceilings in a file with a table `limits`, or with an array of
that name that lists them in their order. Keys that are not known are ignored, missing
ceilings are the standard ones, and a file whose ceilings would make every build fail
is refused. Files are texts by path; loading only reads them, and writing changes at
most the file at its own path.
-/

namespace SyntaxGraph

structure Settings where
  limits : Limits
  deriving DecidableEq, Repr

namespace Settings

def standard : Settings := ⟨.standard⟩

/-- A ceiling is an integer that is not negative. -/
def ceiling? : Toml → Option Nat
  | .integer value => if 0 ≤ value then some value.toNat else none
  | _ => none

/-- A ceiling that is the standard one if the file does not say it. -/
def ceilingOr? (fallback : Nat) : Option Toml → Option Nat
  | none => some fallback
  | some value => ceiling? value

def ceilings? (maxDepth maxCaptures maxFanout : Option Toml) : Option Limits := do
  let maxDepth ← ceilingOr? Limits.standard.maxDepth maxDepth
  let maxCaptures ← ceilingOr? Limits.standard.maxCaptures maxCaptures
  let maxFanout ← ceilingOr? Limits.standard.maxFanout maxFanout
  some ⟨maxDepth, maxCaptures, maxFanout⟩

/-- The ceilings of a file: a table with their names, or an array in their order, of which any
further items are ignored. A moment has none of their names, so it leaves them standard. -/
def limitsOf? : Toml → Option Limits
  | .table _ entries =>
    let said (name : String) : Option Toml := Toml.Entries.get? entries name
    ceilings? (said "max_depth") (said "max_captures") (said "max_fanout")
  | .array items => ceilings? items[0]? items[1]? items[2]?
  | .moment _ => some .standard
  | _ => none

def ofText? (text : String) : Option Settings :=
  match Toml.read? text with
  | none => none
  | some entries =>
    match entries.get? "limits" with
    | none => some standard
    | some value => (limitsOf? value).map Settings.mk

def text (s : Settings) : String :=
  "[limits]\n" ++ String.join (s.limits.named.map fun (name, ceiling) =>
    name ++ " = " ++ toString ceiling ++ "\n")

/-- Whether every ceiling can be written as a TOML integer. -/
def isWritable (s : Settings) : Bool := s.limits.named.all fun entry => entry.2 < Nat.pow 2 63

def tooLargeMessage : String := "out-of-range value for u64 type"

/-- Read settings from JSON; missing limits are the standard ones. -/
def ofJson? (j : Json) : Option Settings := do
  let record ← j.record? ["limits"]
  let limits ← (record.field "limits").withDefault .standard Limits.ofJson?
  some ⟨limits⟩

def toJson (s : Settings) : Json := .object [("limits", s.limits.toJson)]

end Settings

/-- The texts of files by path. -/
abbrev Files := OrderedMap String String

/-- Why a settings file was not loaded. -/
inductive LoadError where
  /-- Its text is no TOML, or a ceiling is no natural number. -/
  | unreadable
  /-- A ceiling is zero. -/
  | zero (name : String)
  deriving DecidableEq, Repr

inductive WriteError where
  /-- There is one already. -/
  | present
  /-- A ceiling is too large for the format. -/
  | tooLarge
  deriving DecidableEq, Repr

namespace Settings

def load (files : Files) (path : String) : Except LoadError (Option Settings) :=
  match files.get? path with
  | none => .ok none
  | some text =>
    match ofText? text with
    | none => .error .unreadable
    | some settings =>
      match settings.limits.zero? with
      | none => .ok (some settings)
      | some name => .error (.zero name)

/-- Write settings to a path and give the files as they are afterwards. A file that is there
already is only replaced by `force`. -/
def write (settings : Settings) (path : String) (force : Bool) (files : Files) :
    Except WriteError Unit × Files :=
  if files.contains path && !force then (.error .present, files)
  else if settings.isWritable then (.ok (), files.insert path settings.text)
  else (.error .tooLarge, files)

end Settings

end SyntaxGraph
