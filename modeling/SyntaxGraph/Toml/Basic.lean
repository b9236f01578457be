import SyntaxGraph.Toml.Moment

/-!
# TOML documents

A document is a table of named values. A table remembers how it came to be, since that
decides who may still add to it: a table under a header may be opened once, a table
made on the way to a header may still get a header of its own, a table made by a
dotted key may only grow by dotted keys, and an inline table is closed.
-/

namespace SyntaxGraph

/-- How a table came to be. -/
inductive Toml.Origin where
  /-- Opened by a header. -/
  | header
  /-- Made on the way to a header below it. -/
  | passed
  /-- Made by a dotted key. -/
  | dotted
  /-- Written between braces. -/
  | inline
  deriving DecidableEq, Repr

inductive Toml where
  | text (value : String)
  | integer (value : Int)
  /-- A float, kept as it is spelled. -/
  | float (spelling : String)
  | boolean (value : Bool)
  | moment (value : Toml.Moment)
  | array (items : List Toml)
  | table (origin : Toml.Origin) (entries : List (String × Toml))
  /-- Tables that share a header, the last one first. -/
  | tables (items : List (List (String × Toml)))
  deriving Repr

namespace Toml

/-- The entries of a table, in the order they were added. -/
abbrev Entries := List (String × Toml)

def Entries.get? (entries : Entries) (key : String) : Option Toml :=
  (entries.find? fun entry => entry.1 == key).map (·.2)

/-- Put a value under a key, at the end if the key is new. -/
def Entries.put (entries : Entries) (key : String) (value : Toml) : Entries :=
  if entries.any fun entry => entry.1 == key then
    entries.map fun entry => if entry.1 == key then (key, value) else entry
  else entries ++ [(key, value)]

/-- Add a value under a dotted key. Tables on the way are made as needed; of tables that share
a header it is the last one. The table that gets the value must have been made by a dotted key
too, and the key itself must be new. -/
def addKey (key : String) (value : Toml) : List String → Entries → Option Entries
  | [], entries =>
    if (entries.get? key).isSome then none else some (entries.put key value)
  | step :: path, entries =>
    match entries.get? step with
    | none => (addKey key value path []).map fun inside =>
        entries.put step (.table .dotted inside)
    | some (.table .dotted inside) => (addKey key value path inside).map fun inside =>
        entries.put step (.table .dotted inside)
    | some (.table .passed inside) =>
      if path.isEmpty then none
      else (addKey key value path inside).map fun inside =>
        entries.put step (.table .passed inside)
    | some (.tables (last :: earlier)) =>
      if path.isEmpty then none
      else (addKey key value path last).map fun last =>
        entries.put step (.tables (last :: earlier))
    | some _ => none

/-- One header with the keys below it. -/
structure Section where
  path : List String
  key : String
  /-- Whether the header opens one more table of several. -/
  isItem : Bool
  /-- Dotted keys, each split into its path and its last part, with their values. -/
  assignments : List ((List String × String) × Toml)

def addAssignments : List ((List String × String) × Toml) → Entries → Option Entries
  | [], entries => some entries
  | ((path, key), value) :: rest, entries =>
    match addKey key value path entries with
    | none => none
    | some entries => addAssignments rest entries

/-- Open the table of a header that stands directly below the table at hand. -/
def openTable (s : Section) (entries : Entries) : Option Entries :=
  if s.isItem then
    let earlier := match entries.get? s.key with
      | none => some []
      | some (.tables items) => some items
      | some _ => none
    match earlier, addAssignments s.assignments [] with
    | some items, some inside => some (entries.put s.key (.tables (inside :: items)))
    | _, _ => none
  else
    let start := match entries.get? s.key with
      | none => some []
      | some (.table .passed inside) => some inside
      | some _ => none
    match start.bind (addAssignments s.assignments) with
    | some inside => some (entries.put s.key (.table .header inside))
    | none => none

/-- Open the table of a header, making the tables on the way. -/
def openSection (s : Section) : List String → Entries → Option Entries
  | [], entries => openTable s entries
  | step :: path, entries =>
    match entries.get? step with
    | none => (openSection s path []).map fun inside => entries.put step (.table .passed inside)
    | some (.table .inline _) => none
    | some (.table origin inside) =>
      (openSection s path inside).map fun inside => entries.put step (.table origin inside)
    | some (.tables (last :: earlier)) =>
      (openSection s path last).map fun last => entries.put step (.tables (last :: earlier))
    | some _ => none

def openSections : List Section → Entries → Option Entries
  | [], entries => some entries
  | s :: rest, entries =>
    match openSection s s.path entries with
    | none => none
    | some entries => openSections rest entries

end Toml

end SyntaxGraph
