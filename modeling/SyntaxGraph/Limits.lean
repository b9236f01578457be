import SyntaxGraph.Json.Basic

/-!
# Ceilings of a build

Three ceilings keep a build small: how deep the tree may go, how many symbols a
closure may capture, and how many parts one compound node may have. They do not
change while a construct is compiled.
-/

namespace SyntaxGraph

/-- The ceilings of one build. -/
structure Limits where
  /-- The greatest depth of any part of a construct. -/
  maxDepth : Nat
  /-- The greatest placeholder, and the most symbols one closure captures. -/
  maxCaptures : Nat
  /-- The most parts of one compound node. -/
  maxFanout : Nat
  deriving DecidableEq, Repr

namespace Limits

def standard : Limits := ⟨256, 255, 4096⟩

instance : Inhabited Limits := ⟨standard⟩

def named (l : Limits) : List (String × Nat) :=
  [("max_depth", l.maxDepth), ("max_captures", l.maxCaptures), ("max_fanout", l.maxFanout)]

/-- The first ceiling that would make every build fail. -/
def zero? (l : Limits) : Option String := (l.named.find? fun entry => entry.2 == 0).map (·.1)

def zeroMessage (name : String) : String := name ++ " must be at least 1"

/-- A ceiling is a natural number below 2^64. -/
def ceilingOfJson? (j : Json) : Option Nat := j.uint64?.map UInt64.toNat

/-- Read ceilings; a missing one is the standard one. -/
def ofJson? (j : Json) : Option Limits := do
  let record ← j.record? ["max_depth", "max_captures", "max_fanout"]
  let ceiling name fallback := (record.field name).withDefault fallback ceilingOfJson?
  let maxDepth ← ceiling "max_depth" standard.maxDepth
  let maxCaptures ← ceiling "max_captures" standard.maxCaptures
  let maxFanout ← ceiling "max_fanout" standard.maxFanout
  some ⟨maxDepth, maxCaptures, maxFanout⟩

def toJson (l : Limits) : Json :=
  .object (l.named.map fun entry => (entry.1, .integer entry.2))

end Limits

end SyntaxGraph
