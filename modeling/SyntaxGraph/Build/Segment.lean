import SyntaxGraph.Build.Level

/-!
# Segments of binaries

A segment is a value with an optional specification such as
`size(8)-unit(4)-big-signed-integer`. The words of a specification become properties
of the segment's node; a variable used as a size is handed back, for the binary to
read it.
-/

namespace SyntaxGraph.Segment

/-- A segment's node and the variable that gives its size, while a specification is read. -/
structure Reading where
  node : Node
  sizeName : Option String

def Reading.set (r : Reading) (name : String) (value : Property) : Reading :=
  { r with node := r.node.set name value }

/-- The property that a plain word of a specification sets. -/
def wordProperty (word : String) : String :=
  if word ∈ ["integer", "float", "bits", "bitstring", "binary", "bytes", "utf8", "utf16",
      "utf32"] then "type"
  else if word ∈ ["signed", "unsigned"] then "signedness"
  else if word ∈ ["big", "little", "native"] then "endianness"
  else "modifier"

def readWord (r : Reading) : Source → Reading
  | .integer value => r.set "size" value
  | .form "size" _ [.integer value] => r.set "size" value
  | .form "size" _ [.symbol name _] => { r.set "size" name with sizeName := some name }
  | .form "size" _ [_] => r.set "size" "expression"
  | .form "unit" _ [.integer value] => r.set "unit" value
  | .form "*" _ [.integer size, .integer unit] => (r.set "size" size).set "unit" unit
  | .symbol word _ => r.set (wordProperty word) word
  | .form word _ [] => r.set (wordProperty word) word
  | .form other _ _ => r.set "modifier" other
  | _ => r

/-- How many nodes the tree of `-` forms at the top of a specification has. -/
def specSize : Source → Nat
  | .form "-" _ [left, right] => specSize left + specSize right + 1
  | _ => 1

theorem specSize_pos (spec : Source) : 0 < specSize spec := by
  unfold specSize
  split <;> omega

/-- Read the words of all pending specifications, left before right. Each `-` is a level of its
own and counts against the levels left at it. A step takes one node off the pending trees. -/
def readPending (site : Address) (pending : List (Source × Nat)) (r : Reading) : Build Reading :=
  match pending with
  | [] => return r
  | (_, 0) :: _ => Build.tooDeep site
  | (.form "-" _ [left, right], room + 1) :: rest =>
    readPending site ((left, room) :: (right, room) :: rest) r
  | (word, _ + 1) :: rest => readPending site rest (readWord r word)
termination_by pending.foldr (fun entry size => specSize entry.1 + size) 0
decreasing_by
  · simp only [List.foldr_cons, specSize]
    omega
  · simp only [List.foldr_cons]
    have := specSize_pos word
    omega

/-- The value of a segment and its specification, if it has one. -/
def split (segment : Source) : Source × Option Source :=
  match segment with
  | .form "::" _ [value, spec] => (value, some spec)
  | _ => (segment, none)

/-- Build one segment; its value is built by `build`, and `sizes` grows by the variable that gives
its size. -/
def step {β : Type} (room : Nat) (build : Address → Source → β → Build β) (site : Address)
    (segment : Source) (state : β × List (String × Address)) :
    Build (β × List (String × Address)) := do
  let (value, spec) := split segment
  let address := site.child Role.value.label
  let (built, sizes) := state
  let built ← build address value built
  let node := (Node.make site .binarySegment)
    |>.relate .value address
    |>.withPosition segment.position
  let reading ← match spec with
    | none => pure ⟨node, none⟩
    | some spec => readPending site [(spec, room)] ⟨node, none⟩
  Build.emit reading.node
  return (built, sizes ++ (reading.sizeName.map fun name => (name, site)).toList)

/-- Build the segments of a binary. The last part of the result lists the variables used as sizes,
each with its segment. -/
def buildAll {β : Type} (room : Nat) (build : Address → Source → β → Build β) (node : Node)
    (segments : List Source) (value : β) : Build (Node × β × List (String × Address)) := do
  Build.checkFanout node.address "segment" segments.length
  let (addresses, value, sizes) ←
    Build.foldParts node.address .segment (step room build) 0 segments (value, [])
  return ((node.declare .segment).relateAll .segment addresses, value, sizes)

end SyntaxGraph.Segment
