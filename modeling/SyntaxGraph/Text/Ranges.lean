/-!
# Character classes as ranges of code points

A class of characters is given by the closed ranges of code points it covers.
The tables beside this module list them for the properties that names and quoted
texts depend on.
-/

namespace SyntaxGraph.Text

/-- Closed ranges of code points. -/
abbrev Ranges := List (Nat × Nat)

def Ranges.contains (ranges : Ranges) (c : Char) : Bool :=
  ranges.any fun range => range.1 ≤ c.toNat && c.toNat ≤ range.2

end SyntaxGraph.Text
