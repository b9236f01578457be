import SyntaxGraph.Address

/-!
# Relations between nodes

A node points at other nodes in named roles. Positional roles keep the order of the
source; all other roles hold a set, listed in the order of addresses. A role also
has the label that leads from a node's address to the address of a target.
-/

namespace SyntaxGraph

/-- What a target is to the node that points at it. -/
inductive Role where
  | leftOperand
  | rightOperand
  | operand
  | argument
  | callee
  | receiver
  | element
  | entry
  | key
  | value
  | referencedType
  | base
  | tail
  | inner
  | boundAs
  | pinned
  | defaultValue
  | guard
  | pattern
  | parameter
  | body
  | clause
  | statement
  | condition
  | thenBranch
  | elseBranch
  | subject
  | generator
  | filter
  | enumerable
  | into
  | reduce
  | segment
  | first
  | last
  | step
  | content
  | captures
  | boundBy
  | reference
  deriving DecidableEq, Repr

namespace Role

instance : Ord Role := ⟨fun a b => compare a.ctorIdx b.ctorIdx⟩

theorem ctorIdx_inj (a b : Role) (h : a.ctorIdx = b.ctorIdx) : a = b := by
  rw [← ofNat_ctorIdx a, ← ofNat_ctorIdx b, h]

instance : Std.TransOrd Role := transOrd_of_key Role.ctorIdx fun _ _ => rfl

instance : Std.LawfulEqOrd Role := lawfulEqOrd_of_key Role.ctorIdx (fun _ _ => rfl) ctorIdx_inj

def name : Role → String
  | .leftOperand => "left_operand"
  | .rightOperand => "right_operand"
  | .operand => "operand"
  | .argument => "argument"
  | .callee => "callee"
  | .receiver => "receiver"
  | .element => "element"
  | .entry => "entry"
  | .key => "key"
  | .value => "value"
  | .referencedType => "referenced_type"
  | .base => "base"
  | .tail => "tail"
  | .inner => "inner"
  | .boundAs => "bound_as"
  | .pinned => "pinned"
  | .defaultValue => "default"
  | .guard => "guard"
  | .pattern => "pattern"
  | .parameter => "parameter"
  | .body => "body"
  | .clause => "clause"
  | .statement => "statement"
  | .condition => "condition"
  | .thenBranch => "then"
  | .elseBranch => "else"
  | .subject => "subject"
  | .generator => "generator"
  | .filter => "filter"
  | .enumerable => "enumerable"
  | .into => "into"
  | .reduce => "reduce"
  | .segment => "segment"
  | .first => "first"
  | .last => "last"
  | .step => "step"
  | .content => "content"
  | .captures => "captures"
  | .boundBy => "bound_by"
  | .reference => "reference"

def all : List Role := [
  .leftOperand, .rightOperand, .operand, .argument, .callee, .receiver, .element, .entry, .key,
  .value, .referencedType, .base, .tail, .inner, .boundAs, .pinned, .defaultValue, .guard,
  .pattern, .parameter, .body, .clause, .statement, .condition, .thenBranch, .elseBranch,
  .subject, .generator, .filter, .enumerable, .into, .reduce, .segment, .first, .last, .step,
  .content, .captures, .boundBy, .reference]

def ofName? (name : String) : Option Role := all.find? fun role => role.name == name

/-- The label of the step that leads to a target in this role. -/
def label : Role → String
  | .leftOperand => "left"
  | .rightOperand => "right"
  | .referencedType => "type"
  | .captures => "capture"
  | other => other.name

/-- Whether targets keep the order of the source. -/
def isOrdered : Role → Bool
  | .argument | .element | .entry | .parameter | .clause | .statement | .generator | .filter
  | .segment | .elseBranch | .captures | .reference => true
  | _ => false

/-- Whether targets are parts of the node, rather than nodes elsewhere that it mentions. -/
def isStructural : Role → Bool
  | .boundBy | .reference => false
  | _ => true

end Role

/-- The targets of a node in one role. -/
structure Relation where
  /-- In source order if `ordered`, otherwise sorted and each once. -/
  targets : List Address
  ordered : Bool
  deriving DecidableEq, Repr

namespace Relation

def empty (ordered : Bool) : Relation := ⟨[], ordered⟩

/-- Narrow a range of `size` places from `base` down to one place by halving: the upper half is
taken unless its first place is `beyond` what is looked for. -/
def narrow (beyond : Nat → Bool) (size base : Nat) : Nat :=
  if size ≤ 1 then base
  else
    let middle := base + size / 2
    narrow beyond (size - size / 2) (if beyond middle then base else middle)
termination_by size
decreasing_by omega

/-- Put a target at its sorted place, unless it stands there already. -/
def insertSorted (target : Address) (targets : List Address) : List Address :=
  let place := narrow (fun i => (targets[i]?.map fun other => compare other target == .gt).getD false)
    targets.length 0
  match targets[place]? with
  | none => [target]
  | some other =>
    match compare other target with
    | .eq => targets
    | .lt => targets.insertIdx (place + 1) target
    | .gt => targets.insertIdx place target

/-- Add a target: at the end of an ordered relation, at its sorted place otherwise. -/
def push (r : Relation) (target : Address) : Relation :=
  if r.ordered then { r with targets := r.targets ++ [target] }
  else { r with targets := insertSorted target r.targets }

end Relation

end SyntaxGraph
