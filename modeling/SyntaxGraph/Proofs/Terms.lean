import Mathlib.Data.List.Forall2
import SyntaxGraph.Shape.Clause
import SyntaxGraph.Shape.Expression

/-!
# Lexical terms

What a program says about names, without frames, trackers or addresses. A term keeps the
uses of names and the places that bind them, in the order of evaluation, and
`Term.scan` is the usual recursion that threads the names bound so far: a match evaluates
its value, then the pins of its pattern, and then binds; what a clause or a branch binds
is dropped at its end, and every other binding stays visible.

`Source.Denotes` says which trees are written for a term: symbols, scalars, tuples, lists,
operators, local calls, blocks, matches, `if`, `case` and `fn`, to any depth.
-/

namespace SyntaxGraph

/-- A use of a name, and where it stands. -/
structure Occurrence where
  name : String
  position : Option Position
  deriving DecidableEq, Repr

/-- The uses that are left free by a list of bound names. -/
def Occurrence.free (env : List String) (uses : List Occurrence) : List Occurrence :=
  uses.filter fun use => use.name ∉ env

/-- What a pattern does with names. -/
inductive PatternTerm where
  | symbol (name : String)
  | pin (name : String) (position : Option Position)
  /-- Parts from left to right; wildcards and scalars have none. -/
  | parts (items : List PatternTerm)

namespace PatternTerm

mutual

def bound : PatternTerm → List String
  | .symbol name => [name]
  | .pin _ _ => []
  | .parts items => boundAll items

def boundAll : List PatternTerm → List String
  | [] => []
  | item :: items => item.bound ++ boundAll items

end

mutual

/-- The uses of pinned names. -/
def pinned : PatternTerm → List Occurrence
  | .symbol _ => []
  | .pin name position => [⟨name, position⟩]
  | .parts items => pinnedAll items

def pinnedAll : List PatternTerm → List Occurrence
  | [] => []
  | item :: items => item.pinned ++ pinnedAll items

end

end PatternTerm

mutual

/-- What an expression does with names. -/
inductive Term where
  | symbol (name : String) (position : Option Position)
  /-- Parts from left to right: those of a tuple, a list, an operator, a call or a block.
  Scalars have none. -/
  | parts (items : List Term)
  | matching (pattern : PatternTerm) (value : Term)
  /-- A condition and the branches it decides between. -/
  | conditional (condition : Term) (branches : List Term)
  | select (subject : Term) (clauses : List ClauseTerm)
  | closure (clauses : List ClauseTerm)

/-- What a clause does with names: its parameters, then the guard if it has one, and the body. -/
inductive ClauseTerm where
  | mk (params : List PatternTerm) (steps : List Term)

end

mutual

/-- The names bound after a term, and its uses of names that are not bound. -/
def Term.scan (env : List String) : Term → List String × List Occurrence
  | .symbol name position => (env, Occurrence.free env [⟨name, position⟩])
  | .parts items => Term.scanAll env items
  | .matching pattern value =>
    let (after, found) := value.scan env
    (pattern.bound ++ after, found ++ Occurrence.free after pattern.pinned)
  | .conditional condition branches =>
    let (after, found) := condition.scan env
    (after, found ++ Term.scanEach after branches)
  | .select subject clauses =>
    let (after, found) := subject.scan env
    (after, found ++ ClauseTerm.scanEach after clauses)
  | .closure clauses => (env, ClauseTerm.scanEach env clauses)

/-- Terms one after the other, each seeing what those before it bind. -/
def Term.scanAll (env : List String) : List Term → List String × List Occurrence
  | [] => (env, [])
  | item :: items =>
    let (after, found) := item.scan env
    let (last, more) := Term.scanAll after items
    (last, found ++ more)

/-- Branches, each starting from the same names. -/
def Term.scanEach (env : List String) : List Term → List Occurrence
  | [] => []
  | item :: items => (item.scan env).2 ++ Term.scanEach env items

/-- The uses in a clause of names that are bound neither outside nor by the clause. -/
def ClauseTerm.scan (env : List String) : ClauseTerm → List Occurrence
  | .mk params steps =>
    Occurrence.free env (PatternTerm.pinnedAll params) ++
      (Term.scanAll (PatternTerm.boundAll params ++ env) steps).2

def ClauseTerm.scanEach (env : List String) : List ClauseTerm → List Occurrence
  | [] => []
  | item :: items => item.scan env ++ ClauseTerm.scanEach env items

end

def Term.free (term : Term) : List Occurrence := (term.scan []).2

theorem Term.scanAll_append (env : List String) (first second : List Term) :
    scanAll env (first ++ second) =
      ((scanAll (scanAll env first).1 second).1,
        (scanAll env first).2 ++ (scanAll (scanAll env first).1 second).2) := by
  induction first generalizing env with
  | nil => simp [scanAll]
  | cons item items ih => simp [scanAll, ih]

theorem PatternTerm.boundAll_append (first second : List PatternTerm) :
    boundAll (first ++ second) = boundAll first ++ boundAll second := by
  induction first with
  | nil => simp [boundAll]
  | cons item items ih => simp [boundAll, ih]

theorem PatternTerm.pinnedAll_append (first second : List PatternTerm) :
    pinnedAll (first ++ second) = pinnedAll first ++ pinnedAll second := by
  induction first with
  | nil => simp [pinnedAll]
  | cons item items ih => simp [pinnedAll, ih]

theorem Occurrence.free_append (env : List String) (first second : List Occurrence) :
    free env (first ++ second) = free env first ++ free env second :=
  List.filter_append ..

/-! ## Trees written for terms -/

namespace Source

def isScalar : Source → Bool
  | .integer _ | .float _ | .text _ | .atom _ => true
  | _ => false

/-- Tags that look like names of functions and mean something else. -/
def specialForms : List String :=
  ["__aliases__", "__block__", "fn", "if", "unless", "case", "cond", "with", "for", "when", "def",
    "defp", "defmodule"]

/-- Whether a tag with its arguments calls a function of the same module by its name. -/
structure IsLocalCall (tag : String) (args : List Source) : Prop where
  named : isCallName tag = true
  ordinary : tag ∉ specialForms
  noSigil : sigilLetter? tag = none
  /-- `not`, `and`, `or` and `in` are operators. -/
  notUnary : args.length = 1 → Operator.unary? tag = none
  notBinary : args.length = 2 → Operator.binary? tag = none

/-- A tree written for a pattern. -/
inductive DenotesPattern : Source → PatternTerm → Prop where
  | symbol {name : String} {note : Meta} (named : name ≠ "_") (ordinary : name ∉ reservedNames) :
      DenotesPattern (.symbol name note) (.symbol name)
  | wildcard {note : Meta} : DenotesPattern (.symbol "_" note) (.parts [])
  | pin {name : String} {outer note : Meta} (ordinary : name ∉ reservedNames) :
      DenotesPattern (.form "^" outer [.symbol name note]) (.pin name note.position)
  | scalar {source : Source} (scalar : source.isScalar = true) : DenotesPattern source (.parts [])
  | tuple {source : Source} {items : List Source} {terms : List PatternTerm}
      (encoded : source.tuple? = some items) (each : List.Forall₂ DenotesPattern items terms) :
      DenotesPattern source (.parts terms)
  | list {items : List Source} {terms : List PatternTerm}
      (each : List.Forall₂ DenotesPattern items terms) : DenotesPattern (.list items) (.parts terms)
  /-- The last element and the tail stand in one form. -/
  | cons {items : List Source} {head tail : Source} {note : Meta} {terms : List PatternTerm}
      {rest : PatternTerm} (each : List.Forall₂ DenotesPattern (items ++ [head]) terms)
      (htail : DenotesPattern tail rest) :
      DenotesPattern (.list (items ++ [.form "|" note [head, tail]])) (.parts (terms ++ [rest]))

mutual

/-- A tree written for a term. -/
inductive Denotes : Source → Term → Prop where
  | symbol {name : String} {note : Meta} (ordinary : name ∉ reservedNames) :
      Denotes (.symbol name note) (.symbol name note.position)
  | scalar {source : Source} (scalar : source.isScalar = true) : Denotes source (.parts [])
  | tuple {source : Source} {items : List Source} {terms : List Term}
      (encoded : source.tuple? = some items) (each : List.Forall₂ Denotes items terms) :
      Denotes source (.parts terms)
  | list {items : List Source} {terms : List Term} (each : List.Forall₂ Denotes items terms) :
      Denotes (.list items) (.parts terms)
  | cons {items : List Source} {head tail : Source} {note : Meta} {terms : List Term} {rest : Term}
      (each : List.Forall₂ Denotes (items ++ [head]) terms) (htail : Denotes tail rest) :
      Denotes (.list (items ++ [.form "|" note [head, tail]])) (.parts (terms ++ [rest]))
  | unary {tag : String} {note : Meta} {operand : Source} {terms : List Term}
      (known : (Operator.unary? tag).isSome = true) (each : List.Forall₂ Denotes [operand] terms) :
      Denotes (.form tag note [operand]) (.parts terms)
  | binary {tag : String} {note : Meta} {left right : Source} {terms : List Term}
      (known : (Operator.binary? tag).isSome = true) (noMatch : tag ≠ "=")
      (each : List.Forall₂ Denotes [left, right] terms) :
      Denotes (.form tag note [left, right]) (.parts terms)
  | call {tag : String} {note : Meta} {args : List Source} {terms : List Term}
      (isCall : IsLocalCall tag args) (each : List.Forall₂ Denotes args terms) :
      Denotes (.form tag note args) (.parts terms)
  | block {note : Meta} {statements : List Source} {terms : List Term}
      (each : List.Forall₂ Denotes statements terms) :
      Denotes (.form "__block__" note statements) (.parts terms)
  | matching {note : Meta} {left right : Source} {pattern : PatternTerm} {value : Term}
      (hleft : left.DenotesPattern pattern) (hright : Denotes right value) :
      Denotes (.form "=" note [left, right]) (.matching pattern value)
  | conditional {note : Meta} {test options body : Source} {condition : Term} {branches : List Term}
      (htest : Denotes test condition) (hasBody : options.keyword? "do" = some body)
      (each : List.Forall₂ Denotes (body :: (options.keyword? "else").toList) branches) :
      Denotes (.form "if" note [test, options]) (.conditional condition branches)
  | select {note : Meta} {value options body : Source} {subject : Term} {clauses : List ClauseTerm}
      (hvalue : Denotes value subject) (hasBody : options.keyword? "do" = some body)
      (each : List.Forall₂ DenotesClause (clauseItems (some body)) clauses) :
      Denotes (.form "case" note [value, options]) (.select subject clauses)
  | closure {note : Meta} {items : List Source} {clauses : List ClauseTerm}
      (each : List.Forall₂ DenotesClause items clauses) :
      Denotes (.form "fn" note items) (.closure clauses)

/-- A tree written for a clause. -/
inductive DenotesClause : Source → ClauseTerm → Prop where
  | plain {note : Meta} {params : List Source} {body : Source} {patterns : List PatternTerm}
      {steps : List Term} (heads : List.Forall₂ DenotesPattern params patterns)
      (each : List.Forall₂ Denotes [body] steps) :
      DenotesClause (.form "->" note [.list params, body]) (.mk patterns steps)
  | guarded {note inner : Meta} {params : List Source} {guard body : Source}
      {patterns : List PatternTerm} {steps : List Term}
      (heads : List.Forall₂ DenotesPattern params patterns)
      (each : List.Forall₂ Denotes [guard, body] steps) :
      DenotesClause (.form "->" note [.list [.form "when" inner (params ++ [guard])], body])
        (.mk patterns steps)

end

end Source

end SyntaxGraph
