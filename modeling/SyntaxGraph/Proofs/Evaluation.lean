import SyntaxGraph.Proofs.Likeness

/-!
# What is evaluated

The parts of a tree that are evaluated or matched against, shape by shape, and the names that are
read on the way: variables, and variables that give the size of a segment. Options that a construct
does not know are no parts of it, nor is what a module attribute is set to, nor any word in the
specification of a segment except the last variable in a `size(...)`: no other expression there, no
`unit(n)` and no `n * 8`.
-/

namespace SyntaxGraph

/-- What is met while a tree is evaluated: a name that is read, or a tree that is evaluated or
matched against. -/
inductive Part where
  | name (name : String)
  | expression (source : Source)
  | pattern (source : Source)

namespace Segment

/-- The words of a specification, left before right. -/
def words : Source → List Source
  | .form "-" _ [left, right] => words left ++ words right
  | word => [word]

/-- The variable that a word gives as a size. -/
def sizeVariable? : Source → Option String
  | .form "size" _ [.symbol name _] => some name
  | _ => none

/-- The variable that gives the size of a segment; a later word replaces an earlier one. -/
def sizeName? (spec : Source) : Option String := ((words spec).filterMap sizeVariable?).getLast?

/-- The value of a segment and the variable that gives its size. -/
def parts (value : Source → Part) (segment : Source) : List Part :=
  value (split segment).1 :: ((split segment).2.bind sizeName?).toList.map .name

end Segment

namespace Part

def expressions (sources : List Source) : List Part := sources.map .expression

def patterns (sources : List Source) : List Part := sources.map .pattern

def entry (part : Source → Part) (source : Source) : List Part :=
  match source.mapEntry? with
  | some (key, value) => [part key, part value]
  | none => []

def mapBody (items : List Source) : List Part :=
  match Build.mapUpdate? items with
  | some (base, updates) => .expression base :: updates.flatMap (entry .expression)
  | none => items.flatMap (entry .expression)

/-- The parameters of a clause, then its guard and its body. -/
def clause (c : Clause) : List Part :=
  patterns c.params ++ (expressions c.guard.toList ++ expressions c.body.toList)

/-- Clauses of a `cond` evaluate what stands in place of their first parameter. -/
def condClause (c : Clause) : List Part := expressions c.params.head?.toList ++ expressions c.body.toList

def clauses (parts : Clause → List Part) (items : List Source) : List Part :=
  (items.filterMap Clause.ofSource?).flatMap parts

/-- The value of a generator, its pattern and its guard. -/
def generator (g : Generator) : List Part :=
  .expression g.value :: .pattern g.pattern :: expressions g.guard.toList

def chainClause (isGenerator : Source → Bool) (source : Source) : List Part :=
  if isGenerator source then (Generator.ofSource? source).toList.flatMap generator
  else [.expression source]

/-- A receiver is evaluated unless it names a module. -/
def receiver (source : Source) : List Part :=
  match receiverModule? source with
  | some _ => []
  | none => [.expression source]

def callee : Callee → List Part
  | .named _ => []
  | .remote target _ => receiver target
  | .anonymous function => [.expression function]

def ofLiteral : Literal → List Part
  | .list items => expressions ((Source.splitTail items).1 ++ (Source.splitTail items).2.toList)
  | .keywordList items => items.flatMap (entry .expression)
  | .tuple items => expressions items
  | .map items => mapBody items
  | .struct typeRef fields => .expression typeRef :: mapBody fields
  | .range first last step => expressions (first :: last :: step.toList)
  | .sigil _ content _ => if (Build.plainContent? content).isSome then [] else [.expression content]
  | .binary segments => segments.flatMap (Segment.parts .expression)
  | _ => []

def ofExpression (source : Source) : List Part :=
  match source.expression with
  | .literal shape => ofLiteral shape
  | .symbol read => [.name read]
  | .unary _ _ operand => [.expression operand]
  | .binary .matching _ left right => [.expression right, .pattern left]
  | .binary _ _ left right => [.expression left, .expression right]
  | .block statements => expressions statements
  | .conditional _ condition branches =>
    expressions (condition :: ((branches.keyword? "do").toList ++ (branches.keyword? "else").toList))
  | .case subject branches =>
    .expression subject :: clauses clause (clauseItems (branches.keyword? "do"))
  | .cond branches => clauses condClause (clauseItems (branches.keyword? "do"))
  | .withChain parts options =>
    parts.flatMap (chainClause Generator.isArrow) ++ (expressions (options.keyword? "do").toList ++
      clauses clause (clauseItems (options.keyword? "else")))
  | .comprehension qualifiers options =>
    expressions ((options.keyword? "into").toList ++ (options.keyword? "reduce").toList) ++
      (qualifiers.flatMap (chainClause Generator.isQualifier) ++
        if (options.keyword? "reduce").isSome then
          clauses clause (clauseItems (options.keyword? "do"))
        else expressions (options.keyword? "do").toList)
  | .closure items => clauses clause items
  | .capture body =>
    match capturedFunction? body with
    | some f => f.receiver.toList.flatMap receiver
    | none => [.expression body]
  | .localCall called args =>
    if (Expression.localCall called args).isDefinition then
      (DefinitionClause.ofSource source).toOption.toList.flatMap fun form => clause form.clause
    else expressions args
  | .remoteCall target called args => callee (.remote target called) ++ expressions args
  | .anonymousCall function args => callee (.anonymous function) ++ expressions args
  | _ => []

def ofPattern (source : Source) : List Part :=
  match source.pattern with
  | .literal shape => ofLiteral shape
  | .value => [.expression source]
  | .pin pinned => [.expression pinned]
  | .tuple items => patterns items
  | .list elements tail => patterns (elements ++ tail.toList)
  | .map entries => entries.flatMap (entry .pattern)
  | .struct typeRef fields => .pattern typeRef :: fields.flatMap (entry .pattern)
  | .binary segments => segments.flatMap (Segment.parts .pattern)
  | .both left right => patterns [left, right]
  | .textHead _ rest => [.pattern rest]
  | .fallback inner value => [.pattern inner, .expression value]
  | _ => []

/-- The parts that are met next. -/
def parts : Part → List Part
  | .name _ => []
  | .expression source => ofExpression source
  | .pattern source => ofPattern source

/-- A name is read at a part or at one that is met further down. -/
inductive Reads (name : String) : Part → Prop where
  | here : Reads name (.name name)
  | inside {p q : Part} (met : q ∈ p.parts) (reads : Reads name q) : Reads name p

end Part

end SyntaxGraph
