import Mathlib.Data.List.Forall2
import SyntaxGraph.Build.Expression

/-!
# Trees that are read alike

Two trees are read alike at an address if a builder finds the same shape in both of them and
finds parts that are again alike, each at its own address. A `Likeness` says which trees count
as alike, as expressions and as patterns; everything a builder looks at besides parts, such as
names, operators and the words of a specification, must be the same. Branches are the
exception: where `free` allows it, two branches may hold anything.

The relations here follow the shapes one by one. A likeness is `Closed` if trees that it calls
alike are of alike shapes, so that a proof about two runs can go down both trees at once.
-/

namespace SyntaxGraph

/-- Which trees count as alike at an address. -/
structure Likeness where
  expression : Address → Source → Source → Prop
  pattern : Address → Source → Source → Prop
  position : Option Position → Option Position → Prop
  /-- The branches that may hold anything. -/
  free : Address → Prop

/-- Lists of parts that are alike one by one, at numbered addresses from a position on. -/
inductive Each {α : Type} (alike : Address → α → α → Prop) (site : Address) (role : Role) :
    Nat → List α → List α → Prop where
  | nil {index} : Each alike site role index [] []
  | cons {index x y xs ys} (first : alike (site.indexed role.label index) x y)
      (rest : Each alike site role (index + 1) xs ys) :
      Each alike site role index (x :: xs) (y :: ys)

namespace Each

variable {α : Type} {alike : Address → α → α → Prop} {site : Address} {role : Role} {index : Nat}
  {xs ys : List α}

theorem length_eq (each : Each alike site role index xs ys) : xs.length = ys.length := by
  induction each with
  | nil => rfl
  | cons _ _ ih => exact congrArg (· + 1) ih

theorem refl (same : ∀ address x, alike address x x) (index : Nat) (xs : List α) :
    Each alike site role index xs xs := by
  induction xs generalizing index with
  | nil => exact .nil
  | cons x xs ih => exact .cons (same _ x) (ih _)

/-- Some part is free, or all parts are alike. -/
theorem free_or {free : Address → Prop}
    (each : Each (fun address x y => free address ∨ alike address x y) site role index xs ys) :
    (∃ i, free (site.indexed role.label i)) ∨ Each alike site role index xs ys := by
  induction each with
  | nil => exact .inr .nil
  | @cons index x y xs ys first _ ih =>
      obtain found | others := ih
      · exact .inl found
      · obtain found | here := first
        · exact .inl ⟨index, found⟩
        · exact .inr (.cons here others)

/-- What alike parts have in common is the same along the lists. -/
theorem map_eq {β : Type} {f : α → β} (common : ∀ address x y, alike address x y → f x = f y)
    (each : Each alike site role index xs ys) : xs.map f = ys.map f := by
  induction each with
  | nil => rfl
  | cons first _ ih => exact congrArg₂ List.cons (common _ _ _ first) ih

/-- What holds of all members may be noted beside their likeness. -/
theorem attach {p q : α → Prop} (each : Each alike site role index xs ys) (first : ∀ x ∈ xs, p x)
    (second : ∀ y ∈ ys, q y) :
    Each (fun address x y => alike address x y ∧ p x ∧ q y) site role index xs ys := by
  induction each with
  | nil => exact .nil
  | cons here _ ih =>
      exact .cons ⟨here, first _ List.mem_cons_self, second _ List.mem_cons_self⟩
        (ih (fun x member => first x (List.mem_cons_of_mem _ member))
          fun y member => second y (List.mem_cons_of_mem _ member))

end Each

namespace Build

/-- The base and the entries of the inside of a map that updates another. -/
def mapUpdate? : List Source → Option (Source × List Source)
  | [.form "|" _ [base, updates]] => some (base, updates.list?.getD [updates])
  | _ => none

theorem mapBody_eq (level : Level) (node : Node) (items : List Source) :
    mapBody level node items = match mapUpdate? items with
      | some (base, updates) => do
        let node ← level.child node .base base
        entries level node updates
      | none => entries level node items := by
  unfold mapBody
  split
  · rfl
  · rename_i other
    rw [show mapUpdate? items = none from mapUpdate?.eq_2 items other]

/-- The name that the type of a struct has as a module. -/
def typeName? (typeRef : Source) : Option String := (typeRef.argsOf? "__aliases__").bind moduleText?

end Build

def Expression.isDefinition : Expression → Bool
  | .localCall name args => (name = "def" || name = "defp") && !args.isEmpty
  | _ => false

namespace Likeness

open Build

variable (like : Likeness)

/-- Parts that may be missing in both trees. -/
def Optional (alike : Address → Source → Source → Prop) (site : Address) (role : Role) :
    Option Source → Option Source → Prop :=
  Option.Rel (alike (site.child role.label))

structure Entry (alike : Address → Source → Source → Prop) (site : Address) (s s' : Source) :
    Prop where
  position : like.position s.position s'.position
  tag : s.mapEntry? = none → s.tag? = s'.tag?
  parts : Option.Rel (fun parts parts' => alike (site.child Role.key.label) parts.1 parts'.1 ∧
    alike (site.child Role.value.label) parts.2 parts'.2) s.mapEntry? s'.mapEntry?

/-- Segments of binaries. Specifications are alike if they are read to the same effect. -/
structure Segment (alike : Address → Source → Source → Prop) (site : Address) (s s' : Source) :
    Prop where
  position : like.position s.position s'.position
  value : alike (site.child Role.value.label) (Segment.split s).1 (Segment.split s').1
  spec : Option.Rel (fun spec spec' => ∀ address room reading,
      Segment.readPending address [(spec, room)] reading =
        Segment.readPending address [(spec', room)] reading)
    (Segment.split s).2 (Segment.split s').2

structure MapBody (site : Address) (items items' : List Source) : Prop where
  update : Option.Rel (fun parts parts' => like.expression (site.child Role.base.label) parts.1 parts'.1 ∧
    Each (like.Entry like.expression) site .entry 0 parts.2 parts'.2) (mapUpdate? items) (mapUpdate? items')
  plain : mapUpdate? items = none →
    Each (like.Entry like.expression) site .entry 0 items items'

/-- Receivers: they name the same module, or none and are alike. -/
structure Receiver (site : Address) (s s' : Source) : Prop where
  named : receiverModule? s = receiverModule? s'
  value : receiverModule? s = none → like.expression (site.child Role.receiver.label) s s'

/-- Parameters of clauses, at numbered addresses or all at one. -/
def Parameters (site : Address) (role : Role) (params params' : List Source) : Prop :=
  if role.isOrdered then Each like.pattern site role 0 params params'
  else List.Forall₂ (like.pattern (site.child role.label)) params params'

structure Clause (role : Role) (site : Address) (c c' : SyntaxGraph.Clause) : Prop where
  params : like.Parameters site role c.params c'.params
  guard : Optional like.expression site .guard c.guard c'.guard
  body : Optional like.expression site .body c.body c'.body
  position : like.position c.position c'.position

/-- Clauses of `cond`, which have a condition in place of parameters. -/
structure CondClause (site : Address) (c c' : SyntaxGraph.Clause) : Prop where
  arity : c.arity = c'.arity
  condition : Optional like.expression site .condition c.params.head? c'.params.head?
  body : Optional like.expression site .body c.body c'.body
  position : like.position c.position c'.position

/-- Trees split into clauses. Free ones may hold anything. -/
def Branches (alike : Address → SyntaxGraph.Clause → SyntaxGraph.Clause → Prop) (site : Address)
    (role : Role) : List Source → List Source → Prop :=
  Each (fun address s s' => like.free address ∨
    Option.Rel (alike address) (Clause.ofSource? s) (Clause.ofSource? s')) site role 0

def Branch (site : Address) (role : Role) : Option Source → Option Source → Prop :=
  Option.Rel fun s s' => like.free (site.child role.label) ∨ like.expression (site.child role.label) s s'

structure DefinitionClause (site : Address) (d d' : SyntaxGraph.DefinitionClause) : Prop where
  isPrivate : d.isPrivate = d'.isPrivate
  name : d.name = d'.name
  clause : like.Clause .parameter site d.clause d'.clause

/-- Trees read as forms of a definition, or refused for the same reason. -/
inductive Form (site : Address) (s s' : Source) : Prop where
  | refused {what} (first : DefinitionClause.ofSource s = .error what)
      (second : DefinitionClause.ofSource s' = .error what)
  | read {d d'} (first : DefinitionClause.ofSource s = .ok d)
      (second : DefinitionClause.ofSource s' = .ok d') (alike : like.DefinitionClause site d d')

/-- The forms that define one function. Free ones may hold anything. -/
def Forms (site : Address) : List Source → List Source → Prop :=
  Each (fun address s s' => like.free address ∨ like.Form address s s') site .clause 0

/-- Generators; `role` is that of their values. -/
structure Generator (role : Role) (site : Address) (s s' : Source) : Prop where
  position : like.position s.position s'.position
  parts : Option.Rel (fun g g' => g.isBinary = g'.isBinary ∧
      like.expression (site.child role.label) g.value g'.value ∧
      like.pattern (site.child Role.pattern.label) g.pattern g'.pattern ∧
      Optional like.expression site .guard g.guard g'.guard)
    (Generator.ofSource? s) (Generator.ofSource? s')

/-- The clauses of a chain: generators, and others in the role `otherwise`. -/
inductive Chain (isGenerator : Source → Bool) (role otherwise : Role) (site : Address) :
    Nat → List Source → List Source → Prop where
  | nil {index} : Chain isGenerator role otherwise site index [] []
  | generator {index s s' rest rest'} (first : isGenerator s = true) (second : isGenerator s' = true)
      (alike : like.Generator role (site.indexed Role.generator.label index) s s')
      (others : Chain isGenerator role otherwise site (index + 1) rest rest') :
      Chain isGenerator role otherwise site index (s :: rest) (s' :: rest')
  | other {index s s' rest rest'} (first : isGenerator s = false) (second : isGenerator s' = false)
      (alike : like.expression (site.indexed otherwise.label index) s s')
      (others : Chain isGenerator role otherwise site (index + 1) rest rest') :
      Chain isGenerator role otherwise site index (s :: rest) (s' :: rest')

theorem Chain.length_eq {like : Likeness} {isGenerator : Source → Bool} {role otherwise : Role}
    {site : Address} {index : Nat} {clauses clauses' : List Source}
    (chain : like.Chain isGenerator role otherwise site index clauses clauses') :
    clauses.length = clauses'.length := by
  induction chain with
  | nil => rfl
  | generator _ _ _ _ ih => exact congrArg (· + 1) ih
  | other _ _ _ _ ih => exact congrArg (· + 1) ih

inductive Literal (site : Address) : SyntaxGraph.Literal → SyntaxGraph.Literal → Prop where
  | scalar {shape} (scalar : shape.isScalar = true) : Literal site shape shape
  | list {items items'}
      (elements : Each like.expression site .element 0 (Source.splitTail items).1
        (Source.splitTail items').1)
      (tail : Optional like.expression site .tail (Source.splitTail items).2
        (Source.splitTail items').2) :
      Literal site (.list items) (.list items')
  | keywordList {items items'} (entries : Each (like.Entry like.expression) site .entry 0 items items') :
      Literal site (.keywordList items) (.keywordList items')
  | tuple {items items'} (elements : Each like.expression site .element 0 items items') :
      Literal site (.tuple items) (.tuple items')
  | map {items items'} (body : like.MapBody site items items') :
      Literal site (.map items) (.map items')
  | struct {typeRef typeRef' fields fields'}
      (type : like.expression (site.child Role.referencedType.label) typeRef typeRef')
      (named : typeName? typeRef = typeName? typeRef') (body : like.MapBody site fields fields') :
      Literal site (.struct typeRef fields) (.struct typeRef' fields')
  | range {first first' last last' step step'}
      (low : like.expression (site.child Role.first.label) first first')
      (high : like.expression (site.child Role.last.label) last last')
      (steps : Optional like.expression site .step step step') :
      Literal site (.range first last step) (.range first' last' step')
  | sigil {letter content content' modifiers modifiers'}
      (modified : modifierText modifiers = modifierText modifiers')
      (plain : plainContent? content = plainContent? content')
      (contents : plainContent? content = none →
        like.expression (site.child Role.content.label) content content') :
      Literal site (.sigil letter content modifiers) (.sigil letter content' modifiers')
  | binary {segments segments'}
      (alike : Each (like.Segment like.expression) site .segment 0 segments segments') :
      Literal site (.binary segments) (.binary segments')

/-- What the options of a comprehension say about its result. -/
structure Collected (site : Address) (options options' : Source) : Prop where
  into : Optional like.expression site .into (options.keyword? "into") (options'.keyword? "into")
  reduce : Optional like.expression site .reduce (options.keyword? "reduce")
    (options'.keyword? "reduce")
  uniq : (options.keyword? "uniq").bind Source.atom? = (options'.keyword? "uniq").bind Source.atom?
  clauses : (options.keyword? "reduce").isSome = true →
    like.Branches (like.Clause .pattern) site .clause (clauseItems (options.keyword? "do"))
      (clauseItems (options'.keyword? "do"))
  body : options.keyword? "reduce" = none →
    Optional like.expression site .body (options.keyword? "do") (options'.keyword? "do")

structure Captured (site : Address) (f f' : CapturedFunction) : Prop where
  name : f.name = f'.name
  arity : f.arity = f'.arity
  receiver : Option.Rel (like.Receiver site) f.receiver f'.receiver

/-- Expressions, definitions of functions apart. -/
inductive Shape (site : Address) : SyntaxGraph.Expression → SyntaxGraph.Expression → Prop where
  | literal {shape shape'} (alike : like.Literal site shape shape') :
      Shape site (.literal shape) (.literal shape')
  | symbol (name) : Shape site (.symbol name) (.symbol name)
  | reserved (name) : Shape site (.reserved name) (.reserved name)
  | moduleAttribute (name) : Shape site (.moduleAttribute name) (.moduleAttribute name)
  | moduleName {segments segments'} (named : moduleText? segments = moduleText? segments') :
      Shape site (.moduleName segments) (.moduleName segments')
  | unary {category sign operand operand'}
      (alike : like.expression (site.child Role.operand.label) operand operand') :
      Shape site (.unary category sign operand) (.unary category sign operand')
  | matching {sign left left' right right'}
      (lefts : like.pattern (site.child Role.leftOperand.label) left left')
      (rights : like.expression (site.child Role.rightOperand.label) right right') :
      Shape site (.binary .matching sign left right) (.binary .matching sign left' right')
  | binary {category sign left left' right right'} (other : category ≠ .matching)
      (lefts : like.expression (site.child Role.leftOperand.label) left left')
      (rights : like.expression (site.child Role.rightOperand.label) right right') :
      Shape site (.binary category sign left right) (.binary category sign left' right')
  | block {statements statements'}
      (alike : Each like.expression site .statement 0 statements statements') :
      Shape site (.block statements) (.block statements')
  | conditional {negated condition condition' branches branches'}
      (conditions : like.expression (site.child Role.condition.label) condition condition')
      (first : like.Branch site .thenBranch (branches.keyword? "do") (branches'.keyword? "do"))
      (second : like.Branch site .elseBranch (branches.keyword? "else") (branches'.keyword? "else")) :
      Shape site (.conditional negated condition branches) (.conditional negated condition' branches')
  | case {subject subject' branches branches'}
      (subjects : like.expression (site.child Role.subject.label) subject subject')
      (alike : like.Branches (like.Clause .pattern) site .clause
        (clauseItems (branches.keyword? "do")) (clauseItems (branches'.keyword? "do"))) :
      Shape site (.case subject branches) (.case subject' branches')
  | cond {branches branches'}
      (alike : like.Branches like.CondClause site .clause
        (clauseItems (branches.keyword? "do")) (clauseItems (branches'.keyword? "do"))) :
      Shape site (.cond branches) (.cond branches')
  | withChain {clauses clauses' options options'}
      (chain : like.Chain Generator.isArrow .value .statement site 0 clauses clauses')
      (body : Optional like.expression site .body (options.keyword? "do")
        (options'.keyword? "do"))
      (fallback : Option.Rel (fun items items' => like.Branches (like.Clause .pattern) site .elseBranch
        (clauseItems (some items)) (clauseItems (some items')))
        (options.keyword? "else") (options'.keyword? "else")) :
      Shape site (.withChain clauses options) (.withChain clauses' options')
  | comprehension {qualifiers qualifiers' options options'}
      (chain : like.Chain Generator.isQualifier .enumerable .filter site 0 qualifiers qualifiers')
      (collected : like.Collected site options options') :
      Shape site (.comprehension qualifiers options) (.comprehension qualifiers' options')
  | closure {clauses clauses'}
      (alike : like.Branches (like.Clause .parameter) site .clause clauses clauses') :
      Shape site (.closure clauses) (.closure clauses')
  | capture {body body'}
      (named : Option.Rel (like.Captured site) (capturedFunction? body) (capturedFunction? body'))
      (shorthand : capturedFunction? body = none →
        like.expression (site.child Role.body.label) body body') :
      Shape site (.capture body) (.capture body')
  | placeholder (index) : Shape site (.placeholder index) (.placeholder index)
  | localCall {name args args'} (alike : Each like.expression site .argument 0 args args') :
      Shape site (.localCall name args) (.localCall name args')
  | remoteCall {receiver receiver' name args args'} (receivers : like.Receiver site receiver receiver')
      (alike : Each like.expression site .argument 0 args args') :
      Shape site (.remoteCall receiver name args) (.remoteCall receiver' name args')
  | anonymousCall {function function' args args'}
      (functions : like.expression (site.child Role.receiver.label) function function')
      (alike : Each like.expression site .argument 0 args args') :
      Shape site (.anonymousCall function args) (.anonymousCall function' args')
  | unknown (tag) : Shape site (.unknown tag) (.unknown tag)

/-- Trees of alike shapes as expressions. A definition is compared form by form. -/
inductive Expression (site : Address) (s s' : Source) : Prop where
  | definition (first : s.expression.isDefinition = true) (second : s'.expression.isDefinition = true)
      (form : like.Forms site [s] [s'])
  | shape (first : s.expression.isDefinition = false) (second : s'.expression.isDefinition = false)
      (position : like.position s.position s'.position)
      (alike : like.Shape site s.expression s'.expression)

/-- Patterns, values apart. -/
inductive PatternShape (site : Address) : SyntaxGraph.Pattern → SyntaxGraph.Pattern → Prop where
  | literal {shape shape'} (alike : like.Literal site shape shape') :
      PatternShape site (.literal shape) (.literal shape')
  | signed {number number'} (same : signedNumber? number = signedNumber? number') :
      PatternShape site (.signed number) (.signed number')
  | symbol (name) : PatternShape site (.symbol name) (.symbol name)
  | wildcard : PatternShape site .wildcard .wildcard
  | pin {pinned pinned'} (named : pinned.symbol? = pinned'.symbol?)
      (alike : pinned.symbol?.isSome = true →
        like.expression (site.child Role.pinned.label) pinned pinned') :
      PatternShape site (.pin pinned) (.pin pinned')
  | tuple {items items'} (elements : Each like.pattern site .element 0 items items') :
      PatternShape site (.tuple items) (.tuple items')
  | list {items items' tail tail'} (elements : Each like.pattern site .element 0 items items')
      (tails : Optional like.pattern site .tail tail tail') :
      PatternShape site (.list items tail) (.list items' tail')
  | map {items items'} (entries : Each (like.Entry like.pattern) site .entry 0 items items') :
      PatternShape site (.map items) (.map items')
  | struct {typeRef typeRef' fields fields'}
      (type : like.pattern (site.child Role.referencedType.label) typeRef typeRef')
      (named : typeName? typeRef = typeName? typeRef')
      (entries : Each (like.Entry like.pattern) site .entry 0 fields fields') :
      PatternShape site (.struct typeRef fields) (.struct typeRef' fields')
  | binary {segments segments'}
      (alike : Each (like.Segment like.pattern) site .segment 0 segments segments') :
      PatternShape site (.binary segments) (.binary segments')
  | both {left left' right right'}
      (inner : like.pattern (site.child Role.inner.label) (asSides left right).1 (asSides left' right').1)
      (whole : like.pattern (site.child Role.boundAs.label) (asSides left right).2
        (asSides left' right').2) :
      PatternShape site (.both left right) (.both left' right')
  | textHead {head head' rest rest'} (same : plainText? head = plainText? head')
      (rests : (plainText? head).isSome = true →
        like.pattern (site.child Role.tail.label) rest rest') :
      PatternShape site (.textHead head rest) (.textHead head' rest')
  | fallback {inner inner' value value'}
      (inners : like.pattern (site.child Role.pattern.label) inner inner')
      (values : like.expression (site.child Role.defaultValue.label) value value') :
      PatternShape site (.fallback inner value) (.fallback inner' value')
  | unknown (tag) : PatternShape site (.unknown tag) (.unknown tag)

/-- Trees of alike shapes as patterns. A value is compared as an expression in its place. -/
inductive Pattern (site : Address) (s s' : Source) : Prop where
  | value (first : s.pattern = .value) (second : s'.pattern = .value) (alike : like.Expression site s s')
  | shape (position : like.position s.position s'.position)
      (alike : like.PatternShape site s.pattern s'.pattern)

/-- Trees that count as alike are of alike shapes. -/
structure Closed : Prop where
  expression : ∀ {site s s'}, like.expression site s s' → like.Expression site s s'
  pattern : ∀ {site s s'}, like.pattern site s s' → like.Pattern site s s'

/-! ## Trees are alike to themselves -/

/-- A likeness that calls every tree alike to itself. -/
structure Reflexive : Prop where
  expression : ∀ site s, like.expression site s s
  pattern : ∀ site s, like.pattern site s s
  position : ∀ p, like.position p p

variable {like} {alike : Address → Source → Source → Prop}

theorem option_refl {α : Type} {r : α → α → Prop} (same : ∀ x, r x x) (x : Option α) :
    Option.Rel r x x := by
  cases x with
  | none => exact .none
  | some x => exact .some (same x)

theorem optional_refl (same : ∀ site s, alike site s s) (site : Address) (role : Role)
    (s : Option Source) : Optional alike site role s s := option_refl (same _) s

namespace Reflexive

variable (reflexive : like.Reflexive)
include reflexive

theorem entry (same : ∀ site s, alike site s s) (site : Address) (s : Source) :
    like.Entry alike site s s :=
  ⟨reflexive.position _, fun _ => rfl, option_refl (fun _ => ⟨same _ _, same _ _⟩) _⟩

theorem entries (same : ∀ site s, alike site s s) (site : Address) (items : List Source) :
    Each (like.Entry alike) site .entry 0 items items := .refl (reflexive.entry same) 0 items

theorem segment (same : ∀ site s, alike site s s) (site : Address) (s : Source) :
    like.Segment alike site s s :=
  ⟨reflexive.position _, same _ _, option_refl (fun _ _ _ _ => rfl) _⟩

theorem mapBody (site : Address) (items : List Source) : like.MapBody site items items :=
  ⟨option_refl (fun _ => ⟨reflexive.expression _ _, reflexive.entries reflexive.expression _ _⟩) _,
    fun _ => reflexive.entries reflexive.expression _ _⟩

theorem receiver (site : Address) (s : Source) : like.Receiver site s s :=
  ⟨rfl, fun _ => reflexive.expression _ _⟩

theorem parameters (site : Address) (role : Role) (params : List Source) :
    like.Parameters site role params params := by
  unfold Parameters
  split
  · exact .refl reflexive.pattern 0 params
  · exact List.forall₂_same.mpr fun _ _ => reflexive.pattern _ _

theorem clause (role : Role) (site : Address) (c : SyntaxGraph.Clause) : like.Clause role site c c :=
  ⟨reflexive.parameters _ _ _, optional_refl reflexive.expression _ _ _,
    optional_refl reflexive.expression _ _ _, reflexive.position _⟩

theorem condClause (site : Address) (c : SyntaxGraph.Clause) : like.CondClause site c c :=
  ⟨rfl, optional_refl reflexive.expression _ _ _, optional_refl reflexive.expression _ _ _,
    reflexive.position _⟩

omit reflexive in
theorem branches {alike : Address → SyntaxGraph.Clause → SyntaxGraph.Clause → Prop}
    (same : ∀ site c, alike site c c) (site : Address) (role : Role) (items : List Source) :
    like.Branches alike site role items items :=
  .refl (fun _ _ => .inr (option_refl (same _) _)) 0 items

theorem branch (site : Address) (role : Role) (s : Option Source) : like.Branch site role s s :=
  option_refl (fun _ => .inr (reflexive.expression _ _)) s

theorem form (site : Address) (s : Source) : like.Form site s s := by
  cases found : DefinitionClause.ofSource s with
  | error what => exact .refused found found
  | ok d => exact .read found found ⟨rfl, rfl, reflexive.clause _ _ _⟩

theorem forms (site : Address) (items : List Source) : like.Forms site items items :=
  .refl (fun _ _ => .inr (reflexive.form _ _)) 0 items

theorem generator (role : Role) (site : Address) (s : Source) : like.Generator role site s s :=
  ⟨reflexive.position _, option_refl (fun _ => ⟨rfl, reflexive.expression _ _, reflexive.pattern _ _,
    optional_refl reflexive.expression _ _ _⟩) _⟩

theorem chain (isGenerator : Source → Bool) (role otherwise : Role) (site : Address) (index : Nat)
    (clauses : List Source) :
    like.Chain isGenerator role otherwise site index clauses clauses := by
  induction clauses generalizing index with
  | nil => exact .nil
  | cons s rest ih =>
      cases kind : isGenerator s with
      | true => exact .generator kind kind (reflexive.generator _ _ _) (ih _)
      | false => exact .other kind kind (reflexive.expression _ _) (ih _)

theorem literal (site : Address) (shape : SyntaxGraph.Literal) : like.Literal site shape shape := by
  cases shape with
  | list items =>
      exact .list (.refl reflexive.expression 0 _) (optional_refl reflexive.expression _ _ _)
  | keywordList items => exact .keywordList (reflexive.entries reflexive.expression _ _)
  | tuple items => exact .tuple (.refl reflexive.expression 0 _)
  | map items => exact .map (reflexive.mapBody _ _)
  | struct typeRef fields =>
      exact .struct (reflexive.expression _ _) rfl (reflexive.mapBody _ _)
  | range first last step =>
      exact .range (reflexive.expression _ _) (reflexive.expression _ _)
        (optional_refl reflexive.expression _ _ _)
  | sigil letter content modifiers => exact .sigil rfl rfl fun _ => reflexive.expression _ _
  | binary segments => exact .binary (.refl (reflexive.segment reflexive.expression) 0 _)
  | _ => exact .scalar rfl

theorem collected (site : Address) (options : Source) : like.Collected site options options :=
  ⟨optional_refl reflexive.expression _ _ _, optional_refl reflexive.expression _ _ _, rfl,
    fun _ => branches (reflexive.clause _) _ _ _, fun _ => optional_refl reflexive.expression _ _ _⟩

theorem captured (site : Address) (f : CapturedFunction) : like.Captured site f f :=
  ⟨rfl, rfl, option_refl (reflexive.receiver _) _⟩

theorem arguments (site : Address) (args : List Source) :
    Each like.expression site .argument 0 args args := .refl reflexive.expression 0 args

theorem shape (site : Address) (shape : SyntaxGraph.Expression) : like.Shape site shape shape := by
  cases shape with
  | literal shape => exact .literal (reflexive.literal _ _)
  | symbol name => exact .symbol name
  | reserved name => exact .reserved name
  | moduleAttribute name => exact .moduleAttribute name
  | moduleName segments => exact .moduleName rfl
  | unary category sign operand => exact .unary (reflexive.expression _ _)
  | binary category sign left right =>
      by_cases isMatch : category = .matching
      · subst isMatch
        exact .matching (reflexive.pattern _ _) (reflexive.expression _ _)
      · exact .binary isMatch (reflexive.expression _ _) (reflexive.expression _ _)
  | block statements => exact .block (.refl reflexive.expression 0 _)
  | conditional negated condition arms =>
      exact .conditional (reflexive.expression _ _) (reflexive.branch _ _ _) (reflexive.branch _ _ _)
  | case subject arms => exact .case (reflexive.expression _ _) (branches (reflexive.clause _) _ _ _)
  | cond arms => exact .cond (branches reflexive.condClause _ _ _)
  | withChain clauses options =>
      exact .withChain (reflexive.chain _ _ _ _ _ _) (optional_refl reflexive.expression _ _ _)
        (option_refl (fun items => branches (reflexive.clause _) _ _ (clauseItems (some items))) _)
  | comprehension qualifiers options =>
      exact .comprehension (reflexive.chain _ _ _ _ _ _) (reflexive.collected _ _)
  | closure clauses => exact .closure (branches (reflexive.clause _) _ _ _)
  | capture body =>
      exact .capture (option_refl (reflexive.captured _) _) fun _ => reflexive.expression _ _
  | placeholder index => exact .placeholder index
  | localCall name args => exact .localCall (reflexive.arguments _ _)
  | remoteCall receiver name args =>
      exact .remoteCall (reflexive.receiver _ _) (reflexive.arguments _ _)
  | anonymousCall function args =>
      exact .anonymousCall (reflexive.expression _ _) (reflexive.arguments _ _)
  | unknown tag => exact .unknown tag

/-- Trees are of alike shapes to themselves as expressions. -/
theorem ofExpression (site : Address) (s : Source) : like.Expression site s s := by
  cases isDefinition : s.expression.isDefinition with
  | true => exact .definition isDefinition isDefinition (reflexive.forms _ _)
  | false => exact .shape isDefinition isDefinition (reflexive.position _) (reflexive.shape _ _)

/-- Trees are of alike shapes to themselves as patterns. -/
theorem ofPattern (site : Address) (s : Source) : like.Pattern site s s := by
  by_cases isValue : s.pattern = .value
  · exact .value isValue isValue (reflexive.ofExpression _ _)
  · refine .shape (reflexive.position _) ?_
    generalize s.pattern = shape at isValue
    cases shape with
    | literal shape => exact .literal (reflexive.literal _ _)
    | signed number => exact .signed rfl
    | value => exact absurd rfl isValue
    | symbol name => exact .symbol name
    | wildcard => exact .wildcard
    | pin pinned => exact .pin rfl fun _ => reflexive.expression _ _
    | tuple items => exact .tuple (.refl reflexive.pattern 0 _)
    | list items tail =>
        exact .list (.refl reflexive.pattern 0 _) (optional_refl reflexive.pattern _ _ _)
    | map items => exact .map (reflexive.entries reflexive.pattern _ _)
    | struct typeRef fields =>
        exact .struct (reflexive.pattern _ _) rfl (reflexive.entries reflexive.pattern _ _)
    | binary segments => exact .binary (.refl (reflexive.segment reflexive.pattern) 0 _)
    | both left right => exact .both (reflexive.pattern _ _) (reflexive.pattern _ _)
    | textHead head rest => exact .textHead rfl fun _ => reflexive.pattern _ _
    | fallback inner value => exact .fallback (reflexive.pattern _ _) (reflexive.expression _ _)
    | unknown tag => exact .unknown tag

end Reflexive

def same : Likeness := ⟨fun _ => Eq, fun _ => Eq, Eq, fun _ => False⟩

theorem same_reflexive : same.Reflexive := ⟨fun _ _ => rfl, fun _ _ => rfl, fun _ => rfl⟩

theorem same_closed : same.Closed where
  expression := by
    rintro site s - rfl
    exact same_reflexive.ofExpression site s
  pattern := by
    rintro site s - rfl
    exact same_reflexive.ofPattern site s

end Likeness

end SyntaxGraph
