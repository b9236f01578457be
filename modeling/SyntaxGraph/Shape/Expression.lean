import SyntaxGraph.Shape.Literal
import SyntaxGraph.Shape.Operator
import SyntaxGraph.Text.Alphabetic
import SyntaxGraph.Text.Numeric

/-!
# Expression shapes

What a tree is as an expression. One operand makes a unary operator and two make a
binary one, since `-` and `+` are both. Whatever has no place is of unknown shape,
with the tag that was not recognised.
-/

namespace SyntaxGraph

/-- A tree seen as an expression. -/
inductive Expression where
  | literal (shape : Literal)
  | symbol (name : String)
  | reserved (name : String)
  | moduleAttribute (name : String)
  | moduleName (segments : List Source)
  | unary (category : Operator) (sign : String) (operand : Source)
  | binary (category : Operator) (sign : String) (left right : Source)
  | block (statements : List Source)
  | conditional (negated : Bool) (condition branches : Source)
  | case (subject branches : Source)
  | cond (branches : Source)
  /-- Clauses, then the options with the body. -/
  | withChain (clauses : List Source) (options : Source)
  /-- Qualifiers, then the options with the body. -/
  | comprehension (qualifiers : List Source) (options : Source)
  | closure (clauses : List Source)
  | capture (body : Source)
  | placeholder (index : Int64)
  | localCall (name : String) (args : List Source)
  | remoteCall (receiver : Source) (name : String) (args : List Source)
  | anonymousCall (function : Source) (args : List Source)
  | unknown (tag : String)

def Expression.name : Expression → String
  | .literal _ => "Literal"
  | .symbol _ => "Variable"
  | .reserved _ => "Reserved"
  | .moduleAttribute _ => "ModuleAttribute"
  | .moduleName _ => "Alias"
  | .unary _ _ _ => "Unary"
  | .binary _ _ _ _ => "Binary"
  | .block _ => "Block"
  | .conditional _ _ _ => "Conditional"
  | .case _ _ => "Case"
  | .cond _ => "Cond"
  | .withChain _ _ => "With"
  | .comprehension _ _ => "Comprehension"
  | .closure _ => "Closure"
  | .capture _ => "Capture"
  | .placeholder _ => "Placeholder"
  | .localCall _ _ => "LocalCall"
  | .remoteCall _ _ _ => "RemoteCall"
  | .anonymousCall _ _ => "AnonymousCall"
  | .unknown _ => "Unknown"

namespace Source

/-- Names that look like variables and stand for a compile-time value. -/
def reservedNames : List String :=
  ["__MODULE__", "__ENV__", "__CALLER__", "__DIR__", "__STACKTRACE__"]

def hasBody (options : Source) : Bool := (options.keyword? "do").isSome

/-- The parts before the last one, and the last one if it has a body. -/
def splitBody? (parts : List Source) : Option (List Source × Source) :=
  match parts.getLast? with
  | some options => if options.hasBody then some (parts.dropLast, options) else none
  | none => none

def isWordChar (c : Char) : Bool := Text.isAlphabetic c || Text.isNumeric c

/-- Whether a tag can name a called function: a letter or underscore, then letters, numbers,
underscores, question and exclamation marks. -/
def isCallName (tag : String) : Bool :=
  match tag.toList with
  | [] => false
  | first :: rest =>
    (Text.isAlphabetic first || first == '_') &&
      rest.all fun c => isWordChar c || c == '_' || c == '?' || c == '!'

/-- Tags that mean something only inside clauses, generators and binaries. -/
def inertTags : List String := ["when", "<-", "->", "::", "|", "^", "\\\\"]

/-- What is left of a form: an operator, a call or nothing known. -/
def operatorOrCall (tag : String) (args : List Source) : Expression :=
  let other :=
    if tag ∈ inertTags then Expression.unknown tag
    else if isCallName tag then .localCall tag args
    else .unknown tag
  match args with
  | [operand] =>
    match Operator.unary? tag with
    | some category => .unary category tag operand
    | none => other
  | [left, right] =>
    match Operator.binary? tag with
    | some category => .binary category tag left right
    | none => other
  | _ => other

/-- What a form with arguments is, literals apart. -/
def formExpression (tag : String) (args : List Source) : Expression :=
  match tag, args with
  | "__aliases__", segments => .moduleName segments
  | "__block__", statements => .block statements
  | "@", [named] =>
    match named.tag? with
    | some name => .moduleAttribute name
    | none => .unknown tag
  | "&", [.integer index] => .placeholder index
  | "&", [body] => .capture body
  | "fn", clauses => .closure clauses
  | "if", [condition, branches] =>
    if branches.hasBody then .conditional false condition branches else operatorOrCall tag args
  | "unless", [condition, branches] =>
    if branches.hasBody then .conditional true condition branches else operatorOrCall tag args
  | "case", [subject, branches] =>
    if branches.hasBody then .case subject branches else operatorOrCall tag args
  | "cond", [branches] => if branches.hasBody then .cond branches else operatorOrCall tag args
  | "with", parts =>
    match splitBody? parts with
    | some (clauses, options) => .withChain clauses options
    | none => operatorOrCall tag args
  | "for", parts =>
    match splitBody? parts with
    | some (qualifiers, options) => .comprehension qualifiers options
    | none => operatorOrCall tag args
  | _, _ => operatorOrCall tag args

/-- What a tree is as an expression. -/
def expression (s : Source) : Expression :=
  match s.literal? with
  | some shape => .literal shape
  | none =>
    match s with
    | .symbol name _ => if name ∈ reservedNames then .reserved name else .symbol name
    | .form tag _ args => formExpression tag args
    | .call target _ args =>
      match target.argsOf? "." with
      | some [receiver, .atom name] => .remoteCall receiver name args
      | some [_, _] => .unknown "."
      | some [function] => .anonymousCall function args
      | _ => .unknown (target.tag?.getD "call")
    | _ => .unknown "literal"

end Source

end SyntaxGraph
