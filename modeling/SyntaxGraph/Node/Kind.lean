import SyntaxGraph.OrderedMap

/-!
# Kinds and tags of nodes

Every node has exactly one kind and any number of tags. Both are listed in the order
in which statistics and encodings show them.
-/

namespace SyntaxGraph

/-- What a node stands for. -/
inductive NodeKind where
  | integerLiteral
  | floatLiteral
  | stringLiteral
  | atomLiteral
  | booleanLiteral
  | nilLiteral
  | listLiteral
  | keywordList
  | tupleLiteral
  | mapLiteral
  | structLiteral
  | rangeLiteral
  | sigilLiteral
  | binaryLiteral
  | mapEntry
  | binarySegment
  | arithmeticOperator
  | comparisonOperator
  | logicalOperator
  | pipeOperator
  | matchOperator
  | listOperator
  | concatOperator
  | membershipOperator
  | variable
  | moduleAttribute
  | alias
  | specialForm
  | localCall
  | remoteCall
  | anonymousCall
  | functionReference
  | block
  | ifExpression
  | unlessExpression
  | caseExpression
  | caseClause
  | condExpression
  | condClause
  | withExpression
  | comprehension
  | generator
  | functionDefinition
  | functionClause
  | anonymousFunction
  | anonymousFunctionClause
  | shorthandClosure
  | capturePlaceholder
  | functionCapture
  | capturedVariable
  | variablePattern
  | wildcardPattern
  | pinPattern
  | tuplePattern
  | listPattern
  | mapPattern
  | structPattern
  | binaryPattern
  | asPattern
  | stringPrefixPattern
  | defaultArgument
  | unknownExpression
  deriving DecidableEq, Repr

namespace NodeKind

instance : Inhabited NodeKind := ⟨.unknownExpression⟩

instance : Ord NodeKind := ⟨fun a b => compare a.ctorIdx b.ctorIdx⟩

theorem ctorIdx_inj (a b : NodeKind) (h : a.ctorIdx = b.ctorIdx) : a = b := by
  rw [← ofNat_ctorIdx a, ← ofNat_ctorIdx b, h]

instance : Std.TransOrd NodeKind := transOrd_of_key NodeKind.ctorIdx fun _ _ => rfl

instance : Std.LawfulEqOrd NodeKind := lawfulEqOrd_of_key NodeKind.ctorIdx (fun _ _ => rfl) ctorIdx_inj

def name : NodeKind → String
  | .integerLiteral => "IntegerLiteral"
  | .floatLiteral => "FloatLiteral"
  | .stringLiteral => "StringLiteral"
  | .atomLiteral => "AtomLiteral"
  | .booleanLiteral => "BooleanLiteral"
  | .nilLiteral => "NilLiteral"
  | .listLiteral => "ListLiteral"
  | .keywordList => "KeywordList"
  | .tupleLiteral => "TupleLiteral"
  | .mapLiteral => "MapLiteral"
  | .structLiteral => "StructLiteral"
  | .rangeLiteral => "RangeLiteral"
  | .sigilLiteral => "SigilLiteral"
  | .binaryLiteral => "BinaryLiteral"
  | .mapEntry => "MapEntry"
  | .binarySegment => "BinarySegment"
  | .arithmeticOperator => "ArithmeticOperator"
  | .comparisonOperator => "ComparisonOperator"
  | .logicalOperator => "LogicalOperator"
  | .pipeOperator => "PipeOperator"
  | .matchOperator => "MatchOperator"
  | .listOperator => "ListOperator"
  | .concatOperator => "ConcatOperator"
  | .membershipOperator => "MembershipOperator"
  | .variable => "Variable"
  | .moduleAttribute => "ModuleAttribute"
  | .alias => "Alias"
  | .specialForm => "SpecialForm"
  | .localCall => "LocalCall"
  | .remoteCall => "RemoteCall"
  | .anonymousCall => "AnonymousCall"
  | .functionReference => "FunctionReference"
  | .block => "Block"
  | .ifExpression => "IfExpression"
  | .unlessExpression => "UnlessExpression"
  | .caseExpression => "CaseExpression"
  | .caseClause => "CaseClause"
  | .condExpression => "CondExpression"
  | .condClause => "CondClause"
  | .withExpression => "WithExpression"
  | .comprehension => "Comprehension"
  | .generator => "Generator"
  | .functionDefinition => "FunctionDefinition"
  | .functionClause => "FunctionClause"
  | .anonymousFunction => "AnonymousFunction"
  | .anonymousFunctionClause => "AnonymousFunctionClause"
  | .shorthandClosure => "ShorthandClosure"
  | .capturePlaceholder => "CapturePlaceholder"
  | .functionCapture => "FunctionCapture"
  | .capturedVariable => "CapturedVariable"
  | .variablePattern => "VariablePattern"
  | .wildcardPattern => "WildcardPattern"
  | .pinPattern => "PinPattern"
  | .tuplePattern => "TuplePattern"
  | .listPattern => "ListPattern"
  | .mapPattern => "MapPattern"
  | .structPattern => "StructPattern"
  | .binaryPattern => "BinaryPattern"
  | .asPattern => "AsPattern"
  | .stringPrefixPattern => "StringPrefixPattern"
  | .defaultArgument => "DefaultArgument"
  | .unknownExpression => "UnknownExpression"

def all : List NodeKind := [
  .integerLiteral, .floatLiteral, .stringLiteral, .atomLiteral, .booleanLiteral, .nilLiteral,
  .listLiteral, .keywordList, .tupleLiteral, .mapLiteral, .structLiteral, .rangeLiteral,
  .sigilLiteral, .binaryLiteral, .mapEntry, .binarySegment, .arithmeticOperator,
  .comparisonOperator, .logicalOperator, .pipeOperator, .matchOperator, .listOperator,
  .concatOperator, .membershipOperator, .variable, .moduleAttribute, .alias, .specialForm,
  .localCall, .remoteCall, .anonymousCall, .functionReference, .block, .ifExpression,
  .unlessExpression, .caseExpression, .caseClause, .condExpression, .condClause,
  .withExpression, .comprehension, .generator, .functionDefinition, .functionClause,
  .anonymousFunction, .anonymousFunctionClause, .shorthandClosure, .capturePlaceholder,
  .functionCapture, .capturedVariable, .variablePattern, .wildcardPattern, .pinPattern,
  .tuplePattern, .listPattern, .mapPattern, .structPattern, .binaryPattern, .asPattern,
  .stringPrefixPattern, .defaultArgument, .unknownExpression]

def ofName? (name : String) : Option NodeKind := all.find? fun kind => kind.name == name

def isOperator : NodeKind → Bool
  | .arithmeticOperator | .comparisonOperator | .logicalOperator | .pipeOperator
  | .matchOperator | .listOperator | .concatOperator | .membershipOperator => true
  | _ => false

end NodeKind

/-- A trait that nodes of several kinds share. -/
inductive NodeTag where
  | expression
  | literal
  | composite
  | operator
  | binaryOperator
  | unaryOperator
  | call
  | controlFlow
  | closure
  | pattern
  | binding
  deriving DecidableEq, Repr

namespace NodeTag

instance : Ord NodeTag := ⟨fun a b => compare a.ctorIdx b.ctorIdx⟩

theorem ctorIdx_inj (a b : NodeTag) (h : a.ctorIdx = b.ctorIdx) : a = b := by
  rw [← ofNat_ctorIdx a, ← ofNat_ctorIdx b, h]

instance : Std.TransOrd NodeTag := transOrd_of_key NodeTag.ctorIdx fun _ _ => rfl

instance : Std.LawfulEqOrd NodeTag := lawfulEqOrd_of_key NodeTag.ctorIdx (fun _ _ => rfl) ctorIdx_inj

def name : NodeTag → String
  | .expression => "expression"
  | .literal => "literal"
  | .composite => "composite"
  | .operator => "operator"
  | .binaryOperator => "binary_operator"
  | .unaryOperator => "unary_operator"
  | .call => "call"
  | .controlFlow => "control_flow"
  | .closure => "closure"
  | .pattern => "pattern"
  | .binding => "binding"

def all : List NodeTag := [
  .expression, .literal, .composite, .operator, .binaryOperator, .unaryOperator, .call,
  .controlFlow, .closure, .pattern, .binding]

def ofName? (name : String) : Option NodeTag := all.find? fun tag => tag.name == name

end NodeTag

end SyntaxGraph
