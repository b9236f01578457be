import SyntaxGraph.Source.Basic

/-!
# Literal shapes

What a tree is as a literal: a scalar, a collection, a struct, a range, a sigil or a
binary. Trees of any other form are no literals.
-/

namespace SyntaxGraph

inductive Literal where
  | integer (value : Int64)
  | float (value : Binary64)
  | text (value : String)
  | boolean (value : Bool)
  | nil
  | atom (value : String)
  | list (items : List Source)
  | keywordList (items : List Source)
  | tuple (items : List Source)
  | map (entries : List Source)
  | struct (typeRef : Source) (fields : List Source)
  | range (first last : Source) (step : Option Source)
  | sigil (letter : String) (content modifiers : Source)
  | binary (segments : List Source)

namespace Literal

def name : Literal → String
  | .integer _ => "Integer"
  | .float _ => "Float"
  | .text _ => "Text"
  | .boolean _ => "Boolean"
  | .nil => "Nil"
  | .atom _ => "Atom"
  | .list _ => "List"
  | .keywordList _ => "KeywordList"
  | .tuple _ => "Tuple"
  | .map _ => "Map"
  | .struct _ _ => "Struct"
  | .range _ _ _ => "Range"
  | .sigil _ _ _ => "Sigil"
  | .binary _ => "Binary"

/-- Whether a literal has no parts. -/
def isScalar : Literal → Bool
  | .integer _ | .float _ | .text _ | .boolean _ | .nil | .atom _ => true
  | _ => false

end Literal

namespace Source

def mapTag : String := "%\x7b\x7d"

/-- What follows the mark of a sigil, if it is made of letters. -/
def sigilLetter? (tag : String) : Option String :=
  match tag.toList with
  | 's' :: 'i' :: 'g' :: 'i' :: 'l' :: '_' :: letters =>
    if !letters.isEmpty && letters.all Char.isAlpha then some (String.ofList letters) else none
  | _ => none

def formLiteral? (tag : String) (args : List Source) : Option Literal :=
  if tag = tupleTag then some (.tuple args)
  else if tag = mapTag then some (.map args)
  else if tag = "<<>>" then some (.binary args)
  else
    match args with
    | [first, last] =>
      if tag = "%" then (last.argsOf? mapTag).map (.struct first)
      else if tag = ".." then some (.range first last none)
      else (sigilLetter? tag).map fun letter => .sigil letter first last
    | [first, last, step] => if tag = "..//" then some (.range first last (some step)) else none
    | _ => none

def literal? : Source → Option Literal
  | .integer value => some (.integer value)
  | .float value => some (.float value)
  | .text value => some (.text value)
  | .atom "true" => some (.boolean true)
  | .atom "false" => some (.boolean false)
  | .atom "nil" => some .nil
  | .atom value => some (.atom value)
  | .list items =>
    if (Source.list items).isKeywordList then some (.keywordList items) else some (.list items)
  | .tuple items => some (.tuple items)
  | .form tag _ args => formLiteral? tag args
  | .symbol _ _ | .call _ _ _ => none

/-- The elements of a list and its tail, if the last item is a `head | tail` form. -/
def splitTail (items : List Source) : List Source × Option Source :=
  match items.getLast? with
  | some (.form "|" _ [head, tail]) => (items.dropLast ++ [head], some tail)
  | _ => (items, none)

/-- The key and value of an entry of a map or struct: any pair, or a `=>` form. -/
def mapEntry? (entry : Source) : Option (Source × Source) :=
  match entry.tuple? <|> entry.argsOf? "=>" with
  | some [key, value] => some (key, value)
  | _ => none

end Source

end SyntaxGraph
