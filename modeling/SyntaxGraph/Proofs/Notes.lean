import SyntaxGraph.Proofs.Likeness
import SyntaxGraph.Proofs.Segments
import SyntaxGraph.Proofs.Shapes

/-!
# Trees without notes

What the parser noted about a form, its line and column, is no part of its shape. Every
function that looks at a tree finds the same in the tree without notes, and parts without
notes where it finds parts. So a tree and the tree without notes are of alike shapes all
the way down.
-/

namespace SyntaxGraph

/-! ## Trees without notes -/

namespace Source

mutual

/-- The tree with nothing noted anywhere in it. -/
def eraseNotes : Source → Source
  | .integer value => .integer value
  | .float value => .float value
  | .text value => .text value
  | .atom value => .atom value
  | .list items => .list (eraseNotesAll items)
  | .tuple items => .tuple (eraseNotesAll items)
  | .symbol name _ => .symbol name .empty
  | .form tag _ args => .form tag .empty (eraseNotesAll args)
  | .call target _ args => .call target.eraseNotes .empty (eraseNotesAll args)

def eraseNotesAll : List Source → List Source
  | [] => []
  | s :: rest => s.eraseNotes :: eraseNotesAll rest

end

theorem eraseNotesAll_eq (items : List Source) : eraseNotesAll items = items.map eraseNotes := by
  induction items with
  | nil => rfl
  | cons s rest ih => rw [eraseNotesAll, ih, List.map_cons]

attribute [simp] eraseNotesAll_eq eraseNotes

variable (s : Source)

@[simp] theorem position_eraseNotes : s.eraseNotes.position = none := by
  cases s <;> rfl

@[simp] theorem tag?_eraseNotes : s.eraseNotes.tag? = s.tag? := by
  cases s <;> rfl

@[simp] theorem symbol?_eraseNotes : s.eraseNotes.symbol? = s.symbol? := by
  cases s <;> rfl

@[simp] theorem atom?_eraseNotes : s.eraseNotes.atom? = s.atom? := by
  cases s <;> rfl

@[simp] theorem list?_eraseNotes : s.eraseNotes.list? = s.list?.map (List.map eraseNotes) := by
  cases s <;> simp [list?]

@[simp] theorem argsOf?_eraseNotes (tag : String) :
    s.eraseNotes.argsOf? tag = (s.argsOf? tag).map (List.map eraseNotes) := by
  cases s with
  | form other note args => by_cases same : other = tag <;> simp [argsOf?, same]
  | _ => rfl

@[simp] theorem tuple?_eraseNotes : s.eraseNotes.tuple? = s.tuple?.map (List.map eraseNotes) := by
  cases s with
  | form tag note args => exact argsOf?_eraseNotes (.form tag note args) tupleTag
  | _ => simp [tuple?, argsOf?]

theorem keywordPair?_eraseNotes :
    s.eraseNotes.keywordPair? = s.keywordPair?.map fun pair => (pair.1, pair.2.eraseNotes) := by
  simp only [keywordPair?, tuple?_eraseNotes]
  rcases s.tuple? with _ | _ | ⟨key, _ | ⟨value, _ | ⟨third, rest⟩⟩⟩ <;> try rfl
  · cases key <;> rfl
  · cases key <;> rfl
  · cases key <;> rfl

theorem isKeywordList_eraseNotes : s.eraseNotes.isKeywordList = s.isKeywordList := by
  simp only [isKeywordList, list?_eraseNotes]
  cases s.list? with
  | none => rfl
  | some items => simp [Function.comp_def, keywordPair?_eraseNotes]

theorem keyword?_eraseNotes (key : String) :
    s.eraseNotes.keyword? key = (s.keyword? key).map eraseNotes := by
  simp only [keyword?, list?_eraseNotes]
  cases s.list? with
  | none => rfl
  | some items =>
      have pairs : (items.map eraseNotes).filterMap keywordPair? =
          (items.filterMap keywordPair?).map fun pair => (pair.1, pair.2.eraseNotes) := by
        simp [List.filterMap_map, List.map_filterMap, keywordPair?_eraseNotes]
      simp [pairs, List.find?_map, Function.comp_def]

theorem hasBody_eraseNotes : s.eraseNotes.hasBody = s.hasBody := by
  simp [hasBody, keyword?_eraseNotes]

theorem splitBody?_eraseNotes (parts : List Source) :
    splitBody? (parts.map eraseNotes) = (splitBody? parts).map fun found =>
      (found.1.map eraseNotes, found.2.eraseNotes) := by
  simp only [splitBody?, List.getLast?_map]
  cases parts.getLast? with
  | none => rfl
  | some options =>
      by_cases body : options.hasBody = true <;> simp [hasBody_eraseNotes, body, List.map_dropLast]

end Source

def Literal.eraseNotes : Literal → Literal
  | .list items => .list (items.map Source.eraseNotes)
  | .keywordList items => .keywordList (items.map Source.eraseNotes)
  | .tuple items => .tuple (items.map Source.eraseNotes)
  | .map entries => .map (entries.map Source.eraseNotes)
  | .struct typeRef fields => .struct typeRef.eraseNotes (fields.map Source.eraseNotes)
  | .range first last step => .range first.eraseNotes last.eraseNotes (step.map Source.eraseNotes)
  | .sigil letter content modifiers => .sigil letter content.eraseNotes modifiers.eraseNotes
  | .binary segments => .binary (segments.map Source.eraseNotes)
  | scalar => scalar

theorem Literal.eraseNotes_of_isScalar (shape : Literal) (scalar : shape.isScalar = true) :
    shape.eraseNotes = shape := by
  cases shape <;> first | rfl | cases scalar

def Expression.eraseNotes : Expression → Expression
  | .literal shape => .literal shape.eraseNotes
  | .symbol name => .symbol name
  | .reserved name => .reserved name
  | .moduleAttribute name => .moduleAttribute name
  | .moduleName segments => .moduleName (segments.map Source.eraseNotes)
  | .unary category sign operand => .unary category sign operand.eraseNotes
  | .binary category sign left right => .binary category sign left.eraseNotes right.eraseNotes
  | .block statements => .block (statements.map Source.eraseNotes)
  | .conditional negated condition branches =>
    .conditional negated condition.eraseNotes branches.eraseNotes
  | .case subject branches => .case subject.eraseNotes branches.eraseNotes
  | .cond branches => .cond branches.eraseNotes
  | .withChain clauses options => .withChain (clauses.map Source.eraseNotes) options.eraseNotes
  | .comprehension qualifiers options =>
    .comprehension (qualifiers.map Source.eraseNotes) options.eraseNotes
  | .closure clauses => .closure (clauses.map Source.eraseNotes)
  | .capture body => .capture body.eraseNotes
  | .placeholder index => .placeholder index
  | .localCall name args => .localCall name (args.map Source.eraseNotes)
  | .remoteCall receiver name args =>
    .remoteCall receiver.eraseNotes name (args.map Source.eraseNotes)
  | .anonymousCall function args => .anonymousCall function.eraseNotes (args.map Source.eraseNotes)
  | .unknown tag => .unknown tag

def Pattern.eraseNotes : Pattern → Pattern
  | .literal shape => .literal shape.eraseNotes
  | .signed number => .signed number.eraseNotes
  | .value => .value
  | .symbol name => .symbol name
  | .wildcard => .wildcard
  | .pin pinned => .pin pinned.eraseNotes
  | .tuple items => .tuple (items.map Source.eraseNotes)
  | .list elements tail => .list (elements.map Source.eraseNotes) (tail.map Source.eraseNotes)
  | .map entries => .map (entries.map Source.eraseNotes)
  | .struct typeRef fields => .struct typeRef.eraseNotes (fields.map Source.eraseNotes)
  | .binary segments => .binary (segments.map Source.eraseNotes)
  | .both left right => .both left.eraseNotes right.eraseNotes
  | .textHead head rest => .textHead head.eraseNotes rest.eraseNotes
  | .fallback inner default => .fallback inner.eraseNotes default.eraseNotes
  | .unknown tag => .unknown tag

namespace Source

theorem formLiteral?_eraseNotes (tag : String) (args : List Source) :
    formLiteral? tag (args.map eraseNotes) = (formLiteral? tag args).map Literal.eraseNotes := by
  unfold formLiteral?
  by_cases isTuple : tag = tupleTag
  · simp [isTuple, Literal.eraseNotes]
  by_cases isMap : tag = mapTag
  · simp [isMap, Literal.eraseNotes, tupleTag, mapTag]
  by_cases isBinary : tag = "<<>>"
  · simp [isBinary, Literal.eraseNotes, tupleTag, mapTag]
  simp only [isTuple, isMap, isBinary, if_false]
  rcases args with _ | ⟨first, _ | ⟨last, _ | ⟨step, _ | ⟨fourth, rest⟩⟩⟩⟩
  · rfl
  · rfl
  · simp only [List.map_cons, List.map_nil, argsOf?_eraseNotes]
    split_ifs
    · cases last.argsOf? mapTag <;> rfl
    · rfl
    · cases sigilLetter? tag <;> rfl
  · simp only [List.map_cons, List.map_nil]
    split_ifs <;> rfl
  · rfl

theorem literal?_eraseNotes (s : Source) :
    s.eraseNotes.literal? = s.literal?.map Literal.eraseNotes := by
  cases s with
  | atom value =>
      obtain ⟨shape, found, scalar⟩ := literal?_of_isScalar (rfl : (Source.atom value).isScalar = true)
      rw [eraseNotes, found, Option.map_some, shape.eraseNotes_of_isScalar scalar]
  | list items =>
      have keywords := isKeywordList_eraseNotes (.list items)
      simp only [eraseNotes, eraseNotesAll_eq] at keywords
      simp only [eraseNotes, eraseNotesAll_eq, literal?, keywords]
      split <;> rfl
  | form tag note args => simpa [literal?] using formLiteral?_eraseNotes tag args
  | _ => simp [literal?, Literal.eraseNotes]

theorem operatorOrCall_eraseNotes (tag : String) (args : List Source) :
    operatorOrCall tag (args.map eraseNotes) = (operatorOrCall tag args).eraseNotes := by
  have other : (if tag ∈ inertTags then Expression.unknown tag
      else if isCallName tag then .localCall tag (args.map eraseNotes) else .unknown tag) =
      (if tag ∈ inertTags then Expression.unknown tag
        else if isCallName tag then .localCall tag args else .unknown tag).eraseNotes := by
    split_ifs <;> rfl
  unfold operatorOrCall
  rcases args with _ | ⟨first, _ | ⟨second, _ | ⟨third, rest⟩⟩⟩
  · exact other
  · dsimp only [List.map_cons, List.map_nil]
    cases Operator.unary? tag with
    | none => exact other
    | some category => rfl
  · dsimp only [List.map_cons, List.map_nil]
    cases Operator.binary? tag with
    | none => exact other
    | some category => rfl
  · exact other

/-- A form that needs a body is a call without one. -/
theorem ite_hasBody_eraseNotes {tag : String} {args : List Source} {e : Expression}
    (options : Source) :
    (if options.eraseNotes.hasBody then e.eraseNotes
      else operatorOrCall tag (args.map eraseNotes)) =
      (if options.hasBody then e else operatorOrCall tag args).eraseNotes := by
  rw [hasBody_eraseNotes, operatorOrCall_eraseNotes]
  split_ifs <;> rfl

theorem match_splitBody?_eraseNotes {tag : String} (shape : List Source → Source → Expression)
    (goes : ∀ parts options, shape (parts.map eraseNotes) options.eraseNotes =
      (shape parts options).eraseNotes) (args : List Source) :
    (match splitBody? (args.map eraseNotes) with
      | some (parts, options) => shape parts options
      | none => operatorOrCall tag (args.map eraseNotes)) =
    (match splitBody? args with
      | some (parts, options) => shape parts options
      | none => operatorOrCall tag args).eraseNotes := by
  rw [splitBody?_eraseNotes, operatorOrCall_eraseNotes]
  cases splitBody? args with
  | none => rfl
  | some found => exact goes found.1 found.2

theorem formExpression_eraseNotes (tag : String) (args : List Source) :
    formExpression tag (args.map eraseNotes) = (formExpression tag args).eraseNotes := by
  by_cases known : tag ∈ formTags
  · simp only [formTags, List.mem_cons, List.not_mem_nil, or_false] at known
    have call := operatorOrCall_eraseNotes tag args
    rcases known with rfl | rfl | rfl | rfl | rfl | rfl | rfl | rfl | rfl | rfl | rfl
    · rfl
    · rfl
    · rcases args with _ | ⟨named, _ | ⟨other, rest⟩⟩
      · exact call
      · simp only [List.map_cons, List.map_nil, formExpression, tag?_eraseNotes]
        cases named.tag? <;> rfl
      · exact call
    · rcases args with _ | ⟨body, _ | ⟨other, rest⟩⟩
      · exact call
      · cases body <;> rfl
      · cases body <;> exact call
    · rfl
    · rcases args with _ | ⟨condition, _ | ⟨branches, _ | ⟨other, rest⟩⟩⟩
      · exact call
      · exact call
      · exact ite_hasBody_eraseNotes (e := .conditional false condition branches) branches
      · exact call
    · rcases args with _ | ⟨condition, _ | ⟨branches, _ | ⟨other, rest⟩⟩⟩
      · exact call
      · exact call
      · exact ite_hasBody_eraseNotes (e := .conditional true condition branches) branches
      · exact call
    · rcases args with _ | ⟨subject, _ | ⟨branches, _ | ⟨other, rest⟩⟩⟩
      · exact call
      · exact call
      · exact ite_hasBody_eraseNotes (e := .case subject branches) branches
      · exact call
    · rcases args with _ | ⟨branches, _ | ⟨other, rest⟩⟩
      · exact call
      · exact ite_hasBody_eraseNotes (e := .cond branches) branches
      · exact call
    · exact match_splitBody?_eraseNotes .withChain (fun _ _ => rfl) args
    · exact match_splitBody?_eraseNotes .comprehension (fun _ _ => rfl) args
  · rw [formExpression_eq known, formExpression_eq known, operatorOrCall_eraseNotes]

theorem expression_eraseNotes (s : Source) : s.eraseNotes.expression = s.expression.eraseNotes := by
  unfold expression
  rw [literal?_eraseNotes]
  cases s.literal? with
  | some shape => rfl
  | none =>
      cases s with
      | symbol name note =>
          simp only [eraseNotes, Option.map_none]
          split_ifs <;> rfl
      | form tag note args => simpa using formExpression_eraseNotes tag args
      | call target note args =>
          simp only [eraseNotes, eraseNotesAll_eq, Option.map_none, argsOf?_eraseNotes, tag?_eraseNotes]
          rcases target.argsOf? "." with _ | _ | ⟨receiver, _ | ⟨name, _ | ⟨third, rest⟩⟩⟩
          · rfl
          · rfl
          · rfl
          · cases name <;> rfl
          · cases name <;> rfl
      | _ => rfl

theorem splitTail_eraseNotes (items : List Source) :
    splitTail (items.map eraseNotes) =
      ((splitTail items).1.map eraseNotes, (splitTail items).2.map eraseNotes) := by
  unfold splitTail
  rw [List.getLast?_map]
  cases items.getLast? with
  | none => rfl
  | some last =>
      cases last with
      | form tag note args =>
          by_cases bar : tag = "|"
          · subst bar
            rcases args with _ | ⟨head, _ | ⟨tail, _ | ⟨third, rest⟩⟩⟩
            · rfl
            · rfl
            · simp [List.map_dropLast]
            · rfl
          · simp [bar]
      | _ => rfl

theorem literalPattern_eraseNotes (tag : String) (s : Source) :
    literalPattern tag s.eraseNotes = (literalPattern tag s).eraseNotes := by
  unfold literalPattern
  rw [literal?_eraseNotes]
  cases s.literal? <;> rfl

theorem binaryPattern_eraseNotes (s : Source) (tag : String) (left right : Source) :
    binaryPattern s.eraseNotes tag left.eraseNotes right.eraseNotes =
      (binaryPattern s tag left right).eraseNotes := by
  unfold binaryPattern
  split
  · rw [argsOf?_eraseNotes]
    cases right.argsOf? mapTag <;> rfl
  · rfl
  · rfl
  · rfl
  · exact literalPattern_eraseNotes tag s

theorem formPattern_eraseNotes (s : Source) (tag : String) (args : List Source) :
    formPattern s.eraseNotes tag (args.map eraseNotes) = (formPattern s tag args).eraseNotes := by
  unfold formPattern
  by_cases isTuple : tag = tupleTag
  · simp [isTuple, Pattern.eraseNotes]
  by_cases isMap : tag = mapTag
  · simp [isMap, Pattern.eraseNotes, tupleTag, mapTag]
  by_cases isBinary : tag = "<<>>"
  · simp [isBinary, Pattern.eraseNotes, tupleTag, mapTag]
  by_cases isValue : (tag = "__aliases__" || tag = "@") = true
  · simp only [isTuple, isMap, isBinary, isValue, if_true, if_false]
    rfl
  simp only [isTuple, isMap, isBinary, isValue, if_false]
  rcases args with _ | ⟨left, _ | ⟨right, _ | ⟨third, rest⟩⟩⟩
  · exact literalPattern_eraseNotes tag s
  · have number : left.eraseNotes.isNumber = left.isNumber := by cases left <;> rfl
    simp only [List.map_cons, List.map_nil, number, literalPattern_eraseNotes]
    split_ifs <;> rfl
  · exact binaryPattern_eraseNotes s tag left right
  · exact literalPattern_eraseNotes tag s

theorem pattern_eraseNotes (s : Source) : s.eraseNotes.pattern = s.pattern.eraseNotes := by
  cases s with
  | symbol name note =>
      simp only [eraseNotes, pattern]
      split_ifs <;> rfl
  | list items =>
      simp only [eraseNotes, eraseNotesAll_eq, pattern, splitTail_eraseNotes]
      rfl
  | form tag note args =>
      have goes := formPattern_eraseNotes (.form tag note args) tag args
      simp only [eraseNotes, eraseNotesAll_eq] at goes
      simpa [pattern] using goes
  | tuple items => simp [pattern, Pattern.eraseNotes]
  | call target note args => rfl
  | integer value => exact literalPattern_eraseNotes "literal" (.integer value)
  | float value => exact literalPattern_eraseNotes "literal" (.float value)
  | text value => exact literalPattern_eraseNotes "literal" (.text value)
  | atom value => exact literalPattern_eraseNotes "literal" (.atom value)

end Source


/-! ## What builders look at -/

theorem Source.mapEntry?_eraseNotes (s : Source) : s.eraseNotes.mapEntry? =
    s.mapEntry?.map fun parts => (parts.1.eraseNotes, parts.2.eraseNotes) := by
  unfold mapEntry?
  have either : (s.eraseNotes.tuple? <|> s.eraseNotes.argsOf? "=>") =
      (s.tuple? <|> s.argsOf? "=>").map (List.map eraseNotes) := by
    rw [tuple?_eraseNotes, argsOf?_eraseNotes]
    cases s.tuple? <;> rfl
  rw [either]
  rcases (s.tuple? <|> s.argsOf? "=>") with _ | _ | ⟨key, _ | ⟨value, _ | ⟨third, rest⟩⟩⟩ <;> rfl

theorem Segment.split_eraseNotes (s : Source) : Segment.split s.eraseNotes =
    ((Segment.split s).1.eraseNotes, (Segment.split s).2.map Source.eraseNotes) := by
  cases s with
  | form tag note args =>
      by_cases spec : tag = "::"
      · subst spec
        rcases args with _ | ⟨value, _ | ⟨spec, _ | ⟨third, rest⟩⟩⟩ <;> simp [split]
      · simp [split, spec]
  | _ => rfl

theorem Segment.readWord_eraseNotes (r : Reading) (word : Source) :
    readWord r word.eraseNotes = readWord r word := by
  cases word with
  | form tag note args =>
      by_cases size : tag = "size"
      · subst size
        rcases args with _ | ⟨value, _ | ⟨second, rest⟩⟩
        · rfl
        · cases value <;> rfl
        · cases value <;> rfl
      by_cases unit : tag = "unit"
      · subst unit
        rcases args with _ | ⟨value, _ | ⟨second, rest⟩⟩
        · rfl
        · cases value <;> rfl
        · cases value <;> rfl
      by_cases times : tag = "*"
      · subst times
        rcases args with _ | ⟨size, _ | ⟨unit, _ | ⟨third, rest⟩⟩⟩
        · rfl
        · cases size <;> rfl
        · cases size with
          | integer => cases unit <;> rfl
          | _ => rfl
        · cases size with
          | integer => cases unit <;> rfl
          | _ => rfl
      cases args <;> simp [readWord, size, unit, times]
  | _ => rfl

theorem Segment.readPending_eraseNotes (site : Address) (pending : List (Source × Nat)) (r : Reading) :
    readPending site (pending.map fun entry => (entry.1.eraseNotes, entry.2)) r =
      readPending site pending r := by
  fun_induction readPending site pending r with
  | case1 r => simp [readPending]
  | case2 spec rest r => simp [readPending]
  | case3 r note left right room rest ih => simpa [readPending] using ih
  | case4 r word room rest other ih =>
      have kept : ∀ note left right, word.eraseNotes = .form "-" note [left, right] → False := by
        intro note left right same
        cases word with
        | form tag note args =>
            rcases args with _ | ⟨first, _ | ⟨second, _ | ⟨third, rest⟩⟩⟩ <;> simp at same
            exact other note first second (by rw [same.1])
        | _ => simp at same
      rw [List.map_cons, readPending.eq_4 _ _ _ _ _ kept, readWord_eraseNotes]
      exact ih

namespace Build

theorem mapUpdate?_eraseNotes (items : List Source) :
    mapUpdate? (items.map Source.eraseNotes) = (mapUpdate? items).map fun parts =>
      (parts.1.eraseNotes, parts.2.map Source.eraseNotes) := by
  have updates (s : Source) : s.eraseNotes.list?.getD [s.eraseNotes] =
      (s.list?.getD [s]).map Source.eraseNotes := by
    rw [Source.list?_eraseNotes]
    cases s.list? <;> rfl
  rcases items with _ | ⟨first, _ | ⟨second, rest⟩⟩
  · rfl
  · cases first with
    | form tag note args =>
        by_cases bar : tag = "|"
        · subst bar
          rcases args with _ | ⟨base, _ | ⟨items, _ | ⟨third, rest⟩⟩⟩
          · rfl
          · rfl
          · simp only [List.map_cons, List.map_nil, Source.eraseNotes, Source.eraseNotesAll_eq, mapUpdate?,
              updates, Option.map_some]
          · rfl
        · simp [mapUpdate?, bar]
    | _ => rfl
  · simp [mapUpdate?]

theorem moduleText?_eraseNotes (segments : List Source) :
    moduleText? (segments.map Source.eraseNotes) = moduleText? segments := by
  have segment (s : Source) : moduleSegment? s.eraseNotes = moduleSegment? s := by
    cases s <;> rfl
  unfold moduleText?
  rw [List.mapM_map, List.isEmpty_map]
  simp only [Function.comp_def, segment]

theorem typeName?_eraseNotes (s : Source) : typeName? s.eraseNotes = typeName? s := by
  unfold typeName?
  rw [Source.argsOf?_eraseNotes]
  cases s.argsOf? "__aliases__" with
  | none => rfl
  | some segments => exact moduleText?_eraseNotes segments

theorem receiverModule?_eraseNotes (s : Source) : receiverModule? s.eraseNotes = receiverModule? s := by
  cases s with
  | form tag note args =>
      by_cases named : tag = "__aliases__"
      · subst named
        simpa [receiverModule?] using moduleText?_eraseNotes args
      · simp [receiverModule?, named]
  | _ => rfl

theorem modifierText_eraseNotes (s : Source) : modifierText s.eraseNotes = modifierText s := by
  cases s with
  | list items =>
      simp only [Source.eraseNotes, Source.eraseNotesAll_eq, modifierText, List.filterMap_map]
      congr 1
      apply List.filterMap_congr
      intro item _
      cases item <;> rfl
  | _ => rfl

theorem plainText?_eraseNotes (s : Source) : plainText? s.eraseNotes = plainText? s := by
  cases s <;> rfl

theorem plainContent?_eraseNotes (s : Source) : plainContent? s.eraseNotes = plainContent? s := by
  cases s with
  | form tag note args =>
      by_cases binary : tag = "<<>>"
      · subst binary
        simp only [Source.eraseNotes, Source.eraseNotesAll_eq, plainContent?, List.mapM_map,
          Function.comp_def, plainText?_eraseNotes]
      · simp [plainContent?, binary]
  | _ => rfl

theorem signedNumber?_eraseNotes (s : Source) : signedNumber? s.eraseNotes = signedNumber? s := by
  cases s <;> rfl

theorem asSides_eraseNotes (left right : Source) : asSides left.eraseNotes right.eraseNotes =
    ((asSides left right).1.eraseNotes, (asSides left right).2.eraseNotes) := by
  cases right <;> rfl

end Build

theorem clauseItems_eraseNotes (items : Option Source) :
    clauseItems (items.map Source.eraseNotes) = (clauseItems items).map Source.eraseNotes := by
  rcases items with _ | s
  · rfl
  · cases s <;> simp [clauseItems]

def Clause.eraseNotes (c : Clause) : Clause :=
  ⟨c.params.map Source.eraseNotes, c.guard.map Source.eraseNotes, c.body.map Source.eraseNotes, none⟩

theorem Clause.splitGuard_eraseNotes (params : List Source) :
    splitGuard (params.map Source.eraseNotes) =
      ((splitGuard params).1.map Source.eraseNotes, (splitGuard params).2.map Source.eraseNotes) := by
  rcases params with _ | ⟨first, _ | ⟨second, rest⟩⟩
  · rfl
  · cases first with
    | form tag note args =>
        by_cases guarded : tag = "when"
        · subst guarded
          simp only [List.map_cons, List.map_nil, Source.eraseNotes, Source.eraseNotesAll_eq,
            splitGuard, List.getLast?_map]
          cases args.getLast? <;> simp [List.map_dropLast]
        · simp [splitGuard, guarded]
    | _ => rfl
  · simp [splitGuard]

theorem Clause.ofSource?_eraseNotes (s : Source) :
    ofSource? s.eraseNotes = (ofSource? s).map Clause.eraseNotes := by
  cases s with
  | form tag note args =>
      by_cases arrow : tag = "->"
      · subst arrow
        rcases args with _ | ⟨params, _ | ⟨body, _ | ⟨third, rest⟩⟩⟩
        · rfl
        · cases params <;> rfl
        · cases params with
          | list params =>
              simp only [Source.eraseNotes, Source.eraseNotesAll_eq, List.map_cons, List.map_nil,
                ofSource?, splitGuard_eraseNotes]
              rfl
          | _ => rfl
        · cases params <;> rfl
      · simp [ofSource?, arrow]
  | _ => rfl

def DefinitionClause.eraseNotes (d : DefinitionClause) : DefinitionClause :=
  ⟨d.isPrivate, d.name, d.clause.eraseNotes⟩

theorem DefinitionClause.ofSource_eraseNotes (s : Source) :
    ofSource s.eraseNotes = (ofSource s).map DefinitionClause.eraseNotes := by
  have arguments : arguments? s.eraseNotes =
      (arguments? s).map fun found => (found.1, found.2.map Source.eraseNotes) := by
    cases s with
    | form tag note args =>
        by_cases isDef : tag = "def"
        · subst isDef
          simp [arguments?]
        by_cases isDefp : tag = "defp"
        · subst isDefp
          simp [arguments?]
        · simp [arguments?, isDef, isDefp]
    | _ => rfl
  have split (head : Source) : splitHead head.eraseNotes =
      ((splitHead head).1.eraseNotes, (splitHead head).2.map Source.eraseNotes) := by
    cases head with
    | form tag note args =>
        by_cases guarded : tag = "when"
        · subst guarded
          rcases args with _ | ⟨call, _ | ⟨guard, _ | ⟨third, rest⟩⟩⟩ <;> simp [splitHead]
        · simp [splitHead, guarded]
    | _ => rfl
  have named (call : Source) : head? call.eraseNotes =
      (head? call).map fun found => (found.1, found.2.map Source.eraseNotes) := by
    cases call <;> simp [head?]
  unfold ofSource
  rw [arguments, Source.position_eraseNotes]
  rcases arguments? s with _ | ⟨isPrivate, _ | ⟨head, _ | ⟨options, _ | ⟨third, rest⟩⟩⟩⟩
  · rfl
  · rfl
  · simp only [Option.map_some, List.map_cons, List.map_nil, pure_bind, split, named]
    cases head? (splitHead head).1 <;> rfl
  · simp only [Option.map_some, List.map_cons, List.map_nil, pure_bind, split, named, Option.bind_some,
      Source.keyword?_eraseNotes]
    cases head? (splitHead head).1 <;> rfl
  · rfl

def Generator.eraseNotes (g : Generator) : Generator :=
  ⟨g.pattern.eraseNotes, g.guard.map Source.eraseNotes, g.value.eraseNotes, g.isBinary⟩

theorem Generator.withGuard_eraseNotes (value : Source) (isBinary : Bool) (pattern : Source) :
    withGuard value.eraseNotes isBinary pattern.eraseNotes =
      (withGuard value isBinary pattern).eraseNotes := by
  cases pattern with
  | form tag note args =>
      by_cases guarded : tag = "when"
      · subst guarded
        rcases args with _ | ⟨pattern, _ | ⟨guard, _ | ⟨third, rest⟩⟩⟩ <;>
          simp [withGuard, Generator.eraseNotes]
      · simp [withGuard, guarded, Generator.eraseNotes]
  | _ => rfl

theorem Generator.ofSource?_eraseNotes (s : Source) :
    ofSource? s.eraseNotes = (ofSource? s).map Generator.eraseNotes := by
  cases s with
  | form tag note args =>
      by_cases arrow : tag = "<-"
      · subst arrow
        rcases args with _ | ⟨pattern, _ | ⟨value, _ | ⟨third, rest⟩⟩⟩
        · rfl
        · rfl
        · exact congrArg some (withGuard_eraseNotes value false pattern)
        · rfl
      by_cases binary : tag = "<<>>"
      · subst binary
        rcases args with _ | ⟨segment, _ | ⟨second, rest⟩⟩
        · rfl
        · cases segment with
          | form tag note args =>
              by_cases arrow : tag = "<-"
              · subst arrow
                rcases args with _ | ⟨segment, _ | ⟨value, _ | ⟨third, rest⟩⟩⟩
                · rfl
                · rfl
                · exact congrArg some
                    (withGuard_eraseNotes value true (.form "<<>>" .empty [segment]))
                · rfl
              · simp [ofSource?, arrow]
          | _ => rfl
        · simp [ofSource?]
      · simp [ofSource?, arrow, binary]
  | _ => rfl

theorem Generator.isArrow_eraseNotes (s : Source) : isArrow s.eraseNotes = isArrow s := by
  cases s with
  | form tag note args => by_cases arrow : tag = "<-" <;> simp [isArrow, arrow]
  | _ => rfl

theorem Generator.isQualifier_eraseNotes (s : Source) : isQualifier s.eraseNotes = isQualifier s := by
  cases s with
  | form tag note args =>
      by_cases arrow : tag = "<-"
      · simp [isQualifier, arrow]
      by_cases binary : tag = "<<>>"
      · subst binary
        rcases args with _ | ⟨segment, _ | ⟨second, rest⟩⟩
        · rfl
        · cases segment with
          | form tag note args => by_cases arrow : tag = "<-" <;> simp [isQualifier, arrow]
          | _ => rfl
        · simp [isQualifier]
      · simp [isQualifier, arrow, binary]
  | _ => rfl

def CapturedFunction.eraseNotes (f : CapturedFunction) : CapturedFunction :=
  { f with receiver := f.receiver.map Source.eraseNotes }

theorem namedFunction?_eraseNotes (s : Source) : namedFunction? s.eraseNotes =
    (namedFunction? s).map fun found => (found.1.map Source.eraseNotes, found.2) := by
  cases s with
  | form tag note args => cases args <;> rfl
  | call target note args =>
      cases target with
      | form tag inner parts =>
          by_cases dot : tag = "."
          · subst dot
            rcases parts with _ | ⟨receiver, _ | ⟨name, _ | ⟨third, rest⟩⟩⟩
            · rfl
            · rfl
            · cases name with
              | atom name => cases args <;> rfl
              | _ => rfl
            · cases name <;> rfl
          · simp [namedFunction?, dot]
      | _ => rfl
  | _ => rfl

theorem capturedFunction?_eraseNotes (s : Source) :
    capturedFunction? s.eraseNotes = (capturedFunction? s).map CapturedFunction.eraseNotes := by
  cases s with
  | form tag note args =>
      by_cases slash : tag = "/"
      · subst slash
        rcases args with _ | ⟨target, _ | ⟨arity, _ | ⟨third, rest⟩⟩⟩
        · rfl
        · rfl
        · cases arity with
          | integer arity =>
              simp only [Source.eraseNotes, Source.eraseNotesAll_eq, List.map_cons, List.map_nil,
                capturedFunction?, namedFunction?_eraseNotes]
              split_ifs
              · cases namedFunction? target <;> rfl
              · rfl
          | _ => rfl
        · cases arity <;> rfl
      · simp [capturedFunction?, slash]
  | _ => rfl

/-! ## Shapes are alike without notes -/

section Lists

variable {α : Type}

theorem Each.map_right {alike : Address → α → α → Prop} {site : Address} {role : Role} {f : α → α}
    (goes : ∀ address x, alike address x (f x)) (index : Nat) (xs : List α) :
    Each alike site role index xs (xs.map f) := by
  induction xs generalizing index with
  | nil => exact .nil
  | cons x xs ih => exact .cons (goes _ x) (ih _)

theorem Likeness.option_map {r : α → α → Prop} {f : α → α} (goes : ∀ x, r x (f x)) (x : Option α) :
    Option.Rel r x (x.map f) := by
  cases x with
  | none => exact .none
  | some x => exact .some (goes x)

end Lists

namespace Likeness

open Build

/-- The likeness of a tree and the tree without notes. -/
def erased : Likeness :=
  ⟨fun _ s s' => s.eraseNotes = s', fun _ s s' => s.eraseNotes = s', fun _ p => none = p, fun _ => False⟩

namespace Erased

variable {alike : Address → Source → Source → Prop}

theorem entry (goes : ∀ site s, alike site s s.eraseNotes) (site : Address) (s : Source) :
    erased.Entry alike site s s.eraseNotes := by
  refine ⟨s.position_eraseNotes.symm, fun _ => s.tag?_eraseNotes.symm, ?_⟩
  rw [s.mapEntry?_eraseNotes]
  exact option_map (fun _ => ⟨goes _ _, goes _ _⟩) _

theorem entries (goes : ∀ site s, alike site s s.eraseNotes) (site : Address) (items : List Source) :
    Each (erased.Entry alike) site .entry 0 items (items.map Source.eraseNotes) :=
  .map_right (entry goes) 0 items

theorem segment (goes : ∀ site s, alike site s s.eraseNotes) (site : Address) (s : Source) :
    erased.Segment alike site s s.eraseNotes := by
  refine ⟨s.position_eraseNotes.symm, ?_, ?_⟩
  · rw [Segment.split_eraseNotes]
    exact goes _ _
  · rw [Segment.split_eraseNotes]
    refine option_map (fun spec address room reading => ?_) _
    exact (Segment.readPending_eraseNotes address [(spec, room)] reading).symm

theorem expressions (site : Address) (role : Role) (items : List Source) :
    Each erased.expression site role 0 items (items.map Source.eraseNotes) :=
  .map_right (fun _ _ => rfl) 0 items

theorem patterns (site : Address) (role : Role) (items : List Source) :
    Each erased.pattern site role 0 items (items.map Source.eraseNotes) :=
  .map_right (fun _ _ => rfl) 0 items

theorem optional (site : Address) (role : Role) (s : Option Source) :
    Optional erased.expression site role s (s.map Source.eraseNotes) := option_map (fun _ => rfl) s

theorem mapBody (site : Address) (items : List Source) :
    erased.MapBody site items (items.map Source.eraseNotes) := by
  refine ⟨?_, fun _ => entries (fun _ _ => rfl) _ _⟩
  rw [mapUpdate?_eraseNotes]
  exact option_map (fun _ => ⟨rfl, entries (fun _ _ => rfl) _ _⟩) _

theorem receiver (site : Address) (s : Source) : erased.Receiver site s s.eraseNotes :=
  ⟨(receiverModule?_eraseNotes s).symm, fun _ => rfl⟩

theorem clause (role : Role) (site : Address) (c : SyntaxGraph.Clause) :
    erased.Clause role site c c.eraseNotes := by
  refine ⟨?_, optional _ _ _, optional _ _ _, rfl⟩
  unfold Parameters
  split
  · exact patterns _ _ _
  · exact List.forall₂_map_right_iff.mpr (List.forall₂_same.mpr fun _ _ => rfl)

theorem condClause (site : Address) (c : SyntaxGraph.Clause) :
    erased.CondClause site c c.eraseNotes := by
  refine ⟨(List.length_map _).symm, ?_, optional _ _ _, rfl⟩
  rw [show c.eraseNotes.params.head? = c.params.head?.map Source.eraseNotes from List.head?_map]
  exact optional _ _ _

theorem branches {alike : Address → SyntaxGraph.Clause → SyntaxGraph.Clause → Prop}
    (goes : ∀ site c, alike site c c.eraseNotes) (site : Address) (role : Role) (items : List Source) :
    erased.Branches alike site role items (items.map Source.eraseNotes) := by
  refine .map_right (fun address s => .inr ?_) 0 items
  rw [Clause.ofSource?_eraseNotes]
  exact option_map (goes address) _

theorem branch (site : Address) (role : Role) (s : Option Source) :
    erased.Branch site role s (s.map Source.eraseNotes) := option_map (fun _ => .inr rfl) s

theorem form (site : Address) (s : Source) : erased.Form site s s.eraseNotes := by
  have goes := DefinitionClause.ofSource_eraseNotes s
  cases found : DefinitionClause.ofSource s with
  | error what =>
      have second : DefinitionClause.ofSource s.eraseNotes = .error what := by
        rw [goes, found]
        rfl
      exact .refused found second
  | ok d =>
      have second : DefinitionClause.ofSource s.eraseNotes = .ok d.eraseNotes := by
        rw [goes, found]
        rfl
      exact .read found second ⟨rfl, rfl, clause _ _ _⟩

theorem forms (site : Address) (items : List Source) :
    erased.Forms site items (items.map Source.eraseNotes) :=
  .map_right (fun _ _ => .inr (form _ _)) 0 items

theorem generator (role : Role) (site : Address) (s : Source) :
    erased.Generator role site s s.eraseNotes := by
  refine ⟨s.position_eraseNotes.symm, ?_⟩
  rw [Generator.ofSource?_eraseNotes]
  exact option_map (fun _ => ⟨rfl, rfl, rfl, optional _ _ _⟩) _

theorem chain {isGenerator : Source → Bool} (goes : ∀ s : Source, isGenerator s.eraseNotes = isGenerator s)
    (role otherwise : Role) (site : Address) (index : Nat) (clauses : List Source) :
    erased.Chain isGenerator role otherwise site index clauses (clauses.map Source.eraseNotes) := by
  induction clauses generalizing index with
  | nil => exact .nil
  | cons s rest ih =>
      cases kind : isGenerator s with
      | true => exact .generator kind ((goes s).trans kind) (generator _ _ _) (ih _)
      | false => exact .other kind ((goes s).trans kind) rfl (ih _)

theorem literal (site : Address) (shape : SyntaxGraph.Literal) :
    erased.Literal site shape shape.eraseNotes := by
  cases shape with
  | list items =>
      refine .list ?_ ?_
      · rw [Source.splitTail_eraseNotes]
        exact expressions _ _ _
      · rw [Source.splitTail_eraseNotes]
        exact optional _ _ _
  | keywordList items => exact .keywordList (entries (fun _ _ => rfl) _ _)
  | tuple items => exact .tuple (expressions _ _ _)
  | map items => exact .map (mapBody _ _)
  | struct typeRef fields => exact .struct rfl (typeName?_eraseNotes typeRef).symm (mapBody _ _)
  | range first last step => exact .range rfl rfl (optional _ _ _)
  | sigil letter content modifiers =>
      exact .sigil (modifierText_eraseNotes modifiers).symm (plainContent?_eraseNotes content).symm
        fun _ => rfl
  | binary segments => exact .binary (.map_right (segment fun _ _ => rfl) 0 _)
  | _ => exact .scalar rfl

theorem collected (site : Address) (options : Source) :
    erased.Collected site options options.eraseNotes := by
  constructor
  · rw [Source.keyword?_eraseNotes]
    exact optional _ _ _
  · rw [Source.keyword?_eraseNotes]
    exact optional _ _ _
  · rw [Source.keyword?_eraseNotes]
    cases options.keyword? "uniq" with
    | none => rfl
    | some value => exact value.atom?_eraseNotes.symm
  · intro _
    rw [Source.keyword?_eraseNotes, clauseItems_eraseNotes]
    exact branches (clause _) _ _ _
  · intro _
    rw [Source.keyword?_eraseNotes]
    exact optional _ _ _

theorem shape (site : Address) (shape : SyntaxGraph.Expression) :
    erased.Shape site shape shape.eraseNotes := by
  cases shape with
  | literal shape => exact .literal (literal _ _)
  | symbol name => exact .symbol name
  | reserved name => exact .reserved name
  | moduleAttribute name => exact .moduleAttribute name
  | moduleName segments => exact .moduleName (moduleText?_eraseNotes segments).symm
  | unary category sign operand => exact .unary rfl
  | binary category sign left right =>
      by_cases isMatch : category = .matching
      · subst isMatch
        exact .matching rfl rfl
      · exact .binary isMatch rfl rfl
  | block statements => exact .block (expressions _ _ _)
  | conditional negated condition arms =>
      refine .conditional rfl ?_ ?_
      · rw [Source.keyword?_eraseNotes]
        exact branch _ _ _
      · rw [Source.keyword?_eraseNotes]
        exact branch _ _ _
  | case subject arms =>
      refine .case rfl ?_
      rw [Source.keyword?_eraseNotes, clauseItems_eraseNotes]
      exact branches (clause _) _ _ _
  | cond arms =>
      refine .cond ?_
      rw [Source.keyword?_eraseNotes, clauseItems_eraseNotes]
      exact branches condClause _ _ _
  | withChain clauses options =>
      refine .withChain (chain Generator.isArrow_eraseNotes _ _ _ _ _) ?_ ?_
      · rw [Source.keyword?_eraseNotes]
        exact optional _ _ _
      · rw [Source.keyword?_eraseNotes]
        refine option_map (fun items => ?_) _
        rw [show some items.eraseNotes = (some items).map Source.eraseNotes from rfl,
          clauseItems_eraseNotes]
        exact branches (clause _) _ _ _
  | comprehension qualifiers options =>
      exact .comprehension (chain Generator.isQualifier_eraseNotes _ _ _ _ _) (collected _ _)
  | closure clauses => exact .closure (branches (clause _) _ _ _)
  | capture body =>
      refine .capture ?_ fun _ => rfl
      rw [capturedFunction?_eraseNotes]
      exact option_map (fun f => ⟨rfl, rfl, option_map (receiver _) _⟩) _
  | placeholder index => exact .placeholder index
  | localCall name args => exact .localCall (expressions _ _ _)
  | remoteCall callee name args => exact .remoteCall (receiver _ _) (expressions _ _ _)
  | anonymousCall function args => exact .anonymousCall rfl (expressions _ _ _)
  | unknown tag => exact .unknown tag

theorem ofExpression (site : Address) (s : Source) : erased.Expression site s s.eraseNotes := by
  have kept : s.eraseNotes.expression.isDefinition = s.expression.isDefinition := by
    rw [s.expression_eraseNotes]
    cases s.expression with
    | localCall name args => simp [Expression.eraseNotes, Expression.isDefinition]
    | _ => rfl
  cases isDefinition : s.expression.isDefinition with
  | true => exact .definition isDefinition (kept.trans isDefinition) (forms site [s])
  | false =>
      refine .shape isDefinition (kept.trans isDefinition) s.position_eraseNotes.symm ?_
      rw [s.expression_eraseNotes]
      exact shape _ _

theorem patternShape (site : Address) (shape : SyntaxGraph.Pattern) (other : shape ≠ .value) :
    erased.PatternShape site shape shape.eraseNotes := by
  cases shape with
  | literal shape => exact .literal (literal _ _)
  | signed number => exact .signed (signedNumber?_eraseNotes number).symm
  | value => exact absurd rfl other
  | symbol name => exact .symbol name
  | wildcard => exact .wildcard
  | pin pinned => exact .pin pinned.symbol?_eraseNotes.symm fun _ => rfl
  | tuple items => exact .tuple (patterns _ _ _)
  | list items tail => exact .list (patterns _ _ _) (option_map (fun _ => rfl) _)
  | map items => exact .map (entries (fun _ _ => rfl) _ _)
  | struct typeRef fields =>
      exact .struct rfl (typeName?_eraseNotes typeRef).symm (entries (fun _ _ => rfl) _ _)
  | binary segments => exact .binary (.map_right (segment fun _ _ => rfl) 0 _)
  | both left right =>
      refine .both ?_ ?_
      · rw [asSides_eraseNotes]
        rfl
      · rw [asSides_eraseNotes]
        rfl
  | textHead head rest => exact .textHead (plainText?_eraseNotes head).symm fun _ => rfl
  | fallback inner value => exact .fallback rfl rfl
  | unknown tag => exact .unknown tag

theorem ofPattern (site : Address) (s : Source) : erased.Pattern site s s.eraseNotes := by
  by_cases isValue : s.pattern = .value
  · exact .value isValue (by rw [s.pattern_eraseNotes, isValue]; rfl) (ofExpression _ _)
  · refine .shape s.position_eraseNotes.symm ?_
    rw [s.pattern_eraseNotes]
    exact patternShape _ _ isValue

end Erased

theorem erased_closed : erased.Closed where
  expression := by
    rintro site s - rfl
    exact Erased.ofExpression site s
  pattern := by
    rintro site s - rfl
    exact Erased.ofPattern site s

end Likeness

end SyntaxGraph
