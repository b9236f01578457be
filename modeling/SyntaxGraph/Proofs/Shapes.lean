import SyntaxGraph.Proofs.Terms
import SyntaxGraph.Shape.Pattern

/-!
# The shapes of trees written for terms

Each way of writing a term is recognised for what it is: the tests that sort trees into
shapes are made in a fixed order, and none of the earlier ones takes a tree that is meant
for a later one.
-/

namespace SyntaxGraph.Source

variable {source head tail : Source} {tag : String} {note : Meta} {items args : List Source}

/-! ## Lists and tuples -/

theorem splitTail_plain {β : Type} {related : Source → β → Prop} {terms : List β}
    (each : List.Forall₂ related items terms)
    (noBar : ∀ note args term, ¬ related (.form "|" note args) term) :
    splitTail items = (items, none) := by
  have both : List.Forall₂ (fun item term => (∃ term, related item term) ∧ related item term)
      items terms := each.imp fun _ term holds => ⟨⟨term, holds⟩, holds⟩
  unfold splitTail
  split
  · rename_i last
    obtain ⟨term, holds⟩ :=
      ((List.forall₂_and_left _ _).mp both).1 _ (List.mem_of_getLast? last)
    exact absurd holds (noBar _ _ _)
  · rfl

theorem splitTail_cons :
    splitTail (items ++ [.form "|" note [head, tail]]) = (items ++ [head], some tail) := by
  simp [splitTail]

/-- Patterns are written with few forms. -/
theorem tag_of_denotesPattern {term : PatternTerm}
    (denotes : (Source.form tag note args).DenotesPattern term) : tag = "^" ∨ tag = tupleTag := by
  cases denotes with
  | pin _ => exact .inl rfl
  | scalar scalar => cases scalar
  | tuple encoded _ =>
      simp only [tuple?, argsOf?] at encoded
      split at encoded
      · exact .inr (by assumption)
      · cases encoded

/-- Nothing is written with the sign between head and tail alone. -/
theorem not_denotes_bar {term : Term} : ¬ (Source.form "|" note args).Denotes term := by
  generalize same : "|" = tag
  intro denotes
  cases denotes with
  | scalar scalar => cases scalar
  | tuple encoded _ =>
      subst same
      cases encoded
  | unary known _ =>
      subst same
      cases known
  | binary known _ _ =>
      subst same
      cases known
  | call isCall _ =>
      subst same
      exact absurd isCall.named (by decide +kernel)
  | _ => exact absurd same (by decide)

/-! ## Patterns -/

theorem literal?_of_isScalar (scalar : source.isScalar = true) :
    ∃ shape, source.literal? = some shape ∧ shape.isScalar = true := by
  cases source with
  | integer value => exact ⟨_, rfl, rfl⟩
  | float value => exact ⟨_, rfl, rfl⟩
  | text value => exact ⟨_, rfl, rfl⟩
  | atom value =>
      unfold literal?
      split <;> first | exact ⟨_, rfl, rfl⟩ | contradiction
  | _ => cases scalar

theorem pattern_of_isScalar (scalar : source.isScalar = true) :
    ∃ shape, source.pattern = .literal shape ∧ shape.isScalar = true := by
  obtain ⟨shape, literal, isScalar⟩ := literal?_of_isScalar scalar
  have pattern : source.pattern = literalPattern "literal" source := by
    cases source <;> first | rfl | cases scalar
  rw [pattern, literalPattern, literal]
  exact ⟨shape, rfl, isScalar⟩

theorem pattern_of_tuple? (encoded : source.tuple? = some items) : source.pattern = .tuple items := by
  cases source with
  | tuple others =>
      obtain rfl := Option.some.inj encoded
      rfl
  | form tag note args =>
      simp only [tuple?, argsOf?] at encoded
      split at encoded
      · rename_i same
        obtain rfl := Option.some.inj encoded
        simp only [pattern, formPattern, if_pos same]
      · cases encoded
  | _ => cases encoded

theorem pattern_of_list {terms : List PatternTerm} (each : List.Forall₂ DenotesPattern items terms) :
    (Source.list items).pattern = .list items none := by
  have plain : splitTail items = (items, none) := by
    apply splitTail_plain each
    intro note args term denotes
    exact absurd (tag_of_denotesPattern denotes) (by decide)
  rw [pattern, plain]

/-! ## Expressions -/

theorem expression_of_literal {shape : Literal} (literal : source.literal? = some shape) :
    source.expression = .literal shape := by
  simp only [expression, literal]

theorem literal?_of_tuple? (encoded : source.tuple? = some items) :
    source.literal? = some (.tuple items) := by
  cases source with
  | tuple others =>
      obtain rfl := Option.some.inj encoded
      rfl
  | form tag note args =>
      simp only [tuple?, argsOf?] at encoded
      split at encoded
      · rename_i same
        obtain rfl := Option.some.inj encoded
        simp only [literal?, formLiteral?, if_pos same]
      · cases encoded
  | _ => cases encoded

theorem tag_of_tuple? (encoded : (Source.form tag note args).tuple? = some items) :
    tag = tupleTag := by
  simp only [tuple?, argsOf?] at encoded
  split at encoded
  · assumption
  · cases encoded

/-- A tuple stands for its parts, however it is written. -/
theorem denotes_of_tuple? {term : Term} (encoded : source.tuple? = some items)
    (denotes : source.Denotes term) :
    ∃ terms, term = .parts terms ∧ List.Forall₂ Denotes items terms := by
  cases denotes with
  | tuple encoded' each =>
      obtain rfl := Option.some.inj (encoded'.symm.trans encoded)
      exact ⟨_, rfl, each⟩
  | symbol _ => cases encoded
  | list _ => cases encoded
  | cons _ _ => cases encoded
  | scalar scalar =>
      cases source with
      | tuple _ => cases scalar
      | form _ _ _ => cases scalar
      | _ => cases encoded
  | unary known _ =>
      rw [tag_of_tuple? encoded] at known
      cases known
  | binary known _ _ =>
      rw [tag_of_tuple? encoded] at known
      cases known
  | call isCall _ =>
      have named := isCall.named
      rw [tag_of_tuple? encoded] at named
      exact absurd named (by decide +kernel)
  | _ => exact absurd (tag_of_tuple? encoded) (by decide)

/-- A pair with an atom key is an entry. -/
theorem mapEntry?_of_keywordPair? (pair : source.keywordPair?.isSome = true) :
    ∃ key value, source.tuple? = some [.atom key, value] ∧
      source.mapEntry? = some (.atom key, value) := by
  unfold keywordPair? at pair
  split at pair
  · rename_i key value encoded
    refine ⟨key, value, encoded, ?_⟩
    unfold mapEntry?
    rw [encoded]
    rfl
  · cases pair

/-- A list is plain, or made of pairs with atom keys. -/
theorem expression_of_list {terms : List Term} (each : List.Forall₂ Denotes items terms) :
    (Source.list items).expression = .literal (.list items) ∧ splitTail items = (items, none) ∨
      (Source.list items).expression = .literal (.keywordList items) ∧
        ∀ item ∈ items, item.keywordPair?.isSome = true := by
  by_cases keywords : (Source.list items).isKeywordList = true
  · refine .inr ⟨expression_of_literal (by rw [literal?, if_pos keywords]), ?_⟩
    simp only [isKeywordList, list?, Bool.and_eq_true, List.all_eq_true] at keywords
    exact keywords.2
  · refine .inl ⟨expression_of_literal (by rw [literal?, if_neg keywords]), ?_⟩
    exact splitTail_plain each fun note args term => not_denotes_bar

theorem expression_of_cons :
    (Source.list (items ++ [.form "|" note [head, tail]])).expression =
      .literal (.list (items ++ [.form "|" note [head, tail]])) := by
  have noPair : (Source.form "|" note [head, tail]).keywordPair? = none := rfl
  apply expression_of_literal
  rw [literal?, if_neg]
  simp [isKeywordList, list?, noPair]

/-! ## Forms -/

def literalTags : List String := [tupleTag, mapTag, "<<>>", "%", "..", "..//"]

/-- Tags that are looked at before operators and calls. -/
def formTags : List String :=
  ["__aliases__", "__block__", "@", "&", "fn", "if", "unless", "case", "cond", "with", "for"]

def operatorTags : List String :=
  ["+", "-", "*", "/", "**", "&&&", "|||", "^^^", "<<<", ">>>", "==", "!=", "===", "!==", "<", ">",
    "<=", ">=", "=~", "and", "or", "&&", "||", "|>", "=", "++", "--", "<>", "in", "not in", "~~~",
    "!", "not"]

theorem formLiteral?_eq_none (noLiteral : tag ∉ literalTags) (noSigil : sigilLetter? tag = none) :
    formLiteral? tag args = none := by
  simp only [literalTags, List.mem_cons, List.not_mem_nil, or_false, not_or] at noLiteral
  obtain ⟨noTuple, noMap, noBinary, noStruct, noRange, noSteps⟩ := noLiteral
  unfold formLiteral?
  rw [if_neg noTuple, if_neg noMap, if_neg noBinary]
  split
  · rw [if_neg noStruct, if_neg noRange, noSigil]
    rfl
  · rw [if_neg noSteps]
  · rfl

theorem expression_of_form (noLiteral : tag ∉ literalTags) (noSigil : sigilLetter? tag = none) :
    (Source.form tag note args).expression = formExpression tag args := by
  have literal : (Source.form tag note args).literal? = none :=
    formLiteral?_eq_none noLiteral noSigil
  simp only [expression, literal]

theorem formExpression_eq (noForm : tag ∉ formTags) :
    formExpression tag args = operatorOrCall tag args := by
  simp only [formTags, List.mem_cons, List.not_mem_nil, or_false, not_or] at noForm
  obtain ⟨_, _, _, _, _, _, _, _, _, _, _⟩ := noForm
  unfold formExpression
  split <;> first | contradiction | rfl

theorem operatorTags_plain :
    ∀ tag ∈ operatorTags, tag ∉ literalTags ∧ tag ∉ formTags ∧ sigilLetter? tag = none := by
  decide

theorem mem_operatorTags
    (known : (Operator.unary? tag).isSome = true ∨ (Operator.binary? tag).isSome = true) :
    tag ∈ operatorTags := by
  by_contra other
  simp only [operatorTags, List.mem_cons, List.not_mem_nil, or_false, not_or] at other
  simp [Operator.unary?, Operator.binary?, other] at known

theorem expression_of_operator
    (known : (Operator.unary? tag).isSome = true ∨ (Operator.binary? tag).isSome = true) :
    (Source.form tag note args).expression = operatorOrCall tag args := by
  obtain ⟨noLiteral, noForm, noSigil⟩ := operatorTags_plain tag (mem_operatorTags known)
  rw [expression_of_form noLiteral noSigil, formExpression_eq noForm]

theorem expression_of_unary? {operand : Source} (known : (Operator.unary? tag).isSome = true) :
    ∃ category, (Source.form tag note [operand]).expression = .unary category tag operand := by
  obtain ⟨category, found⟩ := Option.isSome_iff_exists.mp known
  refine ⟨category, ?_⟩
  rw [expression_of_operator (.inl known)]
  simp only [operatorOrCall, found]

theorem binary?_ne_matching {category : Operator} (noMatch : tag ≠ "=")
    (found : Operator.binary? tag = some category) : category ≠ .matching := by
  rintro rfl
  simp only [Operator.binary?, if_neg noMatch] at found
  repeat' split at found
  all_goals cases found

theorem expression_of_binary? {left right : Source} (known : (Operator.binary? tag).isSome = true)
    (noMatch : tag ≠ "=") : ∃ category, category ≠ .matching ∧
      (Source.form tag note [left, right]).expression = .binary category tag left right := by
  obtain ⟨category, found⟩ := Option.isSome_iff_exists.mp known
  refine ⟨category, binary?_ne_matching noMatch found, ?_⟩
  rw [expression_of_operator (.inr known)]
  simp only [operatorOrCall, found]

theorem expression_of_matching {left right : Source} :
    (Source.form "=" note [left, right]).expression = .binary .matching "=" left right := by
  rw [expression_of_operator (.inr rfl)]
  rfl

/-- A tag that names a function begins with a letter or an underscore. -/
theorem isCallName_plain (named : isCallName tag = true) :
    tag ∉ literalTags ∧ tag ∉ ["@", "&", "<-", "->", "::", "|", "^", "\\\\"] := by
  have signs : ∀ sign ∈ literalTags ++ ["@", "&", "<-", "->", "::", "|", "^", "\\\\"],
      isCallName sign = false := by
    decide +kernel
  constructor
  · intro member
    rw [signs tag (List.mem_append_left _ member)] at named
    cases named
  · intro member
    rw [signs tag (List.mem_append_right _ member)] at named
    cases named

theorem expression_of_call (isCall : IsLocalCall tag args) :
    (Source.form tag note args).expression = .localCall tag args := by
  obtain ⟨noLiteral, noSign⟩ := isCallName_plain isCall.named
  have ordinary := isCall.ordinary
  simp only [specialForms, List.mem_cons, List.not_mem_nil, or_false, not_or] at ordinary noSign
  have noForm : tag ∉ formTags := by
    simp [formTags, ordinary, noSign]
  have active : tag ∉ inertTags := by
    simp [inertTags, ordinary, noSign]
  rw [expression_of_form noLiteral isCall.noSigil, formExpression_eq noForm]
  unfold operatorOrCall
  rw [if_neg active, if_pos isCall.named]
  dsimp only
  split
  · rw [isCall.notUnary rfl]
  · rw [isCall.notBinary rfl]
  · rfl

theorem expression_of_block : (Source.form "__block__" note items).expression = .block items := by
  rw [expression_of_form (by decide) (by decide)]
  rfl

theorem expression_of_closure : (Source.form "fn" note items).expression = .closure items := by
  rw [expression_of_form (by decide) (by decide)]
  rfl

theorem expression_of_conditional {test options body : Source}
    (hasBody : options.keyword? "do" = some body) :
    (Source.form "if" note [test, options]).expression = .conditional false test options := by
  have found : options.hasBody = true := by rw [Source.hasBody, hasBody, Option.isSome_some]
  rw [expression_of_form (by decide) (by decide)]
  exact if_pos found

theorem expression_of_case {value options body : Source}
    (hasBody : options.keyword? "do" = some body) :
    (Source.form "case" note [value, options]).expression = .case value options := by
  have found : options.hasBody = true := by rw [Source.hasBody, hasBody, Option.isSome_some]
  rw [expression_of_form (by decide) (by decide)]
  exact if_pos found

/-! ## Clauses -/

theorem splitGuard_plain {patterns : List PatternTerm}
    (heads : List.Forall₂ DenotesPattern items patterns) : Clause.splitGuard items = (items, none) := by
  unfold Clause.splitGuard
  split
  · cases heads with
    | cons first _ => exact absurd (tag_of_denotesPattern first) (by decide)
  · rfl

/-- The parts of a clause are written for its parameters, its guard and its body. -/
theorem DenotesClause.split {clause : Clause} {term : ClauseTerm} (denotes : source.DenotesClause term)
    (found : Clause.ofSource? source = some clause) :
    ∃ patterns guards steps, term = .mk patterns (guards ++ steps) ∧
      List.Forall₂ DenotesPattern clause.params patterns ∧
      List.Forall₂ Denotes clause.guard.toList guards ∧
      List.Forall₂ Denotes clause.body.toList steps := by
  cases denotes with
  | plain heads each =>
      rw [Clause.ofSource?, splitGuard_plain heads] at found
      obtain rfl := Option.some.inj found
      exact ⟨_, [], _, rfl, heads, .nil, each⟩
  | @guarded note inner params guard body patterns steps heads each =>
      have split : Clause.splitGuard [.form "when" inner (params ++ [guard])] =
          (params, some guard) := by
        simp [Clause.splitGuard]
      rw [Clause.ofSource?, split] at found
      obtain rfl := Option.some.inj found
      cases each with
      | cons hguard rest => exact ⟨_, [_], _, rfl, heads, .cons hguard .nil, rest⟩

end SyntaxGraph.Source
