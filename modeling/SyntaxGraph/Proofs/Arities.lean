import SyntaxGraph.Proofs.Closures

/-!
# Counts in what is compiled

Every count that a compiled node states is the number of its targets, and what it says of other
nodes is true of the nodes that stand there. The builders that tally keep this, so it is read off
the session a build ends in; addresses are distinct, so a node of the session is the one that is
found at its address.

A function takes one number of parameters. Clauses that disagree on it are refused wherever they
stand: at the root, or at any level inside of something else.
-/

namespace SyntaxGraph

def Source.closureArity? (clause : Source) : Option Nat := (Clause.ofSource? clause).map (·.arity)

def Source.definitionArity? (form : Source) : Option Nat :=
  (DefinitionClause.ofSource form).toOption.map (·.clause.arity)

/-- Every item can be counted, and the count is the same for all of them. -/
def Uniform (count? : Source → Option Nat) (items : List Source) : Prop :=
  ∃ count, ∀ item ∈ items, count? item = some count

theorem Uniform.of_forall₂ {α : Type} {reads : Source → α → Prop} {takes : α → Nat}
    {count? : Source → Option Nat} {items : List Source} {clauses : List α} {arity : Nat}
    (each : List.Forall₂ reads items clauses) (same : ∀ clause ∈ clauses, takes clause = arity)
    (counted : ∀ item clause, reads item clause → count? item = some (takes clause)) :
    Uniform count? items := by
  refine ⟨arity, fun item member => ?_⟩
  obtain ⟨clause, among, read⟩ := Tracker.exists_of_forall₂ each member
  rw [counted item clause read, same clause among]

namespace Build

variable {limits : Limits} {level : Level} {site : Address} {source : Source} {items : List Source}
  {s t : Session} {u : Unit}

/-- The clauses of a closure that builds agree on the number of parameters. -/
theorem anonymousFunction_uniform
    (h : (anonymousFunction level site source items).Yields limits s u t) :
    Uniform Source.closureArity? items := by
  obtain ⟨clauses, arity, -, -, -, -, each, ⟨-, -, same⟩, -⟩ := yields_anonymousFunction h
  exact .of_forall₂ each same fun item clause read => by rw [Source.closureArity?, read, Option.map_some]

/-- The forms of a definition that builds agree on the number of parameters. -/
theorem definition_uniform (h : (definition level site items).Yields limits s u t) :
    Uniform Source.definitionArity? items := by
  obtain ⟨first, others, arity, -, -, each, -, same, -⟩ := yields_definition h
  refine .of_forall₂ each same ?_
  intro item clause read
  rw [Source.definitionArity?, read]
  rfl

end Build

namespace Compiler

variable {c : Compiler} {k : Construct} {compiled : Compiled}

/-- The nodes of a construct state the right counts. -/
theorem construct_nodes_counted (h : c.construct k = .ok compiled) {n : Node}
    (member : n ∈ compiled.nodes) :
    n.Counted fun address m => compiled.node? address = some m := by
  obtain ⟨distinct, -⟩ := construct_addresses h
  obtain ⟨t, success, rfl⟩ := construct_eq_ok h
  obtain ⟨nodes, -, all, -, -, counted, -⟩ := construct_tallied success
  have noNodes : c.session.nodes.toList = [] := rfl
  rw [noNodes, List.nil_append] at all
  have perm : (finish k.root t).nodes.Perm t.nodes.toList := sortNodes_perm t.nodes.toList
  refine (counted n (all ▸ perm.mem_iff.mp member)).mono ?_
  rintro address m ⟨among, rfl⟩
  exact find?_of_nodup distinct (perm.mem_iff.mpr among)

end Compiler

/-- Whatever is compiled, the counts of its nodes are right. Neither a closure nor a function builds
unless its clauses agree on the number of parameters, at no level and at no place. -/
theorem Compiler.construct_counted (c : Compiler) :
    (∀ k compiled, c.construct k = .ok compiled → ∀ n ∈ compiled.nodes,
      n.Counted fun address m => compiled.node? address = some m) ∧
    (∀ level site source clauses s t,
      (Build.anonymousFunction level site source clauses).Yields c.limits s () t →
        Uniform Source.closureArity? clauses) ∧
    (∀ level site forms s t, (Build.definition level site forms).Yields c.limits s () t →
      Uniform Source.definitionArity? forms) :=
  ⟨fun _ _ h _ member => construct_nodes_counted h member,
    fun _ _ _ _ _ _ h => Build.anonymousFunction_uniform h,
    fun _ _ _ _ _ h => Build.definition_uniform h⟩

/-- `fn x, y when z -> f([x | y]); x, _ -> %{z => x} end`. The guard is no parameter, the tail no
element, and `z` is read twice. -/
def countedClosure : List Source :=
  [.clause [.form "when" .empty [.symbol "x" .empty, .symbol "y" .empty, .symbol "z" .empty]]
    (.form "f" .empty [.list [.form "|" .empty [.symbol "x" .empty, .symbol "y" .empty]]]),
  .clause [.symbol "x" .empty, .symbol "_" .empty]
    (.form "%{}" .empty [.tuple [.symbol "z" .empty, .symbol "x" .empty]])]

/-- `def f(x)` and `def f(_)`. -/
def countedForms : List Source :=
  [.form "def" .empty [.form "f" .empty [.symbol "x" .empty]],
  .form "def" .empty [.form "f" .empty [.symbol "_" .empty]]]

/-- The list, the call, the entry, its map, the capture and the closure are counted. -/
theorem Compiler.construct_counted_countedClosure :
    (∃ compiled, Compiler.construct ⟨.standard, []⟩ (.expression ⟨"e"⟩ (.closure countedClosure)) =
        .ok compiled ∧
      ((compiled.nodes.filter (·.kind.isCounted)).map (·.address.text)).Perm
        ["e/clause/0/body/argument/0", "e/clause/0/body", "e/clause/1/body/entry/0", "e/clause/1/body",
          "e/capture/0", "e"] ∧
      ∀ n ∈ compiled.nodes, n.Counted fun address m => compiled.node? address = some m) ∧
    Uniform Source.closureArity? countedClosure ∧ Uniform Source.definitionArity? countedForms := by
  obtain ⟨counted, closures, functions⟩ := Compiler.construct_counted ⟨.standard, []⟩
  refine ⟨?_, ?_, ?_⟩
  · obtain ⟨compiled, success, listed⟩ : ∃ compiled,
        Compiler.construct ⟨.standard, []⟩ (.expression ⟨"e"⟩ (.closure countedClosure)) = .ok compiled ∧
        ((compiled.nodes.filter (·.kind.isCounted)).map (·.address.text)).Perm
          ["e/clause/0/body/argument/0", "e/clause/0/body", "e/clause/1/body/entry/0", "e/clause/1/body",
            "e/capture/0", "e"] := ⟨_, rfl, ((sortNodes_perm _).filter _).map _⟩
    exact ⟨compiled, success, listed, counted _ compiled success⟩
  · exact closures (.ofRoom 4) ⟨"e"⟩ (.closure countedClosure) countedClosure
      (Compiler.session ⟨.standard, []⟩) _ rfl
  · exact functions (.ofRoom 4) ⟨"f"⟩ countedForms (Compiler.session ⟨.standard, []⟩) _ rfl

end SyntaxGraph
