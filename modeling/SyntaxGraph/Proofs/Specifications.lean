import SyntaxGraph.Proofs.Walks

/-!
# Specifications read by recursion

The specification of a segment is a tree of `-` forms with a word at every leaf. It is read with
the trees that are still pending in a list, each with the levels left at it. A recursion that reads
the left side of a form before the right one does the same, so a reading is settled by two lists:
the depths at which the nodes of the tree stand, and the words from left to right. One node below
the deepest level is enough to fail, wherever it stands. Otherwise the words are read in order, and
of two words that set a property the later one stands.
-/

namespace SyntaxGraph

namespace Build

variable {α β : Type} {limits : Limits} {step : Build α} {next : α → Build β} {s t : Session} {a : α}

/-- Behind a step that succeeds, a sequence goes on from where the step leads. -/
theorem Yields.run_bind (first : step.Yields limits s a t) :
    ((step >>= next).run limits).run s = ((next a).run limits).run t := by
  change step limits s = .ok (a, t) at first
  simp only [Bind.bind, ReaderT.run, ReaderT.bind, StateT.run, StateT.bind, Except.bind, first]

/-- A sequence fails with its first step. -/
theorem run_bind_error {fault : Fault} (failed : (step.run limits).run s = .error fault) :
    ((step >>= next).run limits).run s = .error fault := by
  change step limits s = .error fault at failed
  simp only [Bind.bind, ReaderT.run, ReaderT.bind, StateT.run, StateT.bind, Except.bind, failed]

end Build

namespace Segment

open Build

/-- The depths of the nodes of a specification whose root stands at `depth`: of each form, and of
each word. -/
def depths (depth : Nat) : Source → List Nat
  | .form "-" _ [left, right] => depth :: (depths (depth + 1) left ++ depths (depth + 1) right)
  | _ => [depth]

/-- Read a specification by recursion, the left side of a form before the right one. -/
def readTree (site : Address) : Nat → Source → Reading → Build Reading
  | 0, _, _ => tooDeep site
  | room + 1, .form "-" _ [left, right], r => do
    readTree site room right (← readTree site room left r)
  | _ + 1, word, r => return readWord r word

/-- A pending tree is read before the trees behind it, as if by recursion. -/
theorem readPending_cons (site : Address) (room : Nat) (spec : Source)
    (rest : List (Source × Nat)) (r : Reading) :
    readPending site ((spec, room) :: rest) r =
      readTree site room spec r >>= readPending site rest := by
  fun_induction readTree site room spec r generalizing rest with
  | case1 spec r =>
      rw [readPending]
      rfl
  | case2 room note left right r ih ih' =>
      rw [readPending, ih, bind_assoc]
      exact bind_congr fun read => ih' read rest
  | case3 room word r other => rw [readPending.eq_4 _ _ _ _ _ other, pure_bind]

variable {limits : Limits} {site : Address} {s : Session} {depth : Nat} {spec word : Source} {r : Reading}
  {name : String}

/-! ## What a reading comes to -/

/-- Where no node lies too deep, the words are read from left to right. -/
theorem yields_readTree (shallow : ∀ d ∈ depths depth spec, d ≤ limits.maxDepth) :
    (readTree site (limits.maxDepth + 1 - depth) spec r).Yields limits s
      ((words spec).foldl readWord r) s := by
  fun_induction depths depth spec generalizing r with
  | case1 depth note left right ih ih' =>
      obtain ⟨here, sides⟩ := List.forall_mem_cons.mp shallow
      obtain ⟨inLeft, inRight⟩ := List.forall_mem_append.mp sides
      have room : limits.maxDepth + 1 - depth = limits.maxDepth + 1 - (depth + 1) + 1 := by omega
      rw [room, readTree, words, List.foldl_append]
      exact (ih inLeft).run_bind.trans (ih' inRight)
  | case2 word depth other =>
      have here := List.forall_mem_singleton.mp shallow
      have room : limits.maxDepth + 1 - depth = limits.maxDepth - depth + 1 := by omega
      rw [room, readTree.eq_3 _ _ _ _ other, words.eq_2 _ other]
      rfl

/-- A reading fails with one fault, whichever node lies too deep. -/
theorem run_readTree_of_deep (deep : ∃ d ∈ depths depth spec, limits.maxDepth < d) :
    ((readTree site (limits.maxDepth + 1 - depth) spec r).run limits).run s =
      .error (.depthExceeded site limits.maxDepth) := by
  fun_induction depths depth spec generalizing r with
  | case1 depth note left right ih ih' =>
      by_cases below : limits.maxDepth < depth
      · have room : limits.maxDepth + 1 - depth = 0 := by omega
        rw [room]
        rfl
      · have room : limits.maxDepth + 1 - depth = limits.maxDepth + 1 - (depth + 1) + 1 := by omega
        have sides : (∃ d ∈ depths (depth + 1) left, limits.maxDepth < d) ∨
            ∃ d ∈ depths (depth + 1) right, limits.maxDepth < d := by
          obtain ⟨d, member, deeper⟩ := deep
          rcases List.mem_cons.mp member with here | inside
          · exact absurd (here ▸ deeper) below
          · rcases List.mem_append.mp inside with inLeft | inRight
            · exact .inl ⟨d, inLeft, deeper⟩
            · exact .inr ⟨d, inRight, deeper⟩
        rw [room, readTree]
        -- The left side is read first, so it fails, or the right side is read from where it leads.
        by_cases deepLeft : ∃ d ∈ depths (depth + 1) left, limits.maxDepth < d
        · exact run_bind_error (ih deepLeft)
        · have shallow : ∀ d ∈ depths (depth + 1) left, d ≤ limits.maxDepth := by
            intro d member
            by_contra deeper
            exact deepLeft ⟨d, member, by omega⟩
          rw [(yields_readTree shallow).run_bind]
          exact ih' (sides.resolve_left deepLeft)
  | case2 word depth other =>
      obtain ⟨d, member, below⟩ := deep
      obtain rfl := List.mem_singleton.mp member
      have room : limits.maxDepth + 1 - d = 0 := by omega
      rw [room]
      rfl

/-! ## The last word that sets a property -/

/-- What a word sets a property to, whatever stood there before. -/
def setting? (name : String) (word : Source) : Option Property :=
  (readWord ⟨.make default .binarySegment, none⟩ word).node.property? name

/-- A word sets what it would set on a node without properties, and leaves the rest. -/
theorem property?_readWord (r : Reading) (word : Source) :
    (readWord r word).node.property? name = (setting? name word).or (r.node.property? name) := by
  have written : ∀ (key : String) (value : Property) (n : Node), (n.set key value).property? name =
      (if name = key then some value else none).or (n.property? name) := by
    intro key value n
    by_cases same : name = key
    · subst same
      simp
    · rw [n.property?_set_of_ne value same]
      simp [same]
  have blank : (Node.make default .binarySegment).property? name = none := rfl
  fun_cases readWord r word
  all_goals simp +zetaDelta [setting?, readWord, Reading.set, written, blank, Option.or_assoc]

theorem property?_foldl_readWord (words : List Source) (r : Reading) :
    (words.foldl readWord r).node.property? name =
      (words.reverse.findSome? (setting? name)).or (r.node.property? name) := by
  induction words generalizing r with
  | nil => rfl
  | cons word words ih =>
      rw [List.foldl_cons, ih, property?_readWord, List.reverse_cons, List.findSome?_append,
        List.findSome?_singleton, Option.or_assoc]

theorem sizeName_foldl_readWord (words : List Source) (r : Reading) :
    (words.foldl readWord r).sizeName = (words.reverse.findSome? sizeVariable?).or r.sizeName := by
  induction words generalizing r with
  | nil => rfl
  | cons word words ih =>
      rw [List.foldl_cons, ih, sizeName_readWord, List.reverse_cons, List.findSome?_append,
        List.findSome?_singleton, Option.or_assoc]

/-- A specification that is read with its pending trees in a list is read as if by recursion. The
reading fails exactly if some node of the tree, a word or a form, stands below the deepest level.
Otherwise it is the reading of the words from left to right, so that the last word that sets a
property decides on it, and the last one that gives a variable on the size. -/
theorem readPending_asRecursion (limits : Limits) (s : Session) (site : Address) (depth : Nat) (spec : Source)
    (r : Reading) :
    let step := readPending site [(spec, limits.maxDepth + 1 - depth)] r
    let read := (words spec).foldl readWord r
    step = readTree site (limits.maxDepth + 1 - depth) spec r ∧
      (step.run limits).run s =
        (if ∃ d ∈ depths depth spec, limits.maxDepth < d then
          .error (.depthExceeded site limits.maxDepth)
        else .ok (read, s)) ∧
      (∀ name, read.node.property? name =
        ((words spec).reverse.findSome? (setting? name)).or (r.node.property? name)) ∧
      read.sizeName = ((words spec).reverse.findSome? sizeVariable?).or r.sizeName := by
  intro step read
  have recursion : step = readTree site (limits.maxDepth + 1 - depth) spec r := by
    have last : readPending site [] = pure := by
      funext r
      rw [readPending]
    rw [show step = _ from readPending_cons site _ spec [] r, last, bind_pure]
  refine ⟨recursion, ?_, fun name => property?_foldl_readWord _ r, sizeName_foldl_readWord _ r⟩
  rw [recursion]
  split
  · rename_i deep
    exact run_readTree_of_deep deep
  · rename_i shallow
    refine yields_readTree fun d member => ?_
    by_contra deeper
    exact shallow ⟨d, member, by omega⟩

/-- In `big-size(8)-size(n)-little` the second size and the second byte order stand. -/
example :
    let spec := Source.binary "-" (.binary "-" (.binary "-" (.symbol "big" .empty)
      (.form "size" .empty [.integer 8])) (.form "size" .empty [.symbol "n" .empty])) (.symbol "little" .empty)
    depths 2 spec = [2, 3, 4, 5, 5, 4, 3] ∧
      (words spec).reverse.findSome? (setting? "size") = some "n" ∧
      (words spec).reverse.findSome? (setting? "endianness") = some "little" := by
  decide

end Segment

end SyntaxGraph
