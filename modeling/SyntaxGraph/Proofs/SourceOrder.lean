import Mathlib.Data.List.Nodup
import SyntaxGraph.Proofs.Symbols

/-!
# The order of bindings

What a pattern introduces is read off its tree from left to right, with one exception: an
as-pattern names the whole in the place of its second side, whichever side the name stands on.
A pattern that has a variable on the right of `=` is built as it is written; any other is built
right side first. So the bindings are a permutation of the symbols as they are written, and they
come in that order if, and only if, no as-pattern with symbols on both sides has something other
than a variable on its right.
-/

namespace SyntaxGraph

/-- The trees through which a pattern introduces symbols, in the order in which they are written. -/
def Pattern.written : Pattern → List Source
  | .tuple items => items
  | .list elements tail => elements ++ tail.toList
  | .map entries => entries.filterMap fun entry => entry.mapEntry?.map (·.2)
  | .struct typeRef fields => typeRef :: fields.filterMap fun entry => entry.mapEntry?.map (·.2)
  | .binary segments => segments.map fun segment => (Segment.split segment).1
  | .both left right => [left, right]
  | .textHead _ rest => [rest]
  | .fallback inner _ => [inner]
  | _ => []

namespace Source

variable {s : Source}

theorem map_snd_numbered (site : Address) (role : Role) (index : Nat) (items : List Source) :
    (numbered site role index items).map (·.2) = items := by
  induction items generalizing index with
  | nil => rfl
  | cons item items ih => rw [numbered, List.map_cons, ih]

theorem map_snd_entryValues (site : Address) (items : List Source) :
    (entryValues site items).map (·.2) = items.filterMap fun entry => entry.mapEntry?.map (·.2) := by
  unfold entryValues
  conv_rhs => rw [← map_snd_numbered site .entry 0 items, List.filterMap_map]
  rw [List.map_filterMap]
  congr 1
  funext entry
  simp [Function.comp_def]

theorem map_snd_segmentValues (site : Address) (segments : List Source) :
    (segmentValues site segments).map (·.2) = segments.map fun segment => (Segment.split segment).1 := by
  unfold segmentValues
  conv_rhs => rw [← map_snd_numbered site .segment 0 segments]
  simp only [List.map_map, Function.comp_def]

end Source

namespace Pattern

open Source Build

/-- A pattern other than an as-pattern is built as it is written. -/
theorem map_snd_parts {p : Pattern} (other : ∀ left right, p ≠ .both left right) (site : Address) :
    (p.parts site).map (·.2) = p.written := by
  cases p with
  | tuple items => exact map_snd_numbered _ _ _ _
  | list elements tail =>
      rw [parts, written, List.map_append, map_snd_numbered]
      cases tail <;> rfl
  | map entries => exact map_snd_entryValues _ _
  | struct typeRef fields => exact congrArg (typeRef :: ·) (map_snd_entryValues _ _)
  | binary segments => exact map_snd_segmentValues _ _
  | both left right => exact absurd rfl (other left right)
  | _ => rfl

theorem asSides_of_symbol {left right : Source} (symbol : right.symbol?.isSome = true) :
    asSides left right = (left, right) := by
  cases right with
  | symbol => rfl
  | _ => cases symbol

theorem asSides_of_other {left right : Source} (other : right.symbol?.isSome = false) :
    asSides left right = (right, left) := by
  cases right with
  | symbol => cases other
  | _ => rfl

theorem parts_perm (p : Pattern) (site : Address) : ((p.parts site).map (·.2)).Perm p.written := by
  by_cases both : ∃ left right, p = .both left right
  · obtain ⟨left, right, rfl⟩ := both
    show [(asSides left right).1, (asSides left right).2].Perm [left, right]
    cases symbol : right.symbol?.isSome with
    | true => rw [asSides_of_symbol symbol]
    | false =>
        rw [asSides_of_other symbol]
        exact .swap _ _ _
  · rw [map_snd_parts fun left right same => both ⟨left, right, same⟩]

end Pattern

namespace Source

variable {s x : Source}

/-- The trees a pattern introduces symbols through lie below it. -/
theorem sizeOf_written (member : x ∈ s.pattern.written) : sizeOf x < sizeOf s := by
  have inParts := (s.pattern.parts_perm ⟨""⟩).mem_iff.mpr member
  obtain ⟨part, inside, rfl⟩ := List.mem_map.mp inParts
  exact sizeOf_parts inside

/-- The symbols of a pattern as they are met from left to right. -/
def symbols (s : Source) : List String :=
  match s.pattern with
  | .symbol name => [name]
  | _ => s.pattern.written.attach.flatMap fun x => symbols x.1
termination_by sizeOf s
decreasing_by exact sizeOf_written x.2

theorem symbols_symbol {name : String} (shape : s.pattern = .symbol name) : s.symbols = [name] := by
  rw [symbols, shape]

theorem symbols_written (other : ∀ name, s.pattern ≠ .symbol name) :
    s.symbols = s.pattern.written.flatMap symbols := by
  rw [symbols]
  split
  · rename_i name shape
    exact absurd shape (other name)
  · conv_rhs => rw [← List.attach_map_subtype_val s.pattern.written, List.flatMap_map]

/-- An as-pattern has a variable on its right, or one of its sides introduces nothing. -/
def KeepsOrder (s : Source) : Prop :=
  ∀ left right, s.pattern = .both left right →
    right.symbol?.isSome = true ∨ left.symbols = [] ∨ right.symbols = []

/-- The trees through which a pattern introduces symbols, at any depth. -/
inductive Introducing (source : Source) : Source → Prop where
  | whole : Introducing source source
  | part {y z : Source} (above : Introducing source y) (member : z ∈ y.pattern.written) :
      Introducing source z

/-- Every as-pattern keeps the order. -/
def InOrder (source : Source) : Prop := ∀ s, source.Introducing s → s.KeepsOrder

theorem Introducing.descend (h : Introducing s x) :
    x = s ∨ ∃ first ∈ s.pattern.written, Introducing first x := by
  induction h with
  | whole => exact .inl rfl
  | part _ member ih =>
      obtain rfl | ⟨first, inside, rest⟩ := ih
      · exact .inr ⟨_, member, .whole⟩
      · exact .inr ⟨first, inside, .part rest member⟩

theorem Introducing.ascend {first : Source} (member : first ∈ s.pattern.written)
    (h : Introducing first x) : Introducing s x := by
  induction h with
  | whole => exact .part .whole member
  | part _ inside ih => exact .part ih inside

theorem inOrder_iff : s.InOrder ↔ s.KeepsOrder ∧ ∀ x ∈ s.pattern.written, x.InOrder := by
  constructor
  · exact fun ordered =>
      ⟨ordered s .whole, fun x member y inside => ordered y (.ascend member inside)⟩
  · rintro ⟨here, below⟩ y inside
    obtain rfl | ⟨first, member, rest⟩ := inside.descend
    · exact here
    · exact below first member y rest

end Source

/-- Pieces of the same lengths make up the same list if they are the same, piece by piece. -/
theorem flatMap_eq_flatMap_iff {α β : Type} {xs : List α} {f g : α → List β}
    (lengths : ∀ x ∈ xs, (f x).length = (g x).length) :
    xs.flatMap f = xs.flatMap g ↔ ∀ x ∈ xs, f x = g x := by
  induction xs with
  | nil => simp
  | cons x xs ih =>
      obtain ⟨first, others⟩ := List.forall_mem_cons.mp lengths
      rw [List.flatMap_cons, List.flatMap_cons, List.forall_mem_cons, ← ih others]
      constructor
      · exact fun same => List.append_inj same first
      · rintro ⟨here, rest⟩
        rw [here, rest]

/-- Two lists that have no member in common may change places only if one of them is empty. -/
theorem append_swap_eq_iff {α : Type} {xs ys xs' ys' : List α} (first : xs.Perm xs')
    (second : ys.Perm ys') (distinct : (ys ++ xs).Nodup) :
    ys ++ xs = xs' ++ ys' ↔ (xs' = [] ∨ ys' = []) ∧ xs = xs' ∧ ys = ys' := by
  constructor
  · intro swapped
    cases xs' with
    | nil =>
        obtain rfl := first.eq_nil
        exact ⟨.inl rfl, rfl, (List.append_nil ys).symm.trans swapped⟩
    | cons x rest =>
        cases ys with
        | nil =>
            obtain rfl := second.nil_eq
            exact ⟨.inr rfl, swapped.trans (List.append_nil _), rfl⟩
        | cons y others =>
            -- The first member would come from both lists.
            obtain rfl : y = x := (List.cons.inj swapped).1
            have inFirst : y ∈ xs := first.mem_iff.mpr List.mem_cons_self
            exact absurd inFirst (List.disjoint_of_nodup_append distinct List.mem_cons_self)
  · rintro ⟨rfl | rfl, rfl, rfl⟩
    · exact List.append_nil ys
    · exact (List.append_nil xs).symm

namespace Source

open Build

variable {s : Source} {site : Address}

/-- What a pattern introduces, by name. -/
theorem names_introduced (other : ∀ name, s.pattern ≠ .symbol name) :
    (s.introduced site).names = (s.pattern.parts site).flatMap fun part => (part.2.introduced part.1).names := by
  rw [introduced_parts other, Bindings.names, List.map_flatMap]
  rfl

/-- The symbols introduced are those written. -/
theorem introduced_perm (s : Source) (site : Address) : (s.introduced site).names.Perm s.symbols := by
  by_cases symbol : ∃ name, s.pattern = .symbol name
  · obtain ⟨name, shape⟩ := symbol
    rw [introduced_symbol shape, symbols_symbol shape]
    exact .refl _
  · have other : ∀ name, s.pattern ≠ .symbol name := fun name same => symbol ⟨name, same⟩
    rw [names_introduced other, symbols_written other]
    calc (s.pattern.parts site).flatMap (fun part => (part.2.introduced part.1).names)
      _ |>.Perm ((s.pattern.parts site).flatMap fun part => part.2.symbols) :=
        .flatMap_left _ fun part member => introduced_perm part.2 part.1
      _ |>.Perm (((s.pattern.parts site).map (·.2)).flatMap symbols) := by rw [List.flatMap_map]
      _ |>.Perm (s.pattern.written.flatMap symbols) := (s.pattern.parts_perm site).flatMap_right _
termination_by sizeOf s
decreasing_by exact sizeOf_parts member

/-- The symbols are introduced in the order in which they are written exactly if every as-pattern
keeps the order. -/
theorem introduced_inOrder_iff (s : Source) (site : Address) (distinct : (s.introduced site).names.Nodup) :
    (s.introduced site).names = s.symbols ↔ s.InOrder := by
  by_cases symbol : ∃ name, s.pattern = .symbol name
  · obtain ⟨name, shape⟩ := symbol
    rw [introduced_symbol shape, symbols_symbol shape, inOrder_iff, shape]
    refine iff_of_true rfl ⟨fun left right same => ?_, fun x member => nomatch member⟩
    exact nomatch shape.symm.trans same
  have other : ∀ name, s.pattern ≠ .symbol name := fun name same => symbol ⟨name, same⟩
  rw [names_introduced other] at distinct ⊢
  rw [symbols_written other, inOrder_iff]
  have below : ∀ part ∈ s.pattern.parts site,
      ((part.2.introduced part.1).names = part.2.symbols ↔ part.2.InOrder) := fun part member =>
    introduced_inOrder_iff part.2 part.1 ((List.nodup_flatMap.mp distinct).1 part member)
  by_cases both : ∃ left right, s.pattern = .both left right
  · obtain ⟨left, right, shape⟩ := both
    have keeps : s.KeepsOrder ↔
        right.symbol?.isSome = true ∨ left.symbols = [] ∨ right.symbols = [] := by
      refine ⟨fun keeps => keeps left right shape, fun keeps left' right' same => ?_⟩
      cases shape.symm.trans same
      exact keeps
    rw [shape] at distinct below ⊢
    rw [keeps]
    simp only [Pattern.parts, Pattern.written, List.flatMap_cons, List.flatMap_nil, List.append_nil,
      List.forall_mem_cons, List.not_mem_nil, false_implies, implies_true, and_true] at distinct below ⊢
    generalize site.child Role.inner.label = inner at *
    generalize site.child Role.boundAs.label = whole at *
    cases symbol : right.symbol?.isSome with
    | true =>
        rw [Pattern.asSides_of_symbol symbol] at distinct below ⊢
        rw [← below.1, ← below.2]
        simp only [true_or, true_and]
        exact ⟨fun same => List.append_inj same (introduced_perm left inner).length_eq,
          fun same => by rw [same.1, same.2]⟩
    | false =>
        rw [Pattern.asSides_of_other symbol] at distinct below ⊢
        rw [← below.1, ← below.2, append_swap_eq_iff (introduced_perm left whole)
          (introduced_perm right inner) distinct]
        simp only [Bool.false_eq_true, false_or]
  · have plain : s.KeepsOrder := fun left right same => absurd ⟨left, right, same⟩ both
    have written := Pattern.map_snd_parts (fun left right same => both ⟨left, right, same⟩) site
    rw [← written, List.flatMap_map, flatMap_eq_flatMap_iff fun part _ =>
      (introduced_perm part.2 part.1).length_eq]
    rw [List.forall_mem_map]
    constructor
    · exact fun same => ⟨plain, fun part member => (below part member).mp (same part member)⟩
    · exact fun ordered part member => (below part member).mpr (ordered.2 part member)
termination_by sizeOf s
decreasing_by exact sizeOf_parts member

end Source

namespace Compiler

/-- The bindings of a compiled pattern are the symbols as the pattern is built, which are those
written from left to right; they come in that order exactly if every as-pattern keeps it. -/
theorem pattern_bindings_order {c : Compiler} {root : Address} {source : Source} {p : CompiledPattern}
    (h : c.pattern root source = .ok p) :
    p.bindings = source.introduced root ∧ p.bindings.names.Perm source.symbols ∧
      (p.bindings.names = source.symbols ↔ source.InOrder) := by
  obtain ⟨⟨compiled, bindings⟩, run, rfl⟩ := except_map_eq_ok h
  obtain ⟨t, success, -⟩ := run_eq_ok run
  obtain ⟨extended, -⟩ := Level.ofRoom_collects _ success
  have grown : bindings = source.introduced root := extended.grown
  have distinct : (source.introduced root).names.Nodup := grown ▸ extended.distinct List.nodup_nil
  subst grown
  exact ⟨rfl, source.introduced_perm root, source.introduced_inOrder_iff root distinct⟩

/-- `{u, [v | w]} = all` -/
def tupleNamedLast : Source :=
  .binary "=" (.tuple [.symbol "u" .empty,
    .list [.binary "|" (.symbol "v" .empty) (.symbol "w" .empty)]]) (.symbol "all" .empty)

theorem pattern_bindings_order_tupleNamedLast :
    ∃ p, Compiler.pattern ⟨.standard, []⟩ ⟨"pattern/0"⟩ tupleNamedLast = .ok p ∧
      p.bindings.names = ["u", "v", "w", "all"] ∧ p.bindings = tupleNamedLast.introduced ⟨"pattern/0"⟩ ∧
      p.bindings.names.Perm tupleNamedLast.symbols ∧
      (p.bindings.names = tupleNamedLast.symbols ↔ tupleNamedLast.InOrder) := by
  obtain ⟨p, success, names⟩ : ∃ p, Compiler.pattern ⟨.standard, []⟩ ⟨"pattern/0"⟩ tupleNamedLast = .ok p ∧
      p.bindings.names = ["u", "v", "w", "all"] := ⟨_, rfl, rfl⟩
  exact ⟨p, success, names, pattern_bindings_order success⟩

/-- `user = %{id: id}` -/
def mapNamedFirst : Source :=
  .binary "=" (.symbol "user" .empty) (.form "%{}" .empty [.tuple [.atom "id", .symbol "id" .empty]])

/-- A name on the left of `=` is bound after the symbols on the right. -/
theorem pattern_bindings_swapped :
    mapNamedFirst.symbols = ["user", "id"] ∧
      ∃ p, Compiler.pattern ⟨.standard, []⟩ ⟨"pattern/0"⟩ mapNamedFirst = .ok p ∧
        p.bindings.names = ["id", "user"] :=
  ⟨by decide +kernel, _, rfl, rfl⟩

end Compiler

end SyntaxGraph
