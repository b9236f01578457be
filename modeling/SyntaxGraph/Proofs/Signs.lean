import Mathlib.Data.List.Nodup
import SyntaxGraph.Proofs.Closures
import SyntaxGraph.Proofs.Walks

/-!
# Signed integers in patterns

A signed integer that is matched against is one literal, and its node stores a value. The value does
not depend on the sign: it is the negative of the integer, for `+` as well as for `-`, and the least
integer, which has no negative, becomes the greatest.
-/

namespace SyntaxGraph

namespace Build

/-- Only the least integer has no negative. -/
theorem negated_toInt {value : Int64} (fits : value ≠ Int64.minValue) :
    (negated value).toInt = -value.toInt := by
  have low := Int64.le_toInt value
  have high := Int64.toInt_lt value
  have other : value.toInt ≠ -2 ^ 63 := fun same =>
    fits (Int64.toInt_inj.mp (same.trans Int64.toInt_minValue.symm))
  rw [negated, if_neg fits, Int64.toInt_neg]
  exact Int.bmod_eq_of_le (by omega) (by omega)

end Build

/-- Both signs make the same of an integer. -/
theorem Source.pattern_signedInteger {sign : String} (signed : sign = "-" ∨ sign = "+") (note : Meta)
    (value : Int64) : (Source.form sign note [.integer value]).pattern = .signed (.integer value) := by
  rcases signed with rfl | rfl <;> rfl

namespace Compiler

/-- Wherever a signed integer is matched against, one node stands, and it stores the negative of the
integer whatever the sign. -/
theorem construct_signedInteger {c : Compiler} {k : Construct} {compiled : Compiled} {site : Address}
    {sign : String} {note : Meta} {value : Int64} (h : c.construct k = .ok compiled)
    (signed : sign = "-" ∨ sign = "+") (met : k.Meets site (.pattern (.form sign note [.integer value]))) :
    ∃ n ∈ compiled.nodes, (∀ m ∈ compiled.nodes, m.address = site → m = n) ∧ n.address = site ∧
      n.kind = .integerLiteral ∧ ∃ stored, n.property? "value" = some (.integer stored) ∧
        (value ≠ Int64.minValue → stored.toInt = -value.toInt) ∧
        (value = Int64.minValue → stored = Int64.maxValue) := by
  obtain ⟨distinct, -⟩ := construct_addresses h
  obtain ⟨t, success, rfl⟩ := construct_eq_ok h
  obtain ⟨first, inConstruct, reaches⟩ := met
  obtain ⟨new, grown, accounts⟩ := (construct_visits success).accounts
  obtain ⟨n, member, here, stored, stated, holds⟩ :=
    (accounts.leaves first inConstruct _ reaches).2 _ (Source.pattern_signedInteger signed note value)
  have standing : n ∈ t.nodes.toList := by
    rw [grown]
    exact List.mem_append_right _ member
  obtain ⟨kind, rfl⟩ := Prod.mk.inj (Option.some.inj stated)
  have found : n ∈ (finish k.root t).nodes := (sortNodes_perm _).mem_iff.mpr standing
  refine ⟨n, found, fun m other same => ?_, here, kind.symm, _, holds, Build.negated_toInt, ?_⟩
  · exact List.inj_on_of_nodup_map distinct other found (same.trans here.symm)
  · rintro rfl
    rfl

/-- `{x, [-1 | rest]}`, where a signed integer stands in a list in a tuple. -/
def minusInside : Construct :=
  .pattern ⟨"pattern/0"⟩ (.tuple [.symbol "x" .empty,
    .list [.binary "|" (.unary "-" (.integer 1)) (.symbol "rest" .empty)]])

theorem construct_signedInteger_minusInside :
    ∃ compiled, Compiler.construct ⟨.standard, []⟩ minusInside = .ok compiled ∧
      minusInside.Meets ⟨"pattern/0/element/1/element/0"⟩ (.pattern (.unary "-" (.integer 1))) ∧
      ∃ n ∈ compiled.nodes, n.address = ⟨"pattern/0/element/1/element/0"⟩ ∧ n.kind = .integerLiteral ∧
        ∃ stored, n.property? "value" = some (.integer stored) ∧ stored.toInt = -1 := by
  obtain ⟨compiled, success⟩ :
      ∃ compiled, Compiler.construct ⟨.standard, []⟩ minusInside = .ok compiled := ⟨_, rfl⟩
  have met : minusInside.Meets ⟨"pattern/0/element/1/element/0"⟩ (.pattern (.unary "-" (.integer 1))) :=
    ⟨_, List.mem_singleton_self _, .inside (.tail _ (.head _)) (.inside (.head _) (.here _))⟩
  obtain ⟨n, member, -, here, kind, stored, holds, negative, -⟩ :=
    construct_signedInteger success (.inl rfl) met
  exact ⟨compiled, success, met, n, member, here, kind, stored, holds, negative (by decide)⟩

/-- The node of `+1` stores `-1`. -/
theorem construct_signedInteger_plus :
    ((Compiler.construct ⟨.standard, []⟩ (.pattern ⟨"pattern/0"⟩ (.unary "+" (.integer 1)))).toOption.map
      fun compiled => compiled.nodes.map fun n => (n.address, n.kind, n.property? "value")) =
        some [(⟨"pattern/0"⟩, .integerLiteral, some (.integer (-1)))] := by decide +kernel

end Compiler

end SyntaxGraph
