import SyntaxGraph.Proofs.Bytes
import SyntaxGraph.Proofs.Spellings

/-!
# Within is the order by beginnings

Whether an address lies within another is decided on the stored text: it is the same text, or the
text goes on with a slash. Cut at the slashes, this is the order of paths by their beginnings. The
segments of the outer address come first among those of the inner one. The text alone does not say
so, since `expr/1` starts the text of `expr/11` as well.
-/

namespace SyntaxGraph

namespace Address

variable {a b : Address}

/-- The text of an address is put together again from its segments. -/
theorem toList_eq_intercalate (a : Address) : a.text.toList = ['/'].intercalate a.segments := by
  rw [segments, splitSegments_eq, List.intercalate_splitOn]

theorem segments_ne_nil (a : Address) : a.segments ≠ [] := by
  rw [segments, splitSegments_eq]
  exact List.splitOn_ne_nil _ _

/-- Rows of pieces that follow each other are joined where they meet. -/
theorem intercalate_append {separator : List Char} {pieces more : List (List Char)} (first : pieces ≠ [])
    (second : more ≠ []) : separator.intercalate (pieces ++ more) =
      separator.intercalate pieces ++ separator ++ separator.intercalate more := by
  induction pieces with
  | nil => exact absurd rfl first
  | cons piece rest ih =>
      by_cases alone : rest = []
      · rw [alone, List.singleton_append, List.intercalate_cons_of_ne_nil second, List.intercalate_singleton]
      · rw [List.cons_append, List.intercalate_cons_of_ne_nil (List.append_ne_nil_of_left_ne_nil alone _),
          ih alone, List.intercalate_cons_of_ne_nil alone]
        simp only [List.append_assoc]

/-- An address lies within another exactly if the segments of the other start its own. -/
theorem isWithin_iff_segments : a.isWithin b = true ↔ b.segments <+: a.segments := by
  rw [isWithin_iff]
  constructor
  · rintro (rfl | ⟨rest, text⟩)
    · exact List.prefix_rfl
    · exact ⟨splitSegments rest, by rw [segments, segments, text, splitSegments_append]⟩
  · rintro ⟨more, same⟩
    by_cases none : more = []
    · rw [none, List.append_nil] at same
      exact .inl (segments_injective same.symm)
    · refine .inr ⟨['/'].intercalate more, ?_⟩
      rw [toList_eq_intercalate a, toList_eq_intercalate b, ← same,
        intercalate_append b.segments_ne_nil none, List.append_assoc, List.singleton_append]

theorem depth_le_of_isWithin (within : a.isWithin b = true) : b.depth ≤ a.depth :=
  Nat.sub_le_sub_right (isWithin_iff_segments.mp within).length_le 2

/-! ## Steps down -/

/-- A step down goes on with a slash, whatever its label and position. -/
theorem toList_below (site : Address) (label : String) (position : Option Nat) :
    ∃ rest, (site.below label position).text.toList = site.text.toList ++ '/' :: rest := by
  cases position with
  | none => exact ⟨label.toList, by simp [below, child]⟩
  | some index => exact ⟨label.toList ++ '/' :: (toString index).toList, by simp [below, indexed]⟩

theorem below_isWithin (site : Address) (label : String) (position : Option Nat) :
    (site.below label position).isWithin site = true :=
  isWithin_iff.mpr (.inr (site.toList_below label position))

theorem below_ne (site : Address) (label : String) (position : Option Nat) :
    site.below label position ≠ site := by
  intro same
  obtain ⟨rest, text⟩ := site.toList_below label position
  rw [same] at text
  simp at text

/-! ## Main result -/

/-- The test on the bytes of two addresses, in which 47 is the slash, decides whether the segments of the
outer one come first among those of the inner one. So within is a partial order in which all that contain
one address are comparable, what lies within is at least as deep, and a step down from an address leads
to another one within it. The addresses may be of any text. -/
theorem isWithin_prefixOrder (a b : Address) :
    (a.isWithin b = true ↔
        a.bytes = b.bytes ∨ b.bytes <+: a.bytes ∧ a.bytes[b.bytes.length]? = some 47) ∧
      (a.isWithin b = true ↔ b.segments <+: a.segments) ∧
      a.isWithin a = true ∧
      (a.isWithin b = true → b.isWithin a = true → a = b) ∧
      (∀ c : Address, a.isWithin b = true → b.isWithin c = true → a.isWithin c = true) ∧
      (∀ c : Address, a.isWithin b = true → a.isWithin c = true →
        b.isWithin c = true ∨ c.isWithin b = true) ∧
      (a.isWithin b = true → b.depth ≤ a.depth) ∧
      ∀ label position, (a.below label position).isWithin a = true ∧ a.below label position ≠ a := by
  refine ⟨isWithin_iff_bytes, isWithin_iff_segments, a.isWithin_self, isWithin_antisymm, ?_, ?_,
    depth_le_of_isWithin, ?_⟩
  · intro c
    exact isWithin_trans
  · intro c
    exact isWithin_or_isWithin
  · intro label position
    exact ⟨a.below_isWithin label position, a.below_ne label position⟩

/-- Below an argument of `expr/1`, and beside it an address whose text only starts the same. -/
theorem isWithin_prefixOrder_sharedDigit :
    (⟨"expr/1"⟩ : Address).bytes <+: (⟨"expr/11"⟩ : Address).bytes ∧
      ¬(⟨"expr/1"⟩ : Address).segments <+: (⟨"expr/11"⟩ : Address).segments ∧
      (⟨"expr/1/argument/0/left"⟩ : Address).isWithin ⟨"expr/1/argument/0"⟩ = true ∧
      (⟨"expr/1/argument/0"⟩ : Address).isWithin ⟨"expr/1"⟩ = true ∧
      (⟨"expr/1/argument/0/left"⟩ : Address).isWithin ⟨"expr/1"⟩ = true ∧
      ((⟨"expr/1/argument/0"⟩ : Address).isWithin ⟨"expr/1"⟩ = true ∨
        (⟨"expr/1"⟩ : Address).isWithin ⟨"expr/1/argument/0"⟩ = true) ∧
      (⟨"expr/1/argument/0"⟩ : Address).depth ≤ (⟨"expr/1/argument/0/left"⟩ : Address).depth ∧
      (⟨"expr/1/argument/0/left"⟩ : Address) = (⟨"expr/1/argument/0"⟩ : Address).child "left" := by
  obtain ⟨-, digits, -⟩ := isWithin_prefixOrder ⟨"expr/11"⟩ ⟨"expr/1"⟩
  have outside : ¬(⟨"expr/11"⟩ : Address).isWithin ⟨"expr/1"⟩ = true := by decide +kernel
  have left : (⟨"expr/1/argument/0/left"⟩ : Address).isWithin ⟨"expr/1/argument/0"⟩ = true := by
    decide +kernel
  have outer : (⟨"expr/1/argument/0"⟩ : Address).isWithin ⟨"expr/1"⟩ = true := by decide +kernel
  obtain ⟨-, -, -, -, through, comparable, deeper, -⟩ :=
    isWithin_prefixOrder ⟨"expr/1/argument/0/left"⟩ ⟨"expr/1/argument/0"⟩
  obtain ⟨-, -, -, same, -⟩ :=
    isWithin_prefixOrder ⟨"expr/1/argument/0/left"⟩ ((⟨"expr/1/argument/0"⟩ : Address).child "left")
  exact ⟨by decide +kernel, fun within => outside (digits.mpr within), left, outer, through _ left outer,
    comparable _ left (through _ left outer), deeper left, same (by decide +kernel) (by decide +kernel)⟩

end Address

end SyntaxGraph
