import Mathlib.Algebra.Ring.Nat
import Mathlib.Data.List.Forall2
import Mathlib.Data.List.Induction
import SyntaxGraph.Proofs.Paths

/-!
# How addresses are spelled

An address is written from a path: the kind and the number of a root, and the steps
below it, each a label and perhaps a position. The text is cut at its slashes again, and
since a label starts with a letter and a position with a digit, the segments say which
path was written. Reading an address therefore accepts what is written from a path, and
different paths have different addresses.

Reading accepts more than that. A position may stand behind a plus sign and behind zeros,
and the text is kept as it was given, so one path has many texts that are read. `Writes`
says how far a given segment may differ from the one that is written, and the last part
shows that this is all that reading lets pass.
-/

namespace SyntaxGraph

/-! ## Decimal digits -/

namespace Address

/-- Zeros in front of a number do not change it. -/
theorem ofDigitChars_zeros (zeros n : Nat) :
    Nat.ofDigitChars 10 (List.replicate zeros '0' ++ Nat.toDigits 10 n) 0 = n := by
  rw [Nat.ofDigitChars_append, Nat.ofDigitChars_replicate_zero, Nat.mul_zero,
    Nat.ofDigitChars_ten_toDigits]

/-- A digit is the digit of its value. -/
theorem digitChar_of_isDigit {c : Char} (digit : c.isDigit = true) :
    c.toNat - '0'.toNat < 10 ∧ Nat.digitChar (c.toNat - '0'.toNat) = c := by
  have bounds : 48 ≤ c.toNat ∧ c.toNat ≤ 57 := by
    simpa [Char.isDigit, UInt32.le_iff_toNat_le] using digit
  have below : c.toNat - '0'.toNat < 10 := by
    show c.toNat - 48 < 10
    omega
  refine ⟨below, Char.toNat_inj.mp ?_⟩
  rw [Nat.toNat_digitChar_of_lt_ten below]
  show 48 + (c.toNat - 48) = c.toNat
  omega

/-- A row of digits is its number behind zeros. -/
theorem exists_zeros {digits : List Char} (some : digits ≠ []) (each : ∀ c ∈ digits, c.isDigit = true) :
    ∃ zeros, digits = List.replicate zeros '0' ++ Nat.toDigits 10 (Nat.ofDigitChars 10 digits 0) := by
  induction digits using List.reverseRecOn with
  | nil => exact absurd rfl some
  | append_singleton front last ih =>
      obtain ⟨below, spelled⟩ := digitChar_of_isDigit (each last (by simp))
      have single : Nat.toDigits 10 (last.toNat - '0'.toNat) = [last] := by
        rw [Nat.toDigits_of_lt_base below, spelled]
      rw [Nat.ofDigitChars_append, Nat.ofDigitChars_cons, Nat.ofDigitChars_nil]
      by_cases empty : front = []
      · subst empty
        exact ⟨0, by rw [Nat.ofDigitChars_nil, Nat.mul_zero, Nat.zero_add, single]; rfl⟩
      obtain ⟨zeros, same⟩ := ih empty fun c member => each c (List.mem_append_left _ member)
      rcases Nat.eq_zero_or_pos (Nat.ofDigitChars 10 front 0) with zero | positive
      · -- All digits so far are zeros, so the last one is the whole number.
        rw [zero, Nat.toDigits_zero] at same
        refine ⟨zeros + 1, ?_⟩
        rw [zero, Nat.mul_zero, Nat.zero_add, single, List.replicate_succ', ← same]
      · refine ⟨zeros, ?_⟩
        rw [← Nat.toDigits_append_toDigits (by decide) positive below, single, ← List.append_assoc,
          ← same]

/-- Only zero starts with a zero. -/
theorem head?_toDigits {n : Nat} (zero : (Nat.toDigits 10 n).head? = some '0') : n = 0 := by
  induction n using Nat.strongRecOn with
  | ind n ih =>
      rcases Nat.lt_or_ge n 10 with small | large
      · rw [Nat.toDigits_of_lt_base small] at zero
        exact Nat.digitChar_eq_zero.mp (Option.some.inj zero)
      · rw [Nat.toDigits_of_base_le (by decide) large, List.head?_append,
          Option.or_of_isSome (List.isSome_head?.mpr Nat.toDigits_ne_nil)] at zero
        have := ih (n / 10) (by omega) zero
        omega

/-- The digits of a position, as an address has them. -/
def positionDigits (index : UInt64) : List Char := Nat.toDigits 10 index.toNat

theorem isDigit_of_mem_positionDigits {index : UInt64} {c : Char} (member : c ∈ positionDigits index) :
    c.isDigit = true :=
  Nat.isDigit_of_mem_toDigits (by decide) (by decide) member

theorem positionDigits_ne_nil (index : UInt64) : positionDigits index ≠ [] := Nat.toDigits_ne_nil

/-! ## Positions as segments -/

/-- Read a position that has no sign. -/
def readUnsigned (digits : List Char) : Option UInt64 :=
  if digits.isEmpty || !digits.all Char.isDigit then none
  else if Nat.ofDigitChars 10 digits 0 < UInt64.size then
    some (UInt64.ofNat (Nat.ofDigitChars 10 digits 0))
  else none

theorem readIndex_plus (digits : List Char) : readIndex ('+' :: digits) = readUnsigned digits := rfl

theorem readIndex_unsigned {segment : List Char} (unsigned : segment.head? ≠ some '+') :
    readIndex segment = readUnsigned segment := by
  unfold readIndex readUnsigned
  split
  · exact absurd rfl unsigned
  · rfl

def padded (zeros : Nat) (index : UInt64) : List Char :=
  List.replicate zeros '0' ++ positionDigits index

theorem padded_ne_nil (zeros : Nat) (index : UInt64) : padded zeros index ≠ [] := by
  simp [padded, positionDigits_ne_nil]

theorem isDigit_of_mem_padded {zeros : Nat} {index : UInt64} {c : Char} (member : c ∈ padded zeros index) :
    c.isDigit = true := by
  rcases List.mem_append.mp member with zero | digit
  · rw [List.eq_of_mem_replicate zero]
    rfl
  · exact isDigit_of_mem_positionDigits digit

theorem head?_padded (zeros : Nat) (index : UInt64) :
    ∃ c, c.isDigit = true ∧ (padded zeros index).head? = some c := by
  have first := List.isSome_head?.mpr (padded_ne_nil zeros index)
  obtain ⟨c, head⟩ := Option.isSome_iff_exists.mp first
  exact ⟨c, isDigit_of_mem_padded (List.mem_of_head? head), head⟩

theorem readUnsigned_eq_some_iff {digits : List Char} {index : UInt64} :
    readUnsigned digits = some index ↔ ∃ zeros, digits = padded zeros index := by
  constructor
  · intro read
    unfold readUnsigned at read
    split at read
    · cases read
    rename_i formed
    split at read
    · rename_i small
      obtain rfl := Option.some.inj read
      simp only [Bool.or_eq_true, not_or, List.isEmpty_iff, Bool.not_eq_true', Bool.not_eq_false,
        List.all_eq_true] at formed
      obtain ⟨zeros, same⟩ := exists_zeros formed.1 formed.2
      refine ⟨zeros, ?_⟩
      rw [padded, positionDigits, UInt64.toNat_ofNat_of_lt' small]
      exact same
    · cases read
  · rintro ⟨zeros, rfl⟩
    have value : Nat.ofDigitChars 10 (padded zeros index) 0 = index.toNat := ofDigitChars_zeros zeros index.toNat
    rw [readUnsigned, if_neg, value, if_pos index.toNat_lt_size, UInt64.ofNat_toNat]
    simp only [Bool.or_eq_true, not_or, List.isEmpty_iff, Bool.not_eq_true', Bool.not_eq_false,
      List.all_eq_true]
    exact ⟨padded_ne_nil zeros index, fun c => isDigit_of_mem_padded⟩

/-- A position is read from its digits, and from them behind a plus sign and behind zeros; from nothing
else. -/
theorem readIndex_eq_some_iff {segment : List Char} {index : UInt64} :
    readIndex segment = some index ↔
      ∃ sign zeros, (sign = [] ∨ sign = ['+']) ∧ segment = sign ++ padded zeros index := by
  by_cases plus : segment.head? = some '+'
  · obtain ⟨digits, rfl⟩ := List.head?_eq_some_iff.mp plus
    rw [readIndex_plus, readUnsigned_eq_some_iff]
    constructor
    · rintro ⟨zeros, rfl⟩
      exact ⟨['+'], zeros, .inr rfl, rfl⟩
    · rintro ⟨sign, zeros, rfl | rfl, same⟩
      · obtain ⟨c, digit, head⟩ := head?_padded zeros index
        rw [← List.nil_append (padded zeros index), ← same] at head
        obtain rfl := Option.some.inj head
        exact absurd digit (by decide)
      · exact ⟨zeros, (List.cons.inj same).2⟩
  · rw [readIndex_unsigned plus, readUnsigned_eq_some_iff]
    constructor
    · rintro ⟨zeros, rfl⟩
      exact ⟨[], zeros, .inl rfl, rfl⟩
    · rintro ⟨sign, zeros, rfl | rfl, rfl⟩
      · exact ⟨zeros, rfl⟩
      · exact absurd rfl plus

theorem readIndex_positionDigits (index : UInt64) : readIndex (positionDigits index) = some index :=
  readIndex_eq_some_iff.mpr ⟨[], 0, .inl rfl, rfl⟩

theorem positionDigits_injective {i j : UInt64} (same : positionDigits i = positionDigits j) : i = j := by
  have read := readIndex_positionDigits i
  rw [same, readIndex_positionDigits] at read
  exact (Option.some.inj read).symm

/-! ## Labels as segments -/

/-- A label starts with a letter, and a position never does. -/
theorem readIndex_of_isLabel {segment : List Char} (label : isLabel segment = true) :
    readIndex segment = none := by
  cases read : readIndex segment with
  | none => rfl
  | some index =>
      obtain ⟨sign, zeros, rfl | rfl, rfl⟩ := readIndex_eq_some_iff.mp read
      · obtain ⟨c, digit, head⟩ := head?_padded zeros index
        obtain ⟨rest, same⟩ := List.head?_eq_some_iff.mp head
        rw [List.nil_append, same, isLabel, Bool.and_eq_true] at label
        have letter : 'a'.val ≤ c.val := of_decide_eq_true (Bool.and_eq_true_iff.mp label.1).1
        have below : c.val ≤ '9'.val := of_decide_eq_true (Bool.and_eq_true_iff.mp digit).2
        exact absurd (UInt32.le_trans letter below) (by decide)
      · rw [List.singleton_append, isLabel, Bool.and_eq_true] at label
        exact absurd label.1 (by decide)

theorem slash_notMem_of_isLabel {segment : List Char} (label : isLabel segment = true) :
    '/' ∉ segment := by
  cases segment with
  | nil => exact List.not_mem_nil
  | cons first rest =>
      rw [isLabel, Bool.and_eq_true, List.all_eq_true] at label
      intro member
      rcases List.mem_cons.mp member with rfl | inside
      · exact absurd label.1 (by decide)
      · exact absurd (label.2 _ inside) (by decide)

theorem slash_notMem_positionDigits (index : UInt64) : '/' ∉ positionDigits index := fun member =>
  absurd (isDigit_of_mem_positionDigits member) (by decide)

/-! ## Cutting an address -/

theorem splitSegments_eq (chars : List Char) : splitSegments chars = chars.splitOn '/' := by
  induction chars with
  | nil => rfl
  | cons c rest ih =>
      rw [splitSegments, List.splitOn_cons_eq_if_modifyHead, ih]
      by_cases slash : c = '/'
      · simp [slash]
      · rw [if_neg slash, if_neg (by simpa using slash)]
        cases cut : rest.splitOn '/' with
        | nil => exact absurd cut (List.splitOn_ne_nil _ _)
        | cons segment more => rfl

/-- A slash cuts a text in two, and each part is cut further by itself. -/
theorem splitSegments_append (front rest : List Char) :
    splitSegments (front ++ '/' :: rest) = splitSegments front ++ splitSegments rest := by
  simp only [splitSegments_eq, List.splitOn_append_cons_self]

theorem splitSegments_of_slash_notMem {segment : List Char} (whole : '/' ∉ segment) :
    splitSegments segment = [segment] := by
  rw [splitSegments_eq, List.splitOn_eq_singleton whole]

theorem segments_injective {a b : Address} (same : a.segments = b.segments) : a = b := by
  apply ext_toList
  rw [segments, segments, splitSegments_eq, splitSegments_eq] at same
  calc a.text.toList
      = ['/'].intercalate (a.text.toList.splitOn '/') := (List.intercalate_splitOn '/').symm
    _ = ['/'].intercalate (b.text.toList.splitOn '/') := by rw [same]
    _ = b.text.toList := List.intercalate_splitOn '/'

end Address

/-! ## Paths -/

/-- What names the kind of a root, and each step below it. -/
structure Label where
  text : String
  isLabel : Address.isLabel text.toList = true
  deriving DecidableEq

/-- One step down: a label and, where it leads to several places, a position. -/
structure Step where
  label : Label
  position : Option UInt64
  deriving DecidableEq

/-- A root, and the steps that lead down from it. -/
structure Path where
  kind : Label
  index : UInt64
  steps : List Step
  deriving DecidableEq

def Step.length (s : Step) : Nat :=
  match s.position with
  | none => 1
  | some _ => 2

def Step.segments (s : Step) : List (List Char) :=
  s.label.text.toList :: (s.position.map Address.positionDigits).toList

/-- The address of a path: that of its root, and then below it step by step. -/
def Path.address (p : Path) : Address :=
  p.steps.foldl (fun site step => site.below step.label.text (step.position.map UInt64.toNat))
    (.root p.kind.text p.index)

/-- The segments that are written for a path. -/
def Path.segments (p : Path) : List (List Char) :=
  p.kind.text.toList :: Address.positionDigits p.index :: p.steps.flatMap Step.segments

@[ext] theorem Label.ext {l m : Label} (same : l.text.toList = m.text.toList) : l = m := by
  cases l
  cases m
  cases String.ext same
  rfl

theorem Step.length_segments (s : Step) : s.segments.length = s.length := by
  obtain ⟨label, position⟩ := s
  cases position <;> rfl

namespace Address

theorem segments_root (kind : Label) (index : UInt64) :
    (root kind.text index).segments = [kind.text.toList, positionDigits index] := by
  have text : (root kind.text index).text.toList = kind.text.toList ++ '/' :: positionDigits index := by
    simp [root, positionDigits]
  rw [segments, text, splitSegments_append,
    splitSegments_of_slash_notMem (slash_notMem_of_isLabel kind.isLabel),
    splitSegments_of_slash_notMem (slash_notMem_positionDigits index)]
  rfl

theorem segments_below (site : Address) (step : Step) :
    (site.below step.label.text (step.position.map UInt64.toNat)).segments =
      site.segments ++ step.segments := by
  obtain ⟨label, position⟩ := step
  have whole := splitSegments_of_slash_notMem (slash_notMem_of_isLabel label.isLabel)
  cases position with
  | none =>
      have text : (site.child label.text).text.toList = site.text.toList ++ '/' :: label.text.toList := by
        simp [child]
      rw [Option.map_none, below, segments, text, splitSegments_append, whole]
      rfl
  | some index =>
      have text : (site.indexed label.text index.toNat).text.toList =
          site.text.toList ++ '/' :: (label.text.toList ++ '/' :: positionDigits index) := by
        simp [indexed, positionDigits]
      rw [Option.map_some, below, segments, text, splitSegments_append, splitSegments_append, whole,
        splitSegments_of_slash_notMem (slash_notMem_positionDigits index)]
      rfl

end Address

/-- The address of a path falls into the segments that were written for it. -/
theorem Path.segments_address (p : Path) : p.address.segments = p.segments := by
  have along : ∀ (steps : List Step) (site : Address),
      (steps.foldl (fun site step => site.below step.label.text (step.position.map UInt64.toNat))
        site).segments = site.segments ++ steps.flatMap Step.segments := by
    intro steps
    induction steps with
    | nil => intro site; simp
    | cons step steps ih =>
        intro site
        rw [List.foldl_cons, ih, Address.segments_below, List.flatMap_cons, List.append_assoc]
  rw [address, along, Address.segments_root]
  rfl

/-! ## The grammar of segments -/

namespace Address

/-- Segments that spell a position, if the step before them has one, and then steps. -/
inductive Trail : List (List Char) → Option UInt64 → List Step → Prop
  | done : Trail [] none []
  | position {segment : List Char} {index : UInt64} {rest : List (List Char)} {steps : List Step}
      (read : readIndex segment = some index) (further : Trail rest none steps) :
      Trail (segment :: rest) (some index) steps
  | label {segment : List Char} {label : Label} {first : Option UInt64} {rest : List (List Char)}
      {steps : List Step} (named : label.text.toList = segment) (further : Trail rest first steps) :
      Trail (segment :: rest) none (⟨label, first⟩ :: steps)

namespace Trail

variable {segments : List (List Char)} {first : Option UInt64} {steps : List Step}

/-- Reading finds nothing wrong with a trail, which may start with a position only behind a label. -/
theorem badSegment? (trail : Trail segments first steps) {after : Bool}
    (behind : first.isSome → after = true) : Address.badSegment? after segments = none := by
  induction trail generalizing after with
  | done => rfl
  | position read further ih =>
      rename_i segment index rest steps
      have other : isLabel segment = false := by
        by_contra label
        rw [Bool.not_eq_false] at label
        rw [readIndex_of_isLabel label] at read
        cases read
      rw [Address.badSegment?, other, behind rfl, read]
      exact ih fun none => Bool.noConfusion none
  | @label _ label _ _ _ named further ih =>
      rw [Address.badSegment?, ← named, label.isLabel]
      exact ih fun _ => rfl

/-- Where reading finds nothing wrong there is a trail. -/
theorem of_badSegment? {after : Bool} (good : Address.badSegment? after segments = none) :
    ∃ first steps, Trail segments first steps ∧ (first.isSome → after = true) := by
  induction segments generalizing after with
  | nil => exact ⟨none, [], .done, fun some => Bool.noConfusion some⟩
  | cons segment rest ih =>
      unfold Address.badSegment? at good
      split at good
      · rename_i label
        obtain ⟨first, steps, trail, -⟩ := ih good
        have named : (String.ofList segment).toList = segment := String.toList_ofList
        exact ⟨none, ⟨⟨String.ofList segment, named.symm ▸ label⟩, first⟩ :: steps, .label named trail,
          fun some => Bool.noConfusion some⟩
      · split at good
        · rename_i position
          obtain ⟨behind, isSome⟩ := (Bool.and_eq_true _ _).mp position
          obtain ⟨index, read⟩ := Option.isSome_iff_exists.mp isSome
          obtain ⟨first, steps, trail, none⟩ := ih good
          cases first with
          | none => exact ⟨some index, steps, .position read trail, fun _ => behind⟩
          | some _ => exact absurd (none rfl) (by decide)
        · cases good

/-- Segments spell at most one position and one list of steps. -/
theorem unique {other : Option UInt64} {others : List Step} (trail : Trail segments first steps)
    (again : Trail segments other others) : first = other ∧ steps = others := by
  induction trail generalizing other others with
  | done =>
      cases again
      exact ⟨rfl, rfl⟩
  | position read further ih =>
      cases again with
      | position read' further' => exact ⟨read.symm.trans read', (ih further').2⟩
      | @label _ label _ _ _ named further' =>
          rw [← named, readIndex_of_isLabel label.isLabel] at read
          cases read
  | @label _ label _ _ _ named further ih =>
      cases again with
      | position read further' =>
          rw [← named, readIndex_of_isLabel label.isLabel] at read
          cases read
      | label named' further' =>
          obtain ⟨rfl, rfl⟩ := ih further'
          obtain rfl := Label.ext (named.trans named'.symm)
          exact ⟨rfl, rfl⟩

end Trail

/-! ## What may differ in a text that is read -/

/-- A given segment and the one that is written for it: the same, or a position behind a plus sign and
behind zeros. -/
inductive Writes : List Char → List Char → Prop
  | same (segment : List Char) : Writes segment segment
  | position {sign : List Char} (signed : sign = [] ∨ sign = ['+']) (zeros : Nat) (index : UInt64) :
      Writes (sign ++ (List.replicate zeros '0' ++ positionDigits index)) (positionDigits index)

namespace Writes

/-- What a position is written for is read as the position. -/
theorem position_iff {given : List Char} {index : UInt64} :
    Writes given (positionDigits index) ↔ readIndex given = some index := by
  constructor
  · intro writes
    generalize spelled : positionDigits index = segment at writes
    cases writes with
    | same => exact spelled ▸ readIndex_positionDigits index
    | position signed zeros other =>
        obtain rfl := positionDigits_injective spelled
        exact readIndex_eq_some_iff.mpr ⟨_, zeros, signed, rfl⟩
  · intro read
    obtain ⟨sign, zeros, signed, rfl⟩ := readIndex_eq_some_iff.mp read
    exact .position signed zeros index

/-- A label is written for itself alone. -/
theorem label_iff {given : List Char} {label : Label} :
    Writes given label.text.toList ↔ label.text.toList = given := by
  constructor
  · intro writes
    generalize spelled : label.text.toList = segment at writes
    cases writes with
    | same => rfl
    | position signed zeros index =>
        have none := readIndex_of_isLabel label.isLabel
        rw [spelled, readIndex_positionDigits] at none
        cases none
  · rintro rfl
    exact .same _

end Writes

/-- Segments are a trail exactly if they differ from those that are written no more than they may. -/
theorem trail_iff {segments : List (List Char)} {first : Option UInt64} {steps : List Step} :
    Trail segments first steps ↔ List.Forall₂ Writes segments
      ((first.map positionDigits).toList ++ steps.flatMap Step.segments) := by
  constructor
  · intro trail
    induction trail with
    | done => exact .nil
    | position read further ih => exact .cons (Writes.position_iff.mpr read) ih
    | label named further ih => exact .cons (Writes.label_iff.mpr named) ih
  · intro each
    induction steps generalizing segments first with
    | nil =>
        cases first with
        | none =>
            cases each
            exact .done
        | some index =>
            obtain ⟨segment, rest, writes, further, rfl⟩ := List.forall₂_cons_right_iff.mp each
            cases further
            exact .position (Writes.position_iff.mp writes) .done
    | cons step steps ih =>
        have labelled : ∀ {segments}, List.Forall₂ Writes segments ((step :: steps).flatMap Step.segments) →
            Trail segments none (step :: steps) := by
          intro segments each
          obtain ⟨segment, rest, writes, further, rfl⟩ := List.forall₂_cons_right_iff.mp each
          exact .label (Writes.label_iff.mp writes) (ih further)
        cases first with
        | none => exact labelled each
        | some index =>
            obtain ⟨segment, rest, writes, further, rfl⟩ := List.forall₂_cons_right_iff.mp each
            exact .position (Writes.position_iff.mp writes) (labelled further)

end Address

/-- A text spells a path if its segments are those of the address of the path, but for the plus signs and
zeros that positions may have. -/
def Path.SpelledBy (p : Path) (text : String) : Prop :=
  List.Forall₂ Address.Writes (Address.splitSegments text.toList) p.address.segments

namespace Path

open Address (Trail Writes trail_iff)

/-- A text spells a path if it starts with the kind and the index of the root and then spells the steps. -/
theorem spelledBy_iff {p : Path} {text : String} :
    p.SpelledBy text ↔ ∃ index rest, Address.splitSegments text.toList = p.kind.text.toList :: index :: rest ∧
      Address.readIndex index = some p.index ∧ Trail rest none p.steps := by
  rw [SpelledBy, segments_address, segments]
  constructor
  · intro each
    obtain ⟨kind, more, written, below, cut⟩ := List.forall₂_cons_right_iff.mp each
    obtain ⟨index, rest, read, further, rfl⟩ := List.forall₂_cons_right_iff.mp below
    rw [Writes.label_iff.mp written]
    exact ⟨index, rest, cut, Writes.position_iff.mp read, trail_iff.mpr further⟩
  · rintro ⟨index, rest, same, read, trail⟩
    rw [same]
    exact .cons (.same _) (.cons (Writes.position_iff.mpr read) (trail_iff.mp trail))

theorem spelledBy_address (p : Path) : p.SpelledBy p.address.text :=
  List.forall₂_same.mpr fun segment _ => .same segment

/-- A text spells at most one path. -/
theorem SpelledBy.unique {p q : Path} {text : String} (spelled : p.SpelledBy text)
    (again : q.SpelledBy text) : p = q := by
  obtain ⟨index, rest, cut, read, trail⟩ := spelledBy_iff.mp spelled
  obtain ⟨index', rest', cut', read', trail'⟩ := spelledBy_iff.mp again
  obtain ⟨kind, tail⟩ := List.cons.inj (cut.symm.trans cut')
  obtain ⟨rfl, rfl⟩ := List.cons.inj tail
  obtain ⟨-, steps⟩ := trail.unique trail'
  obtain ⟨pk, pi, ps⟩ := p
  obtain ⟨qk, qi, qs⟩ := q
  obtain rfl := Label.ext kind
  obtain rfl := Option.some.inj (read.symm.trans read')
  cases steps
  rfl

theorem address_injective {p q : Path} (same : p.address = q.address) : p = q :=
  p.spelledBy_address.unique (same ▸ q.spelledBy_address)

end Path

/-- Reading accepts the texts that spell a path, and keeps them as they are. -/
theorem Address.read_eq_ok_iff {text : String} {a : Address} :
    read text = .ok a ↔ a = ⟨text⟩ ∧ ∃ p : Path, p.SpelledBy text := by
  constructor
  · intro accepted
    unfold read at accepted
    split at accepted
    · cases accepted
    rename_i kind below cut
    split at accepted
    · rename_i label
      split at accepted
      · cases accepted
      rename_i index steps
      split at accepted
      · rename_i isSome
        split at accepted
        · rename_i good
          obtain ⟨number, position⟩ := Option.isSome_iff_exists.mp isSome
          obtain ⟨first, walked, trail, none⟩ := Trail.of_badSegment? good
          cases first with
          | some _ => exact absurd (none rfl) (by decide)
          | none =>
              have named : (String.ofList kind).toList = kind := String.toList_ofList
              refine ⟨(Except.ok.inj accepted).symm,
                ⟨⟨String.ofList kind, named.symm ▸ label⟩, number, walked⟩, ?_⟩
              exact Path.spelledBy_iff.mpr ⟨index, steps, by rw [cut, named], position, trail⟩
        · cases accepted
      · cases accepted
    · cases accepted
  · rintro ⟨rfl, p, spelled⟩
    obtain ⟨index, rest, cut, position, trail⟩ := Path.spelledBy_iff.mp spelled
    have good : badSegment? false rest = none := trail.badSegment? fun none => Bool.noConfusion none
    simp only [read, cut, p.kind.isLabel, position, good, Option.isSome_some, if_true]

/-! ## Texts without signs and zeros -/

namespace Address

/-- A segment that starts neither with a plus sign nor with a zero that another digit follows. -/
def Plain (segment : List Char) : Prop :=
  segment.head? ≠ some '+' ∧ (segment.head? = some '0' → segment = ['0'])

instance : DecidablePred Plain := fun _ => inferInstanceAs (Decidable (_ ∧ _))

namespace Plain

theorem position (index : UInt64) : Plain (positionDigits index) := by
  constructor
  · intro plus
    exact absurd (isDigit_of_mem_positionDigits (List.mem_of_head? plus)) (by decide)
  · intro zero
    rw [positionDigits, head?_toDigits zero, Nat.toDigits_zero]

theorem label (label : Label) : Plain label.text.toList := by
  have formed := label.isLabel
  cases spelled : label.text.toList with
  | nil => exact ⟨by simp, by simp⟩
  | cons first rest =>
      rw [spelled, isLabel, Bool.and_eq_true] at formed
      refine ⟨?_, ?_⟩
      · rintro head
        obtain rfl := Option.some.inj head
        exact absurd formed.1 (by decide)
      · rintro head
        obtain rfl := Option.some.inj head
        exact absurd formed.1 (by decide)

theorem of_mem_segments {p : Path} {segment : List Char} (member : segment ∈ p.segments) : Plain segment := by
  rw [Path.segments, List.mem_cons, List.mem_cons, List.mem_flatMap] at member
  rcases member with rfl | rfl | ⟨step, -, inside⟩
  · exact label p.kind
  · exact position p.index
  · rcases List.mem_cons.mp inside with rfl | digits
    · exact label step.label
    · obtain ⟨index, -, rfl⟩ := Option.map_eq_some_iff.mp (Option.mem_toList.mp digits)
      exact position index

/-- A plain segment is the one that is written. -/
theorem eq_of_writes {given written : List Char} (plain : Plain given) (writes : Writes given written) :
    given = written := by
  cases writes with
  | same => rfl
  | position signed zeros index =>
      rcases signed with rfl | rfl
      · cases zeros with
        | zero => rfl
        | succ zeros =>
            have alone := plain.2 rfl
            simp [List.replicate_succ, positionDigits_ne_nil] at alone
      · exact absurd rfl plain.1

end Plain

end Address

/-- A text that spells a path is its address exactly if all its segments are plain. -/
theorem Path.SpelledBy.eq_iff {p : Path} {text : String} (spelled : p.SpelledBy text) :
    text = p.address.text ↔ ∀ segment ∈ Address.splitSegments text.toList, Address.Plain segment := by
  constructor
  · rintro rfl segment member
    rw [← Address.segments, segments_address] at member
    exact .of_mem_segments member
  · intro plain
    have each := (List.forall₂_and_left _ _).mpr ⟨plain, spelled⟩
    have same : Address.splitSegments text.toList = p.address.segments :=
      List.forall₂_eq_eq_eq ▸ each.imp fun _ _ both => both.1.eq_of_writes both.2
    exact congrArg Address.text (Address.segments_injective (a := ⟨text⟩) same)

/-! ## Main results -/

/-- What is written from a path is read as it stands, its depth is the number of segments that the steps add,
and another path is written as another address. -/
theorem Path.address_unambiguous (p : Path) :
    Address.read p.address.text = .ok p.address ∧ p.address.depth = (p.steps.map Step.length).sum ∧
      ∀ q : Path, p ≠ q → p.address ≠ q.address := by
  refine ⟨Address.read_eq_ok_iff.mpr ⟨rfl, p, p.spelledBy_address⟩, ?_,
    fun q different same => different (address_injective same)⟩
  have lengths : p.steps.map (fun step => step.segments.length) = p.steps.map Step.length :=
    List.map_congr_left fun step _ => step.length_segments
  rw [Address.depth, segments_address, segments, List.length_cons, List.length_cons, List.length_flatMap,
    lengths]
  omega

/-- The path to the left of an argument of `expr/0`. -/
def argumentLeft (position : Option UInt64) : Path :=
  ⟨⟨"expr", by decide⟩, 0, [⟨⟨"argument", by decide⟩, position⟩, ⟨⟨"left", by decide⟩, none⟩]⟩

theorem Path.address_unambiguous_position :
    Address.read "expr/0/argument/11/left" = .ok (argumentLeft (some 11)).address ∧
      (argumentLeft (some 11)).address.depth = 3 ∧ argumentLeft (some 11) ≠ argumentLeft none ∧
      (argumentLeft (some 11)).address ≠ (argumentLeft none).address := by
  have written : (argumentLeft (some 11)).address.text = "expr/0/argument/11/left" := by decide +kernel
  obtain ⟨read, depth, different⟩ := address_unambiguous (argumentLeft (some 11))
  rw [written] at read
  have other : argumentLeft (some 11) ≠ argumentLeft none := by decide
  exact ⟨read, depth, other, different _ other⟩

/-- Reading accepts the texts that spell a path, each spells one path only, and it is the address of that
path exactly if no position has a plus sign or a zero too many. -/
theorem Address.read_spellings (text : String) :
    (∀ a, read text = .ok a ↔ a = ⟨text⟩ ∧ ∃ p : Path, p.SpelledBy text) ∧
      (∀ p q : Path, p.SpelledBy text → q.SpelledBy text → p = q) ∧
      ∀ p : Path, p.SpelledBy text →
        (text = p.address.text ↔ ∀ segment ∈ splitSegments text.toList, Plain segment) :=
  ⟨fun _ => read_eq_ok_iff, fun _ _ => Path.SpelledBy.unique, fun _ => Path.SpelledBy.eq_iff⟩

/-- The texts of one path: a plus sign and zeros are read, and the address is what stands without them. -/
theorem Address.read_spellings_padded :
    (argumentLeft (some 11)).SpelledBy "expr/+00/argument/0011/left" ∧
      Address.read "expr/+00/argument/0011/left" = .ok ⟨"expr/+00/argument/0011/left"⟩ ∧
      (∀ q : Path, q.SpelledBy "expr/+00/argument/0011/left" → argumentLeft (some 11) = q) ∧
      "expr/+00/argument/0011/left" ≠ (argumentLeft (some 11)).address.text := by
  obtain ⟨accepts, unique, plain⟩ := read_spellings "expr/+00/argument/0011/left"
  have cut : splitSegments "expr/+00/argument/0011/left".toList =
      ["expr".toList, "+00".toList, "argument".toList, "0011".toList, "left".toList] := by decide +kernel
  have spelled : (argumentLeft (some 11)).SpelledBy "expr/+00/argument/0011/left" :=
    Path.spelledBy_iff.mpr ⟨_, _, cut, by decide,
      .label rfl (.position (by decide) (.label rfl .done))⟩
  refine ⟨spelled, (accepts _).mpr ⟨rfl, _, spelled⟩, fun q => unique _ q spelled, fun same => ?_⟩
  have member : "+00".toList ∈ splitSegments "expr/+00/argument/0011/left".toList := by
    rw [cut]
    exact .tail _ (.head _)
  exact absurd ((plain _ spelled).mp same _ member) (by decide)

/-- A text that is read and is the address of no path; it spells a path that `expr/1` spells as well. -/
theorem Address.read_plus :
    read "expr/+1" = .ok ⟨"expr/+1"⟩ ∧ (∀ p : Path, p.address.text ≠ "expr/+1") ∧
      ∃ p : Path, p.SpelledBy "expr/+1" ∧ p.SpelledBy "expr/1" := by
  refine ⟨by decide +kernel, fun p same => ?_, ⟨⟨"expr", by decide⟩, 1, []⟩, ?_, ?_⟩
  · have cut : p.segments = ["expr".toList, "+1".toList] := by
      rw [← p.segments_address, segments, same]
      decide +kernel
    have plus : '+' ∈ positionDigits p.index := by
      rw [(List.cons.inj (List.cons.inj cut).2).1]
      decide
    exact absurd (isDigit_of_mem_positionDigits plus) (by decide)
  · exact Path.spelledBy_iff.mpr ⟨"+1".toList, [], by decide +kernel, by decide, .done⟩
  · exact Path.spelledBy_iff.mpr ⟨"1".toList, [], by decide +kernel, by decide, .done⟩

end SyntaxGraph
