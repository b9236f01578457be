import Mathlib.Tactic.ByContra
import Std.Data.String.ToNat
import SyntaxGraph.Node.Relation

/-!
# Addresses as paths

An address lies within another if its text goes on with a slash. On texts of any form
this is a partial order, and two addresses with a common address below them are
comparable. Parts of one node stand in slots: a role and, where a role has several
targets, a position. Different slots of a node never meet further down, because no
label and no position has a slash in it. This is all that later proofs use of the
spelling of addresses.
-/

namespace SyntaxGraph

namespace Address

theorem ext_toList {a b : Address} (same : a.text.toList = b.text.toList) : a = b := by
  cases a
  cases b
  exact congrArg mk (String.ext same)

/-- Within means equal, or longer by a slash and whatever follows it. -/
theorem isWithin_iff {a b : Address} :
    a.isWithin b = true ↔ a = b ∨ ∃ rest, a.text.toList = b.text.toList ++ '/' :: rest := by
  simp only [isWithin, Bool.or_eq_true, Bool.and_eq_true, beq_iff_eq, List.isPrefixOf_iff_prefix]
  constructor
  · rintro (same | ⟨⟨rest, text⟩, slash⟩)
    · exact .inl (ext_toList same)
    · rw [← text, List.drop_left] at slash
      obtain ⟨tail, rfl⟩ := List.head?_eq_some_iff.mp slash
      exact .inr ⟨tail, text.symm⟩
  · rintro (rfl | ⟨rest, text⟩)
    · exact .inl rfl
    · exact .inr ⟨⟨'/' :: rest, text.symm⟩, by rw [text, List.drop_left]; rfl⟩

@[simp] theorem isWithin_self (a : Address) : a.isWithin a = true := isWithin_iff.mpr (.inl rfl)

theorem isWithin_trans {a b c : Address} (first : a.isWithin b = true)
    (second : b.isWithin c = true) : a.isWithin c = true := by
  rcases isWithin_iff.mp first with rfl | ⟨r, hr⟩
  · exact second
  · rcases isWithin_iff.mp second with rfl | ⟨q, hq⟩
    · exact first
    · exact isWithin_iff.mpr (.inr ⟨q ++ '/' :: r, by rw [hr, hq, List.append_assoc]; rfl⟩)

theorem isWithin_antisymm {a b : Address} (first : a.isWithin b = true)
    (second : b.isWithin a = true) : a = b := by
  rcases isWithin_iff.mp first with same | ⟨r, hr⟩
  · exact same
  · rcases isWithin_iff.mp second with same | ⟨q, hq⟩
    · exact same.symm
    · have lengths := congrArg List.length (hr.trans (congrArg (· ++ '/' :: r) hq))
      simp only [List.length_append, List.length_cons] at lengths
      omega

theorem child_isWithin (a : Address) (label : String) : (a.child label).isWithin a = true :=
  isWithin_iff.mpr (.inr ⟨label.toList, by simp [child]⟩)

theorem indexed_isWithin (a : Address) (label : String) (index : Nat) :
    (a.indexed label index).isWithin a = true :=
  isWithin_iff.mpr (.inr ⟨label.toList ++ '/' :: (toString index).toList, by simp [indexed]⟩)

/-- The shorter of two texts that start one text starts the longer one, and ends there where a
segment ends. -/
theorem isWithin_of_length_le {a b c : Address} (first : a.isWithin b = true)
    (second : a.isWithin c = true) (shorter : b.text.toList.length ≤ c.text.toList.length) :
    c.isWithin b = true := by
  rcases isWithin_iff.mp second with rfl | ⟨q, hq⟩
  · exact first
  rcases isWithin_iff.mp first with rfl | ⟨r, hr⟩
  · have lengths := congrArg List.length hq
    simp only [List.length_append, List.length_cons] at lengths
    omega
  obtain ⟨gap, hgap⟩ : b.text.toList <+: c.text.toList :=
    List.prefix_of_prefix_length_le ⟨_, hr.symm⟩ ⟨_, hq.symm⟩ shorter
  have both : b.text.toList ++ '/' :: r = b.text.toList ++ (gap ++ '/' :: q) := by
    rw [← hr, hq, ← hgap, List.append_assoc]
  cases gap with
  | nil => exact isWithin_iff.mpr (.inl (ext_toList (by simpa using hgap.symm)))
  | cons head tail =>
      have slash := (List.cons.inj (List.append_cancel_left both)).1
      exact isWithin_iff.mpr (.inr ⟨tail, by rw [slash]; exact hgap.symm⟩)

/-- Two addresses with a common address below them are comparable. -/
theorem isWithin_or_isWithin {a b c : Address} (first : a.isWithin b = true)
    (second : a.isWithin c = true) : b.isWithin c = true ∨ c.isWithin b = true := by
  rcases Nat.le_total c.text.toList.length b.text.toList.length with shorter | shorter
  · exact .inl (isWithin_of_length_le second first shorter)
  · exact .inr (isWithin_of_length_le first second shorter)

/-- Neither address lies within the other. -/
def Apart (a b : Address) : Prop := a.isWithin b = false ∧ b.isWithin a = false

theorem Apart.symm {a b : Address} (apart : a.Apart b) : b.Apart a := ⟨apart.2, apart.1⟩

/-- Nothing lies within two addresses that are apart. -/
theorem Apart.not_isWithin {a b c : Address} (apart : a.Apart b) (first : c.isWithin a = true) :
    c.isWithin b = false := by
  by_contra second
  rw [Bool.not_eq_false] at second
  rcases isWithin_or_isWithin first second with h | h
  · exact Bool.false_ne_true (apart.1.symm.trans h)
  · exact Bool.false_ne_true (apart.2.symm.trans h)

theorem Apart.ne_of_isWithin {a b c d : Address} (apart : a.Apart b)
    (first : c.isWithin a = true) (second : d.isWithin b = true) : c ≠ d := by
  rintro rfl
  exact Bool.false_ne_true ((apart.not_isWithin first).symm.trans second)

/-- Addresses below two that are apart are apart. -/
theorem Apart.mono {a b c d : Address} (apart : a.Apart b)
    (first : c.isWithin a = true) (second : d.isWithin b = true) : c.Apart d := by
  constructor
  · by_contra within
    rw [Bool.not_eq_false] at within
    exact apart.ne_of_isWithin first (isWithin_trans within second) rfl
  · by_contra within
    rw [Bool.not_eq_false] at within
    exact apart.ne_of_isWithin (isWithin_trans within first) second rfl

end Address

namespace Role

theorem slash_notMem_label (role : Role) : '/' ∉ role.label.toList := by
  cases role <;> decide

/-- A role is the first one with its label. -/
theorem find?_label (role : Role) : (all.find? fun other => other.label == role.label) = some role := by
  cases role <;> decide

theorem label_injective {a b : Role} (same : a.label = b.label) : a = b := by
  have found := find?_label a
  rw [same, find?_label b] at found
  exact (Option.some.inj found).symm

end Role

/-- The place of a part at a node: its role, and its position if the role numbers its targets. -/
abbrev Slot := Role × Option Nat

/-- The address of the part in a slot. -/
def Address.at (site : Address) (slot : Slot) : Address := site.below slot.1.label slot.2

namespace Slot

/-- What a slot adds to the text of an address, behind a slash. -/
def steps (slot : Slot) : List Char :=
  slot.1.label.toList ++ match slot.2 with
    | none => []
    | some index => '/' :: (toString index).toList

/-- Slots of different roles, or at different positions of one role. -/
def Apart (p q : Slot) : Prop :=
  p.1 ≠ q.1 ∨ ∃ i j, p.2 = some i ∧ q.2 = some j ∧ i ≠ j

theorem Apart.symm {p q : Slot} (apart : p.Apart q) : q.Apart p := by
  rcases apart with roles | ⟨i, j, hi, hj, distinct⟩
  · exact .inl roles.symm
  · exact .inr ⟨j, i, hj, hi, distinct.symm⟩

end Slot

namespace Address

theorem toList_at (site : Address) (slot : Slot) :
    (site.at slot).text.toList = site.text.toList ++ '/' :: slot.steps := by
  obtain ⟨role, position⟩ := slot
  cases position <;>
    simp [Address.at, below, child, indexed, Slot.steps]

theorem at_isWithin (site : Address) (slot : Slot) : (site.at slot).isWithin site = true :=
  isWithin_iff.mpr (.inr ⟨slot.steps, site.toList_at slot⟩)

theorem at_ne (site : Address) (slot : Slot) : site.at slot ≠ site := by
  intro same
  have lengths := congrArg (fun a : Address => a.text.toList.length) same
  simp only [toList_at, List.length_append, List.length_cons] at lengths
  omega

theorem not_isWithin_at (site : Address) (slot : Slot) : site.isWithin (site.at slot) = false := by
  by_contra within
  rw [Bool.not_eq_false] at within
  exact site.at_ne slot (isWithin_antisymm (site.at_isWithin slot) within)

/-- A slash ends the first of two pieces that have none. -/
theorem append_slash_inj {p q r s : List Char} (hp : '/' ∉ p) (hq : '/' ∉ q)
    (same : p ++ '/' :: r = q ++ '/' :: s) : p = q ∧ r = s := by
  induction p generalizing q with
  | nil =>
      cases q with
      | nil => exact ⟨rfl, (List.cons.inj same).2⟩
      | cons c q => exact absurd (by rw [(List.cons.inj same).1]; exact List.mem_cons_self) hq
  | cons c p ih =>
      cases q with
      | nil => exact absurd (by rw [← (List.cons.inj same).1]; exact List.mem_cons_self) hp
      | cons d q =>
          obtain ⟨rfl, rest⟩ := List.cons.inj same
          obtain ⟨rfl, tails⟩ := ih (fun h => hp (List.mem_cons_of_mem _ h))
            (fun h => hq (List.mem_cons_of_mem _ h)) rest
          exact ⟨rfl, tails⟩

theorem slash_notMem_toString (index : Nat) : '/' ∉ (toString index).toList := by
  intro member
  rw [show toString index = index.repr from rfl, Nat.toList_repr] at member
  have digit := Nat.isDigit_of_mem_toDigits (by decide) (by decide) member
  exact absurd digit (by decide)

theorem steps_append_slash (slot : Slot) (more : List Char) :
    slot.steps ++ '/' :: more = slot.1.label.toList ++ '/' :: match slot.2 with
      | none => more
      | some index => (toString index).toList ++ '/' :: more := by
  obtain ⟨role, position⟩ := slot
  cases position <;> simp [Slot.steps]

/-- What a slot adds, up to a slash, determines its role and its position. -/
theorem steps_slash_inj {p q : Slot} {more : List Char}
    (same : p.steps ++ ['/'] = q.steps ++ '/' :: more) :
    p.1 = q.1 ∧ ∀ i j, p.2 = some i → q.2 = some j → i = j := by
  rw [steps_append_slash, steps_append_slash] at same
  obtain ⟨labels, positions⟩ :=
    append_slash_inj p.1.slash_notMem_label q.1.slash_notMem_label same
  refine ⟨Role.label_injective (String.ext labels), ?_⟩
  intro i j hi hj
  rw [hi, hj] at positions
  have digits := (append_slash_inj (slash_notMem_toString i) (slash_notMem_toString j) positions).1
  exact Nat.repr_injective (String.ext digits)

theorem not_isWithin_of_apart {site : Address} {p q : Slot} (apart : p.Apart q) :
    (site.at p).isWithin (site.at q) = false := by
  by_contra within
  rw [Bool.not_eq_false] at within
  have longer : ∃ more, p.steps ++ ['/'] = q.steps ++ '/' :: more := by
    rcases isWithin_iff.mp within with same | ⟨rest, text⟩
    · have texts := congrArg (fun a : Address => a.text.toList) same
      simp only [toList_at] at texts
      exact ⟨[], by rw [(List.cons.inj (List.append_cancel_left texts)).2]⟩
    · rw [toList_at, toList_at, List.append_assoc] at text
      exact ⟨rest ++ ['/'], by rw [(List.cons.inj (List.append_cancel_left text)).2]; simp⟩
  obtain ⟨more, same⟩ := longer
  obtain ⟨role, position⟩ := steps_slash_inj same
  rcases apart with roles | ⟨i, j, hi, hj, distinct⟩
  · exact roles role
  · exact distinct (position i j hi hj)

/-- Different slots of a node lead to parts that never meet. -/
theorem at_apart (site : Address) {p q : Slot} (apart : p.Apart q) :
    (site.at p).Apart (site.at q) :=
  ⟨not_isWithin_of_apart apart, not_isWithin_of_apart apart.symm⟩

end Address

end SyntaxGraph
