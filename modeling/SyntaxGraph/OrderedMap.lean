import Std.Data.TreeMap

/-!
# Finite maps in rising key order

Nodes, scope frames and JSON encodings all show their entries sorted by key. An
`OrderedMap` keeps that order in its type, so two maps with the same entries are
equal and an encoder can list them as they stand.
-/

namespace SyntaxGraph

/-- An order that compares by a key is transitive if the order of the keys is. -/
theorem transOrd_of_key {α β : Type} [Ord α] [Ord β] [Std.TransOrd β] (key : α → β)
    (h : ∀ a b : α, compare a b = compare (key a) (key b)) : Std.TransOrd α where
  eq_swap := fun {a b} => by rw [h, h]; exact Std.OrientedOrd.eq_swap
  isLE_trans := fun {a b c} => by rw [h, h, h]; exact Std.TransCmp.isLE_trans

/-- An order that compares by an injective key tells different elements apart. -/
theorem lawfulEqOrd_of_key {α β : Type} [Ord α] [Ord β] [Std.LawfulEqOrd β] (key : α → β)
    (h : ∀ a b : α, compare a b = compare (key a) (key b))
    (injective : ∀ a b : α, key a = key b → a = b) : Std.LawfulEqOrd α where
  compare_self := fun {a} => by rw [h]; exact Std.ReflCmp.compare_self
  eq_of_compare := fun {a b} hab => by
    rw [h] at hab; exact injective a b (Std.LawfulEqOrd.eq_of_compare hab)

/-- A finite map whose entries stand in strictly rising key order. -/
structure OrderedMap (κ : Type) [Ord κ] (α : Type) where
  /-- The entries, least key first. -/
  entries : List (κ × α)
  /-- Keys rise strictly, so no key stands twice. -/
  rising : entries.Pairwise fun a b => compare a.1 b.1 = .lt

namespace OrderedMap

variable {κ : Type} [Ord κ] {α β : Type}

def empty : OrderedMap κ α := ⟨[], .nil⟩

instance : EmptyCollection (OrderedMap κ α) := ⟨empty⟩

instance : Inhabited (OrderedMap κ α) := ⟨empty⟩

@[ext] theorem ext {m n : OrderedMap κ α} (h : m.entries = n.entries) : m = n := by
  cases m; cases n; cases h; rfl

instance [DecidableEq κ] [DecidableEq α] : DecidableEq (OrderedMap κ α) := fun m n =>
  decidable_of_iff (m.entries = n.entries) ⟨ext, fun h => h ▸ rfl⟩

/-- Put an entry at its place, replacing an entry of the same key. -/
def insertEntry (key : κ) (value : α) : List (κ × α) → List (κ × α)
  | [] => [(key, value)]
  | entry :: rest =>
    match compare key entry.1 with
    | .lt => (key, value) :: entry :: rest
    | .eq => (key, value) :: rest
    | .gt => entry :: insertEntry key value rest

theorem mem_insertEntry {key : κ} {value : α} {entries : List (κ × α)} {x : κ × α}
    (h : x ∈ insertEntry key value entries) : x = (key, value) ∨ x ∈ entries := by
  induction entries with
  | nil => simpa [insertEntry] using h
  | cons entry rest ih =>
    unfold insertEntry at h
    split at h
    · simpa using h
    · rcases List.mem_cons.1 h with h | h
      · exact .inl h
      · exact .inr (List.mem_cons_of_mem _ h)
    · rcases List.mem_cons.1 h with h | h
      · exact .inr (h ▸ List.mem_cons_self)
      · exact (ih h).imp id (List.mem_cons_of_mem _)

/-- Insertion keeps the keys rising. -/
theorem rising_insertEntry [Std.TransOrd κ] (key : κ) (value : α) {entries : List (κ × α)}
    (h : entries.Pairwise fun a b => compare a.1 b.1 = .lt) :
    (insertEntry key value entries).Pairwise fun a b => compare a.1 b.1 = .lt := by
  induction entries with
  | nil => exact List.pairwise_singleton _ _
  | cons entry rest ih =>
    have hrest := List.pairwise_cons.1 h
    unfold insertEntry
    split
    · rename_i hlt
      refine List.pairwise_cons.2 ⟨fun x hx => ?_, h⟩
      rcases List.mem_cons.1 hx with rfl | hx
      · exact hlt
      · exact Std.TransCmp.lt_trans hlt (hrest.1 x hx)
    · rename_i heq
      exact List.pairwise_cons.2
        ⟨fun x hx => Std.TransCmp.lt_of_eq_of_lt heq (hrest.1 x hx), hrest.2⟩
    · rename_i hgt
      refine List.pairwise_cons.2 ⟨fun x hx => ?_, ih hrest.2⟩
      rcases mem_insertEntry hx with rfl | hx
      · exact Std.OrientedCmp.lt_of_gt hgt
      · exact hrest.1 x hx

def insert [Std.TransOrd κ] (m : OrderedMap κ α) (key : κ) (value : α) : OrderedMap κ α :=
  ⟨insertEntry key value m.entries, rising_insertEntry key value m.rising⟩

def erase (m : OrderedMap κ α) (key : κ) : OrderedMap κ α :=
  ⟨m.entries.filter fun entry => compare key entry.1 != .eq, m.rising.filter _⟩

def get? (m : OrderedMap κ α) (key : κ) : Option α :=
  (m.entries.find? fun entry => compare key entry.1 == .eq).map (·.2)

def contains (m : OrderedMap κ α) (key : κ) : Bool := (m.get? key).isSome

def keys (m : OrderedMap κ α) : List κ := m.entries.map (·.1)

/-- The values in the order of their keys. -/
def values (m : OrderedMap κ α) : List α := m.entries.map (·.2)

def size (m : OrderedMap κ α) : Nat := m.entries.length

def isEmpty (m : OrderedMap κ α) : Bool := m.entries.isEmpty

/-- The map of a list of entries; of two with one key the later stands. -/
def ofList [Std.TransOrd κ] (entries : List (κ × α)) : OrderedMap κ α :=
  entries.foldl (fun m entry => m.insert entry.1 entry.2) empty

/-! ## What each operation does to look-ups -/

@[simp] theorem get?_empty (key : κ) : (∅ : OrderedMap κ α).get? key = none := rfl

theorem find?_insertEntry [Std.TransOrd κ] (key other : κ) (value : α) (entries : List (κ × α)) :
    ((insertEntry key value entries).find? fun entry => compare other entry.1 == .eq).map (·.2) =
      if compare other key = .eq then some value
      else (entries.find? fun entry => compare other entry.1 == .eq).map (·.2) := by
  induction entries with
  | nil => by_cases h : compare other key = .eq <;> simp [insertEntry, h]
  | cons entry rest ih =>
    unfold insertEntry
    split
    · by_cases h : compare other key = .eq <;> simp [List.find?_cons, h]
    · rename_i heq
      have hcongr : compare other key = compare other entry.1 := Std.TransCmp.congr_right heq
      by_cases h : compare other key = .eq <;> simp [← hcongr, h]
    · rename_i hgt
      by_cases hentry : compare other entry.1 = .eq
      · have hne : compare other key ≠ .eq := fun h => by
          rw [Std.TransCmp.congr_left h, hgt] at hentry
          cases hentry
        simp [hentry, hne]
      · simpa [List.find?_cons, hentry] using ih

/-- After an insertion the key has the new value, and every other key has the value it had. -/
theorem get?_insert [Std.TransOrd κ] (m : OrderedMap κ α) (key other : κ) (value : α) :
    (m.insert key value).get? other =
      if compare other key = .eq then some value else m.get? other :=
  find?_insertEntry key other value m.entries

@[simp] theorem get?_insert_self [Std.TransOrd κ] (m : OrderedMap κ α) (key : κ) (value : α) :
    (m.insert key value).get? key = some value := by
  simp [get?_insert, Std.ReflCmp.compare_self]

/-- Only the erased key loses its value. -/
theorem get?_erase [Std.TransOrd κ] (m : OrderedMap κ α) (key other : κ) :
    (m.erase key).get? other = if compare other key = .eq then none else m.get? other := by
  unfold get? erase
  rw [List.find?_filter]
  by_cases h : compare other key = .eq
  · have hcongr : ∀ k : κ, compare other k = compare key k := fun _ => Std.TransCmp.congr_left h
    simp [h, hcongr]
  · have hkeep : ∀ entry : κ × α, compare other entry.1 = .eq → compare key entry.1 ≠ .eq :=
      fun entry hother hkey => h (by rw [Std.TransCmp.congr_right hkey]; exact hother)
    rw [if_neg h]
    congr 2
    funext entry
    by_cases hother : compare other entry.1 = .eq
    · simp [hother, hkeep entry hother]
    · simp [hother]

/-- A key has a value exactly if the two stand among the entries. -/
theorem get?_eq_some_iff [Std.LawfulEqOrd κ] (m : OrderedMap κ α) (key : κ) (value : α) :
    m.get? key = some value ↔ (key, value) ∈ m.entries := by
  obtain ⟨entries, rising⟩ := m
  show (entries.find? fun entry => compare key entry.1 == .eq).map (·.2) = some value ↔
    (key, value) ∈ entries
  induction entries with
  | nil => simp
  | cons entry rest ih =>
    have hrest := List.pairwise_cons.1 rising
    by_cases hkey : key = entry.1
    · subst hkey
      have hnot : (entry.1, value) ∉ rest := fun h => by
        have hlt := hrest.1 _ h
        simp [Std.ReflCmp.compare_self] at hlt
      simp [Std.ReflCmp.compare_self, hnot, Prod.ext_iff, eq_comm]
    · have hne : compare key entry.1 ≠ .eq := fun h => hkey (Std.LawfulEqOrd.eq_of_compare h)
      have hentry : (key, value) ≠ entry := fun h => hkey (congrArg Prod.fst h)
      simpa [List.find?_cons, hne, hentry] using ih hrest.2

end OrderedMap

/-- A finite set listed in rising order. -/
abbrev OrderedSet (κ : Type) [Ord κ] := OrderedMap κ Unit

namespace OrderedSet

variable {κ : Type} [Ord κ] [Std.TransOrd κ]

def add (s : OrderedSet κ) (key : κ) : OrderedSet κ := s.insert key ()

/-- The members of a list, each once. -/
def ofMembers (members : List κ) : OrderedSet κ := members.foldl add OrderedMap.empty

end OrderedSet

end SyntaxGraph
