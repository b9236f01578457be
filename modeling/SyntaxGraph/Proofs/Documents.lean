import Mathlib.Data.List.TakeDrop
import SyntaxGraph.Proofs.Spellings
import SyntaxGraph.Toml.Reader

/-!
# Tables of numbers

The simplest document is one table of natural numbers: its header, and a line for every number with
a bare key in front. Such a document reads back as the table. Nothing in it can be taken for
anything else: a bare key ends at the first character that no key holds, a row of digits is no
moment because the marks of a moment are missing, and it is an integer because only zero starts with
a zero.
-/

namespace SyntaxGraph.Toml

variable {c mark : Char} {name digits rest input : List Char} {n count least greatest : Nat}

/-- A character of a kind is no mark of another. -/
theorem ne_of_kind {p : Char → Bool} (inside : p c = true) (outside : p mark = false) : c ≠ mark := by
  rintro rfl
  exact Bool.false_ne_true (outside.symm.trans inside)

/-! ## Bare keys -/

/-- A key that needs no quotes. -/
def isBareKey (name : List Char) : Bool := !name.isEmpty && name.all isBare

theorem isBareKey_iff : isBareKey name = true ↔ name ≠ [] ∧ ∀ c ∈ name, isBare c = true := by
  simp [isBareKey]

/-- A bare key, taken apart. -/
theorem isBareKey.exists_cons (key : isBareKey name = true) :
    ∃ c more, name = c :: more ∧ isBare c = true := by
  obtain ⟨some, bare⟩ := isBareKey_iff.mp key
  obtain ⟨c, more, rfl⟩ := List.exists_cons_of_ne_nil some
  exact ⟨c, more, rfl, bare c List.mem_cons_self⟩

theorem isBare_of_isDigit (digit : c.isDigit = true) : isBare c = true := by
  simp [isBare, Char.isAlphanum, digit]

theorem skipBlanks_bare (bare : isBare c = true) : skipBlanks (c :: rest) = c :: rest := by
  have space : c ≠ ' ' := ne_of_kind bare (by decide)
  have tab : c ≠ '\t' := ne_of_kind bare (by decide)
  simp [skipBlanks, isBlank, space, tab]

theorem span_all {p : Char → Bool} (each : ∀ c ∈ name, p c = true)
    (ends : ∀ c ∈ rest.head?, p c = false) : (name ++ rest).span p = (name, rest) := by
  rw [List.span_eq_takeWhile_dropWhile]
  induction name with
  | nil =>
      cases rest with
      | nil => rfl
      | cons c rest => simp [ends c rfl]
  | cons c name ih =>
      have more := ih fun d member => each d (List.mem_cons_of_mem _ member)
      simp only [Prod.mk.injEq] at more
      simp [each c List.mem_cons_self, more]

theorem readKeyPart_bare (key : isBareKey name = true) (ends : ∀ c ∈ rest.head?, isBare c = false) :
    readKeyPart (name ++ rest) = some (String.ofList name, rest) := by
  obtain ⟨-, bare⟩ := isBareKey_iff.mp key
  have parted := span_all bare ends
  obtain ⟨c, more, rfl, first⟩ := isBareKey.exists_cons key
  have quote : c ≠ '"' := ne_of_kind first (by decide)
  have apostrophe : c ≠ '\'' := ne_of_kind first (by decide)
  rw [List.cons_append] at parted ⊢
  unfold readKeyPart
  split
  · exact absurd (List.cons.inj ‹_›).1 quote
  · exact absurd (List.cons.inj ‹_›).1 apostrophe
  · rw [parted]

/-- A bare key is read up to the mark behind it. -/
theorem readKey_bare (key : isBareKey name = true) (ends : ∀ c ∈ rest.head?, isBare c = false)
    (undotted : (skipBlanks rest).head? ≠ some '.') :
    readKey (name ++ rest) = some (([], String.ofList name), skipBlanks rest) := by
  have part := readKeyPart_bare key ends
  obtain ⟨c, more, rfl, first⟩ := isBareKey.exists_cons key
  rw [List.cons_append] at part ⊢
  rw [readKey, show greatestNesting = 78 + 1 from rfl, readParts, skipBlanks_bare first, part]
  dsimp only
  split
  · rename_i dotted
    rw [dotted] at undotted
    exact absurd rfl undotted
  · rfl

/-! ## Numbers -/

theorem isDigit_of_mem_toDigits (member : c ∈ Nat.toDigits 10 n) : c.isDigit = true :=
  Nat.isDigit_of_mem_toDigits (by decide) (by decide) member

/-- The digits of a number, taken apart. -/
theorem exists_cons_toDigits (n : Nat) :
    ∃ c more, Nat.toDigits 10 n = c :: more ∧ c.isDigit = true := by
  obtain ⟨c, more, cut⟩ := List.exists_cons_of_ne_nil (Nat.toDigits_ne_nil (n := n) (b := 10))
  exact ⟨c, more, cut, isDigit_of_mem_toDigits (n := n) (cut ▸ List.mem_cons_self)⟩

/-- A number of fixed width leaves digits in front of the line break. -/
theorem readNumber_digits {value : Nat} {left : List Char} (each : ∀ c ∈ digits, c.isDigit = true)
    (read : readNumber count least greatest (digits ++ '\n' :: rest) = some (value, left)) :
    ∃ more, (∀ c ∈ more, c.isDigit = true) ∧ left = more ++ '\n' :: rest := by
  rw [readNumber, List.splitAt_eq] at read
  dsimp only at read
  split at read
  · rename_i fits
    simp only [Bool.and_eq_true, decide_eq_true_eq, List.all_eq_true] at fits
    have inside : count ≤ digits.length := by
      by_contra beyond
      have behind : '\n' ∈ (digits ++ '\n' :: rest).take count := by
        rw [List.take_append, List.mem_append]
        refine .inr ?_
        obtain ⟨further, wide⟩ := Nat.exists_eq_succ_of_ne_zero (by omega : count - digits.length ≠ 0)
        rw [wide, List.take_succ_cons]
        exact List.mem_cons_self
      exact absurd (fits.1.1.2 _ behind) (by decide)
    obtain ⟨-, rfl⟩ := Prod.mk.inj (Option.some.inj read)
    refine ⟨digits.drop count, fun c member => each c (List.mem_of_mem_drop member), ?_⟩
    exact List.drop_append_of_le_length inside
  · cases read

theorem readMark_digits (each : ∀ c ∈ digits, c.isDigit = true) (mark : Char)
    (other : mark.isDigit = false) (inLine : mark ≠ '\n') :
    readMark mark (digits ++ '\n' :: rest) = none := by
  cases digits with
  | nil => exact if_neg inLine.symm
  | cons c digits => exact if_neg (ne_of_kind (each c List.mem_cons_self) other)

/-- Digits up to the end of a line are no moment: the marks between its numbers are missing. -/
theorem readMoment_digits (each : ∀ c ∈ digits, c.isDigit = true) :
    readMoment (digits ++ '\n' :: rest) = none := by
  have date : readDate (digits ++ '\n' :: rest) = none := by
    rw [readDate]
    cases year : readNumber 4 0 9999 (digits ++ '\n' :: rest) with
    | none => rfl
    | some read =>
        obtain ⟨more, each', rest'⟩ := readNumber_digits each year
        simp [rest', readMark_digits each' '-' (by decide) (by decide)]
  have time : readTime (digits ++ '\n' :: rest) = none := by
    rw [readTime, readMinute]
    cases hour : readNumber 2 0 23 (digits ++ '\n' :: rest) with
    | none => rfl
    | some read =>
        obtain ⟨more, each', rest'⟩ := readNumber_digits each hour
        simp [rest', readMark_digits each' ':' (by decide) (by decide)]
  rw [readMoment, date, time]
  rfl

theorem digits?_self (some : digits ≠ []) (each : ∀ c ∈ digits, c.isDigit = true) :
    digits? Char.isDigit digits = .some digits := by
  induction digits with
  | nil => exact absurd rfl some
  | cons c digits ih =>
      have first := each c List.mem_cons_self
      cases digits with
      | nil => simp [digits?, first]
      | cons d digits =>
          have second := each d (List.mem_cons_of_mem _ List.mem_cons_self)
          have plain : d ≠ '_' := ne_of_kind second (by decide)
          have more := ih (List.cons_ne_nil _ _) fun e member => each e (List.mem_cons_of_mem _ member)
          rw [digits?.eq_4 _ _ _ (by simp) (by simpa using plain), if_pos first, more]
          rfl

theorem hexValue?_digit (digit : c.isDigit = true) : Text.hexValue? c = some (c.toNat - '0'.toNat) :=
  if_pos digit

theorem natural_toDigits (n : Nat) : natural 10 (Nat.toDigits 10 n) = n := by
  have value : Nat.ofDigitChars 10 (Nat.toDigits 10 n) 0 = n := Nat.ofDigitChars_ten_toDigits
  rw [Nat.ofDigitChars_eq_foldl] at value
  rw [natural]
  refine Eq.trans (List.foldl_ext _ _ _ fun start c member => ?_) value
  rw [hexValue?_digit (isDigit_of_mem_toDigits member), Option.getD_some, Nat.mul_comm]

theorem decimal?_toDigits (n : Nat) : decimal? (Nat.toDigits 10 n) = some n := by
  have whole := digits?_self (Nat.toDigits_ne_nil (n := n) (b := 10)) fun c => isDigit_of_mem_toDigits
  rw [decimal?, whole]
  split
  · rename_i zero
    have none : n = 0 := Address.head?_toDigits (by rw [Option.some.inj zero]; rfl)
    subst none
    cases zero
  · rename_i same
    rw [← Option.some.inj same, natural_toDigits]
  · rename_i absurd
    cases absurd

theorem bounded?_natCast (bounded : n < Nat.pow 2 63) : bounded? n = some (.integer n) := by
  have power : Int.pow 2 63 = (Nat.pow 2 63 : Nat) := (Int.natCast_pow 2 63).symm
  have inside : -Int.pow 2 63 ≤ (n : Int) ∧ (n : Int) < Int.pow 2 63 := by
    rw [power]
    generalize Nat.pow 2 63 = bound at bounded
    omega
  rw [bounded?, if_pos]
  simpa using inside

theorem integer?_toDigits (bounded : n < Nat.pow 2 63) :
    integer? (Nat.toDigits 10 n) = some (.integer n) := by
  have marked : ∀ mark, mark.isDigit = false → mark ∉ Nat.toDigits 10 n := fun mark other member =>
    ne_of_kind (isDigit_of_mem_toDigits member) other rfl
  have sign : splitSign (Nat.toDigits 10 n) = (false, Nat.toDigits 10 n) := by
    unfold splitSign
    split
    · rename_i same
      exact absurd (same ▸ List.mem_cons_self) (marked '-' (by decide))
    · rename_i same
      exact absurd (same ▸ List.mem_cons_self) (marked '+' (by decide))
    · rfl
  unfold integer?
  dsimp only
  split
  · rename_i same
    exact absurd (same ▸ List.mem_cons_of_mem _ List.mem_cons_self) (marked 'x' (by decide))
  · rename_i same
    exact absurd (same ▸ List.mem_cons_of_mem _ List.mem_cons_self) (marked 'o' (by decide))
  · rename_i same
    exact absurd (same ▸ List.mem_cons_of_mem _ List.mem_cons_self) (marked 'b' (by decide))
  · rw [sign]
    dsimp only
    rw [decimal?_toDigits, Option.bind_some, if_neg Bool.false_ne_true]
    exact bounded?_natCast bounded

theorem token?_toDigits (bounded : n < Nat.pow 2 63) :
    token? (Nat.toDigits 10 n) = some (.integer n) := by
  have first : ∀ mark, mark.isDigit = false → ∀ more, Nat.toDigits 10 n ≠ mark :: more := by
    intro mark other more same
    obtain ⟨c, digits, cut, digit⟩ := exists_cons_toDigits n
    exact ne_of_kind digit other (List.cons.inj (cut.symm.trans same)).1
  rw [token?, if_neg (first 't' (by decide) _), if_neg (first 'f' (by decide) _),
    integer?_toDigits bounded]

theorem readScalar_toDigits (bounded : n < Nat.pow 2 63) :
    readScalar (Nat.toDigits 10 n ++ '\n' :: rest) = some (.integer n, '\n' :: rest) := by
  have token : ∀ c ∈ Nat.toDigits 10 n, isTokenChar c = true := fun c member => by
    simp [isTokenChar, isBare_of_isDigit (isDigit_of_mem_toDigits member)]
  rw [readScalar, readMoment_digits fun c => isDigit_of_mem_toDigits, span_all token (by simp; decide)]
  dsimp only
  rw [token?_toDigits bounded]
  rfl

/-- A number at the end of a line is read as an integer. -/
theorem readValue_toDigits (bounded : n < Nat.pow 2 63) (fuel room : Nat) :
    readValue (fuel + 1) room (Nat.toDigits 10 n ++ '\n' :: rest) =
      some (.integer n, '\n' :: rest) := by
  have starts : ∀ mark, mark.isDigit = false → ∀ more,
      Nat.toDigits 10 n ++ '\n' :: rest ≠ mark :: more := by
    intro mark other more same
    obtain ⟨c, digits, cut, digit⟩ := exists_cons_toDigits n
    rw [cut, List.cons_append] at same
    exact ne_of_kind digit other (List.cons.inj same).1
  rw [readValue.eq_10 _ _ _ (fun _ => starts '"' (by decide) _) (starts '"' (by decide))
    (fun _ => starts '\'' (by decide) _) (starts '\'' (by decide))
    (fun more same _ => starts '[' (by decide) more same)
    (fun more _ same _ => starts '[' (by decide) more same)
    (fun more same _ => starts '\x7b' (by decide) more same)
    (fun more _ same _ => starts '\x7b' (by decide) more same)]
  exact readScalar_toDigits bounded

/-! ## Lines -/

def numberLine (entry : String × Nat) : List Char :=
  entry.1.toList ++ ' ' :: '=' :: ' ' :: (Nat.toDigits 10 entry.2 ++ ['\n'])

def numberOf (entry : String × Nat) : Line := .assignment [] entry.1 (.integer entry.2)

theorem readLine_number (entry : String × Nat) (key : isBareKey entry.1.toList = true)
    (bounded : entry.2 < Nat.pow 2 63) :
    readLine (numberLine entry ++ rest) = some (numberOf entry, '\n' :: rest) := by
  obtain ⟨name, n⟩ := entry
  have line : numberLine (name, n) ++ rest =
      name.toList ++ ' ' :: '=' :: ' ' :: (Nat.toDigits 10 n ++ '\n' :: rest) := by
    simp [numberLine]
  have assigned : readKey (numberLine (name, n) ++ rest) =
      some (([], name), '=' :: ' ' :: (Nat.toDigits 10 n ++ '\n' :: rest)) := by
    rw [line, readKey_bare key (by simp; decide) (by simp [skipBlanks, isBlank]), String.ofList_toList]
    rfl
  have gap : skipBlanks (' ' :: (Nat.toDigits 10 n ++ '\n' :: rest)) =
      Nat.toDigits 10 n ++ '\n' :: rest := by
    obtain ⟨c, digits, cut, digit⟩ := exists_cons_toDigits n
    rw [cut, List.cons_append]
    exact skipBlanks_bare (isBare_of_isDigit digit)
  obtain ⟨c, more, cut, first⟩ := isBareKey.exists_cons key
  have bracket : c ≠ '[' := ne_of_kind first (by decide)
  rw [line, cut, List.cons_append] at assigned ⊢
  rw [readLine.eq_3 _ (fun _ same => bracket (List.cons.inj same).1)
    (fun _ same => bracket (List.cons.inj same).1), assigned]
  show (readValue _ _ (skipBlanks (' ' :: (Nat.toDigits 10 n ++ '\n' :: rest)))).map _ = _
  rw [gap, readValue_toDigits bounded]
  rfl

theorem readLine_header (key : isBareKey name = true) :
    readLine ('[' :: (name ++ ']' :: rest)) = some (.header false [] (String.ofList name), rest) := by
  have closed : readKey (name ++ ']' :: rest) = some (([], String.ofList name), ']' :: rest) :=
    readKey_bare key (by simp; decide) (by simp [skipBlanks, isBlank])
  obtain ⟨c, more, rfl, first⟩ := isBareKey.exists_cons key
  have bracket : c ≠ '[' := ne_of_kind first (by decide)
  rw [List.cons_append] at closed ⊢
  rw [readLine.eq_2 _ fun _ same => bracket (List.cons.inj same).1, readHeader, closed]
  rfl

/-- A line is read once its first character is none that stands between lines. -/
theorem readLines_cons {line : Line} (fuel : Nat) (done : List Line)
    (starts : isBare c = true ∨ c = '[') (read : readLine (c :: input) = some (line, '\n' :: rest)) :
    readLines (fuel + 1) done (c :: input) = readLines fuel (line :: done) rest := by
  have between : ∀ mark, isBare mark = false → mark ≠ '[' → c ≠ mark := by
    intro mark other plain
    rcases starts with bare | bracket
    · exact ne_of_kind bare other
    · exact bracket ▸ plain.symm
  have blank : skipBlanks (c :: input) = c :: input := by
    simp [skipBlanks, isBlank, between ' ' (by decide) (by decide), between '\t' (by decide) (by decide)]
  have comment : skipComment (c :: input) = c :: input := by
    rw [skipComment.eq_2]
    rintro more ⟨⟩
    exact between '#' (by decide) (by decide) rfl
  have within : newline? (c :: input) = none := by
    rw [newline?.eq_3]
    · rintro more ⟨⟩
      exact between '\n' (by decide) (by decide) rfl
    · rintro more ⟨⟩
      exact between '\r' (by decide) (by decide) rfl
  rw [readLines, blank, comment]
  dsimp only
  rw [within]
  dsimp only
  rw [read]
  rfl

theorem readLines_numbers (entries : List (String × Nat))
    (keys : ∀ entry ∈ entries, isBareKey entry.1.toList = true)
    (bounded : ∀ entry ∈ entries, entry.2 < Nat.pow 2 63) (done : List Line) {fuel : Nat}
    (enough : entries.length < fuel) :
    readLines fuel done (entries.flatMap numberLine) = some (done.reverse ++ entries.map numberOf) := by
  induction entries generalizing done fuel with
  | nil =>
      obtain ⟨fuel, rfl⟩ := Nat.exists_eq_succ_of_ne_zero (by omega : fuel ≠ 0)
      rw [List.map_nil, List.append_nil]
      rfl
  | cons entry entries ih =>
      obtain ⟨fuel, rfl⟩ := Nat.exists_eq_succ_of_ne_zero (by omega : fuel ≠ 0)
      obtain ⟨key, keys⟩ := List.forall_mem_cons.mp keys
      obtain ⟨small, bounded⟩ := List.forall_mem_cons.mp bounded
      have read : readLine (numberLine entry ++ entries.flatMap numberLine) =
          some (numberOf entry, '\n' :: entries.flatMap numberLine) := readLine_number entry key small
      obtain ⟨c, more, cut, first⟩ := isBareKey.exists_cons key
      rw [List.flatMap_cons]
      rw [numberLine, cut, List.cons_append, List.cons_append] at read ⊢
      rw [readLines_cons fuel done (.inl first) read, ih keys bounded _ (by simpa using enough)]
      simp

theorem length_le_flatMap_numberLine (entries : List (String × Nat)) :
    entries.length ≤ (entries.flatMap numberLine).length := by
  induction entries with
  | nil => exact Nat.le_refl _
  | cons entry entries ih =>
      rw [List.flatMap_cons, List.length_append, numberLine]
      simp only [List.length_cons, List.length_append]
      omega

/-! ## The table -/

theorem sections_numbers (entries : List (String × Nat)) : sections (entries.map numberOf) =
    (entries.map fun entry => (([], entry.1), .integer entry.2), []) := by
  induction entries with
  | nil => rfl
  | cons entry entries ih =>
      rw [List.map_cons, numberOf, sections, ih]
      rfl

theorem addAssignments_numbers (entries : List (String × Nat)) (start : Entries)
    (distinct : (start.map (·.1) ++ entries.map (·.1)).Nodup) :
    addAssignments (entries.map fun entry => (([], entry.1), .integer entry.2)) start =
      some (start ++ entries.map fun entry => (entry.1, .integer entry.2)) := by
  induction entries generalizing start with
  | nil => simp [addAssignments]
  | cons entry entries ih =>
      have new : ∀ given ∈ start, given.1 ≠ entry.1 := by
        intro given member same
        refine (List.nodup_append.mp distinct).2.2 _ (List.mem_map_of_mem member) _ ?_ same
        exact List.mem_cons_self
      have absent : start.get? entry.1 = none := by
        simpa [Entries.get?] using fun key value member => new (key, value) member
      have last : start.put entry.1 (.integer entry.2) = start ++ [(entry.1, .integer entry.2)] := by
        rw [Entries.put, if_neg]
        simpa using fun value member => new (entry.1, value) member rfl
      have added : addKey entry.1 (.integer entry.2) [] start =
          some (start ++ [(entry.1, .integer entry.2)]) := by
        rw [addKey, absent, last]
        rfl
      rw [List.map_cons, addAssignments, added]
      dsimp only
      rw [ih]
      · simp
      · simpa using distinct

/-- A table of numbers under different bare keys reads back. -/
theorem read?_numbers (name : String) (entries : List (String × Nat))
    (key : isBareKey name.toList = true)
    (keys : ∀ entry ∈ entries, isBareKey entry.1.toList = true)
    (bounded : ∀ entry ∈ entries, entry.2 < Nat.pow 2 63) (distinct : (entries.map (·.1)).Nodup) :
    read? (String.ofList ('[' :: (name.toList ++ ']' :: '\n' :: entries.flatMap numberLine))) =
      some [(name, .table .header (entries.map fun entry => (entry.1, .integer entry.2)))] := by
  have header : readLine ('[' :: (name.toList ++ ']' :: '\n' :: entries.flatMap numberLine)) =
      some (.header false [] name, '\n' :: entries.flatMap numberLine) := by
    rw [readLine_header key, String.ofList_toList]
  rw [read?, String.toList_ofList, dropMark.eq_2 _ (by simp)]
  dsimp only
  rw [readLines_cons _ _ (.inr rfl) header, readLines_numbers entries keys bounded]
  · have table := addAssignments_numbers entries [] (by simpa using distinct)
    rw [List.reverse_singleton, List.singleton_append]
    dsimp only
    rw [sections, sections_numbers]
    simp [addAssignments, openSections, openSection, openTable, Entries.get?, Entries.put, table]
  · have := length_le_flatMap_numberLine entries
    simp only [List.length_cons, List.length_append]
    omega

end SyntaxGraph.Toml
