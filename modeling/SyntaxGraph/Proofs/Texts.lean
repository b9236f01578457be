import Mathlib.Data.List.TakeDrop
import Mathlib.Data.List.TakeWhile
import SyntaxGraph.Json.Reader
import SyntaxGraph.Json.Writer
import SyntaxGraph.Proofs.Encodings
import SyntaxGraph.Proofs.Spellings

/-!
# JSON texts

What is written for a value stands on one line and is read as the value again.

Writing puts a text behind another; `Json.spell` gives the characters of a value by
themselves, and everything else is said of them. A character of a text is read back from
its escape, an integer from its digits. A numeral ends where a comma, a bracket or the
text ends, so an array and an object are read item by item. Reading takes from the fuel
twice for each item at most, and each item has a character, so twice the length of a text
is enough.

The floats are the exception. They are written with the fewest digits that tell them apart,
but a numeral is read as a rounded significand times a rounded power of ten, and the product
may miss the float; a float that is not finite is written as null. `Binary64.ReadsBack` says of
a float that it is read again.
-/

namespace SyntaxGraph

namespace Json

/-! ## The characters of a value -/

def spellText (s : String) : List Char := '"' :: (s.toList.flatMap escapeChar ++ ['"'])

mutual

/-- The characters of a value. -/
def spell : Json → List Char
  | .null => ['n', 'u', 'l', 'l']
  | .bool true => ['t', 'r', 'u', 'e']
  | .bool false => ['f', 'a', 'l', 's', 'e']
  | .integer value => (toString value).toList
  | .float value => (writeFloat value).toList
  | .text value => spellText value
  | .array items => '[' :: (spellItems items ++ [']'])
  | .object members => '\x7b' :: (spellMembers members ++ ['\x7d'])

def spellItems : List Json → List Char
  | [] => []
  | [item] => spell item
  | item :: next :: rest => spell item ++ ',' :: spellItems (next :: rest)

def spellMembers : List (String × Json) → List Char
  | [] => []
  | [(name, value)] => spellText name ++ ':' :: spell value
  | (name, value) :: next :: rest =>
    spellText name ++ ':' :: spell value ++ ',' :: spellMembers (next :: rest)

end

theorem toList_writeText (s : String) : (writeText s).toList = spellText s := by
  simp [writeText, spellText]

mutual

/-- A value is put behind what stands there, one character after the other. -/
theorem toList_append (out : String) : ∀ j : Json, (append out j).toList = out.toList ++ j.spell
  | .null | .bool true | .bool false | .integer _ | .float _ => by simp [append, spell]
  | .text _ => by simp [append, spell, toList_writeText]
  | .array items => by simp [append, spell, toList_appendItems _ items]
  | .object members => by simp [append, spell, toList_appendMembers _ members]

theorem toList_appendItems (out : String) :
    ∀ items : List Json, (appendItems out items).toList = out.toList ++ spellItems items
  | [] => by simp [appendItems, spellItems]
  | [item] => by simp [appendItems, spellItems, toList_append out item]
  | item :: next :: rest => by
    simp [appendItems, spellItems, toList_appendItems _ (next :: rest), toList_append out item]

theorem toList_appendMembers (out : String) : ∀ members : List (String × Json),
    (appendMembers out members).toList = out.toList ++ spellMembers members
  | [] => by simp [appendMembers, spellMembers]
  | [(name, value)] => by
    simp [appendMembers, spellMembers, toList_append _ value, toList_writeText]
  | (name, value) :: next :: rest => by
    simp [appendMembers, spellMembers, toList_appendMembers _ (next :: rest), toList_append _ value,
      toList_writeText]

end

theorem toList_write (j : Json) : j.write.toList = j.spell := toList_append "" j

/-! ## Escapes -/

/-- A character is written with a mark of its own, by its number, or as it is. -/
theorem escapeChar_cases (c : Char) :
    (∃ mark, escapeChar c = ['\\', mark] ∧ mark ≠ 'u' ∧ shortEscape? mark = some c) ∨
      (c < ' ' ∧ escapeChar c =
        ['\\', 'u', '0', '0', Text.hexDigit (c.toNat / 16), Text.hexDigit c.toNat]) ∨
      (escapeChar c = [c] ∧ c ≠ '"' ∧ c ≠ '\\' ∧ ¬ c < ' ') := by
  unfold escapeChar
  split
  case isTrue same => exact .inl ⟨'"', rfl, by decide, by rw [same]; rfl⟩
  case isFalse quote =>
    split
    case isTrue same => exact .inl ⟨'\\', rfl, by decide, by rw [same]; rfl⟩
    case isFalse backslash =>
      iterate 5
        split
        · rename_i same
          exact .inl ⟨_, rfl, by decide, same ▸ rfl⟩
      split
      case isTrue control => exact .inr (.inl ⟨control, rfl⟩)
      case isFalse ordinary => exact .inr (.inr ⟨rfl, quote, backslash, ordinary⟩)

/-! ## One line -/

theorem hexDigit_ne_newline (n : Nat) : Text.hexDigit n ≠ '\n' := by
  have each : ∀ d < 16, Nat.digitChar d ≠ '\n' := by decide
  exact each _ (Nat.mod_lt n (by decide))

theorem newline_notMem_escapeChar (c : Char) : '\n' ∉ escapeChar c := by
  rcases escapeChar_cases c with
    ⟨mark, written, _, short⟩ | ⟨_, written⟩ | ⟨written, _, _, ordinary⟩
  · have other : mark ≠ '\n' := by
      rintro rfl
      cases short
    simp [written, other.symm]
  · simp [written, (hexDigit_ne_newline _).symm]
  · have other : c ≠ '\n' := by
      rintro rfl
      exact ordinary (by decide)
    simp [written, other.symm]

theorem newline_notMem_spellText (s : String) : '\n' ∉ spellText s := by
  simp [spellText, newline_notMem_escapeChar]

theorem newline_notMem_toDigits (n : Nat) : '\n' ∉ Nat.toDigits 10 n := fun member =>
  absurd (Nat.isDigit_of_mem_toDigits (by decide) (by decide) member) (by decide)

theorem toList_toString (i : Int) :
    (toString i).toList = (if i < 0 then ['-'] else []) ++ Nat.toDigits 10 i.natAbs := by
  cases i with
  | ofNat n =>
    show (Int.repr (.ofNat n)).toList = _
    simp [Int.repr]
  | negSucc n =>
    show (Int.repr (.negSucc n)).toList = _
    simp [Int.repr]

theorem newline_notMem_toString (i : Int) : '\n' ∉ (toString i).toList := by
  rw [toList_toString]
  split <;> simp [newline_notMem_toDigits]

theorem newline_notMem_layout (layout : Decimal.Layout) (digits : Decimal.Digits) :
    '\n' ∉ (layout.write digits).toList := by
  have whole := newline_notMem_toDigits digits.coefficient
  have front (n : Nat) : '\n' ∉ (Nat.toDigits 10 digits.coefficient).take n := fun member =>
    whole (List.mem_of_mem_take member)
  have back (n : Nat) : '\n' ∉ (Nat.toDigits 10 digits.coefficient).drop n := fun member =>
    whole (List.mem_of_mem_drop member)
  unfold Decimal.Layout.write
  dsimp only
  split
  · split
    · rw [String.toList_ofList]
      split <;> simp [front, back]
    · simp [whole]
  · rw [String.toList_ofList]
    generalize Nat.toDigits 10 digits.coefficient = figures at whole
    split <;> split <;> simp_all [newline_notMem_toDigits]

theorem newline_notMem_writeFloat (x : Binary64) : '\n' ∉ (writeFloat x).toList := by
  have magnitude : '\n' ∉
      (if x.isZero then "0.0" else Decimal.Layout.float.write (Decimal.shortest x)).toList := by
    split
    · decide
    · exact newline_notMem_layout _ _
  unfold writeFloat Binary64.text
  dsimp only
  split
  · split
    · simpa using magnitude
    · exact magnitude
  · decide

mutual

/-- A value is written on one line. -/
theorem newline_notMem_spell : ∀ j : Json, '\n' ∉ j.spell
  | .null | .bool true | .bool false => by decide
  | .integer value => newline_notMem_toString value
  | .float value => newline_notMem_writeFloat value
  | .text value => newline_notMem_spellText value
  | .array items => by simp [spell, newline_notMem_spellItems items]
  | .object members => by simp [spell, newline_notMem_spellMembers members]

theorem newline_notMem_spellItems : ∀ items : List Json, '\n' ∉ spellItems items
  | [] => List.not_mem_nil
  | [item] => newline_notMem_spell item
  | item :: next :: rest => by
    simp [spellItems, newline_notMem_spell item, newline_notMem_spellItems (next :: rest)]

theorem newline_notMem_spellMembers : ∀ members : List (String × Json), '\n' ∉ spellMembers members
  | [] => List.not_mem_nil
  | [(name, value)] => by simp [spellMembers, newline_notMem_spellText, newline_notMem_spell value]
  | (name, value) :: next :: rest => by
    simp [spellMembers, newline_notMem_spellText, newline_notMem_spell value,
      newline_notMem_spellMembers (next :: rest)]

end

/-! ## Texts -/

/-- The escape of a control character spells its number. -/
theorem unit?_control {c : Char} (control : c < ' ') :
    unit? '0' '0' (Text.hexDigit (c.toNat / 16)) (Text.hexDigit c.toNat) = some c.toNat := by
  have small : c.toNat < 32 := control
  have zero : Text.hexValue? '0' = some 0 := by decide
  simp only [unit?, zero, Text.hexValue?_hexDigit, Option.bind_eq_bind, Option.bind_some, Option.some.injEq]
  omega

theorem single?_control {c : Char} (control : c < ' ') : single? c.toNat = some c := by
  have small : c.toNat < 32 := control
  have notLeading : isLeading c.toNat = false := by
    simp only [isLeading, Bool.and_eq_false_iff, decide_eq_false_iff_not]
    omega
  have notTrailing : isTrailing c.toNat = false := by
    simp only [isTrailing, Bool.and_eq_false_iff, decide_eq_false_iff_not]
    omega
  simp only [single?, notLeading, notTrailing, Bool.or_self, Char.ofNat_toNat]
  rfl

/-- The escape of a character is read as the character. -/
theorem readText_escapeChar (done : List Char) (c : Char) (rest : List Char) :
    readText done (escapeChar c ++ rest) = readText (c :: done) rest := by
  rcases escapeChar_cases c with
    ⟨mark, written, other, short⟩ | ⟨control, written⟩ | ⟨written, quote, backslash, ordinary⟩
  · simp [written, readText, other, short]
  · simp only [written, List.cons_append, List.nil_append]
    rw [readText, unit?_control control]
    simp only [single?_control control]
  · simp only [written, List.cons_append, List.nil_append]
    rw [readText.eq_def]
    split
    case h_5 same =>
      obtain ⟨rfl, rfl⟩ := List.cons.inj same
      simp [ordinary, backslash]
    all_goals simp_all

/-- A text between quotes is read up to its closing quote. -/
theorem readText_flatMap (done s rest : List Char) :
    readText done (s.flatMap escapeChar ++ '"' :: rest) =
      some (String.ofList (done.reverse ++ s), rest) := by
  induction s generalizing done with
  | nil => simp [readText]
  | cons c s ih =>
    rw [List.flatMap_cons, List.append_assoc, readText_escapeChar, ih]
    simp

/-! ## Numerals -/

/-- What follows a value inside a text: nothing, a comma or a closing bracket. -/
def Stops (rest : List Char) : Prop := ∀ c ∈ rest.head?, c = ',' ∨ c = ']' ∨ c = '\x7d'

theorem span_append {p : Char → Bool} {input whole left : List Char} (rest : List Char)
    (cut : input.span p = (whole, left)) (stops : left = [] → ∀ c ∈ rest.head?, p c = false) :
    (input ++ rest).span p = (whole, left ++ rest) := by
  rw [List.span_eq_takeWhile_dropWhile] at cut ⊢
  obtain ⟨rfl, rfl⟩ := Prod.mk.inj cut
  clear cut
  induction input with
  | nil =>
    cases rest with
    | nil => rfl
    | cons c rest => simp [stops rfl c rfl]
  | cons c input ih =>
    by_cases digit : p c = true
    · have more := ih (by simpa [digit] using stops)
      simpa [digit] using more
    · simp [digit]

variable {rest : List Char}

theorem Stops.not_isDigit (stops : Stops rest) : ∀ c ∈ rest.head?, c.isDigit = false := by
  intro c first
  rcases stops c first with rfl | rfl | rfl <;> decide

/-- The digits in front of a point: at least one, and no zero before another. -/
def isWhole : List Char → Bool
  | [] => false
  | '0' :: _ :: _ => false
  | _ => true

/-- Read what follows the digits in front of a point. -/
def readFraction (negative : Bool) (whole : List Char) : List Char → Option (Numeral × List Char)
  | '.' :: input =>
    match input.span Char.isDigit with
    | ([], _) => none
    | (decimals, input) => readNumeralTail negative whole decimals input
  | input => readNumeralTail negative whole [] input

def readUnsigned (negative : Bool) (input : List Char) : Option (Numeral × List Char) :=
  if isWhole (input.span Char.isDigit).1 then
    readFraction negative (input.span Char.isDigit).1 (input.span Char.isDigit).2
  else none

def readSign (input : List Char) : Bool × List Char :=
  match input with
  | '-' :: rest => (true, rest)
  | _ => (false, input)

theorem readNumeral_eq (input : List Char) :
    readNumeral input = readUnsigned (readSign input).1 (readSign input).2 := by
  unfold readNumeral
  split
  rename_i negative unsigned same
  have sign : readSign input = (negative, unsigned) := same
  rw [sign]
  unfold readUnsigned
  generalize unsigned.span Char.isDigit = parts
  split
  case h_3 =>
    simp_all only [isWhole, readFraction]
    rfl
  all_goals simp_all [isWhole, readFraction]

theorem readSign_append (input : List Char) (some : input ≠ []) :
    readSign (input ++ rest) = ((readSign input).1, (readSign input).2 ++ rest) := by
  cases input with
  | nil => exact absurd rfl some
  | cons c input =>
    unfold readSign
    split <;> simp_all

def readMark (input : List Char) : Bool × List Char :=
  match input with
  | '+' :: rest => (false, rest)
  | '-' :: rest => (true, rest)
  | _ => (false, input)

theorem readMark_append {input : List Char} (some : input ≠ []) :
    readMark (input ++ rest) = ((readMark input).1, (readMark input).2 ++ rest) := by
  cases input with
  | nil => exact absurd rfl some
  | cons c input =>
    unfold readMark
    split <;> simp_all

theorem readExponent_eq (input : List Char) :
    readExponent input =
      match (readMark input).2.span Char.isDigit with
      | ([], _) => none
      | (digits, left) => some (((readMark input).1, digits), left) := rfl

theorem readExponent_append {input left : List Char} {exponent : Bool × List Char} (stops : Stops rest)
    (read : readExponent input = some (exponent, left)) :
    readExponent (input ++ rest) = some (exponent, left ++ rest) := by
  have nonempty : input ≠ [] := by
    rintro rfl
    cases read
  rw [readExponent_eq] at read ⊢
  generalize cut : (readMark input).2.span Char.isDigit = parts at read
  obtain ⟨digits, left⟩ := parts
  rw [readMark_append nonempty, span_append rest cut fun _ => stops.not_isDigit]
  cases digits with
  | nil => cases read
  | cons digit digits =>
    cases read
    rfl

theorem readNumeralTail_append {negative : Bool} {whole decimals input : List Char} {numeral : Numeral}
    (stops : Stops rest) (read : readNumeralTail negative whole decimals input = some (numeral, [])) :
    readNumeralTail negative whole decimals (input ++ rest) = some (numeral, rest) := by
  have plain (left : List Char) (e : left.head? ≠ some 'e') (E : left.head? ≠ some 'E') :
      readNumeralTail negative whole decimals left = some (⟨negative, whole, decimals, none⟩, left) := by
    unfold readNumeralTail
    split <;> simp_all
  cases input with
  | nil =>
    cases read
    refine plain rest (fun first => ?_) (fun first => ?_) <;>
      rcases stops _ first with same | same | same <;> cases same
  | cons c input =>
    by_cases mark : c = 'e' ∨ c = 'E'
    · have exponent : (readExponent input).map
          (fun part => (⟨negative, whole, decimals, some part.1⟩, part.2)) = some (numeral, []) := by
        rcases mark with rfl | rfl <;> exact read
      obtain ⟨⟨exponent, left⟩, readExponent, same⟩ := Option.map_eq_some_iff.mp exponent
      cases same
      have := readExponent_append stops readExponent
      rcases mark with rfl | rfl <;> simp [readNumeralTail, this]
    · rw [plain] at read
      · cases read
      · simpa using fun same => mark (.inl same)
      · simpa using fun same => mark (.inr same)

theorem readFraction_append {negative : Bool} {whole input : List Char} {numeral : Numeral}
    (stops : Stops rest) (read : readFraction negative whole input = some (numeral, [])) :
    readFraction negative whole (input ++ rest) = some (numeral, rest) := by
  have point (left : List Char) : readFraction negative whole ('.' :: left) =
      match left.span Char.isDigit with
      | ([], _) => none
      | (decimals, left) => readNumeralTail negative whole decimals left := rfl
  have plain (left : List Char) (other : left.head? ≠ some '.') :
      readFraction negative whole left = readNumeralTail negative whole [] left := by
    unfold readFraction
    split <;> simp_all
  by_cases first : input.head? = some '.'
  · obtain ⟨input, rfl⟩ := List.head?_eq_some_iff.mp first
    rw [point] at read
    generalize cut : input.span Char.isDigit = parts at read
    obtain ⟨decimals, left⟩ := parts
    rw [List.cons_append, point, span_append rest cut fun _ => stops.not_isDigit]
    cases decimals with
    | nil => cases read
    | cons digit decimals => exact readNumeralTail_append stops read
  · rw [plain input first] at read
    rw [plain (input ++ rest)]
    · exact readNumeralTail_append stops read
    · cases input with
      | nil =>
        intro first
        rcases stops _ first with same | same | same <;> cases same
      | cons c input => exact first

theorem readUnsigned_append {negative : Bool} {input : List Char} {numeral : Numeral} (stops : Stops rest)
    (read : readUnsigned negative input = some (numeral, [])) :
    readUnsigned negative (input ++ rest) = some (numeral, rest) := by
  unfold readUnsigned at read ⊢
  generalize cut : input.span Char.isDigit = parts at read
  obtain ⟨whole, left⟩ := parts
  rw [span_append rest cut fun _ => stops.not_isDigit]
  dsimp only at read ⊢
  split at read
  case isTrue good =>
    rw [if_pos good]
    exact readFraction_append stops read
  case isFalse => cases read

/-- A numeral that ends with its text ends before what follows a value, too. -/
theorem readNumeral_append {input : List Char} {numeral : Numeral} (stops : Stops rest)
    (read : readNumeral input = some (numeral, [])) :
    readNumeral (input ++ rest) = some (numeral, rest) := by
  have nonempty : input ≠ [] := by
    rintro rfl
    cases read
  rw [readNumeral_eq] at read ⊢
  rw [readSign_append _ nonempty]
  exact readUnsigned_append stops read

/-- A numeral starts with a sign or a digit. -/
theorem head_of_readNumeral {input : List Char} {read : Numeral × List Char}
    (numeral : readNumeral input = some read) :
    ∃ c left, input = c :: left ∧ (c = '-' ∨ c.isDigit = true) := by
  rw [readNumeral_eq] at numeral
  cases input with
  | nil => cases numeral
  | cons c left =>
    refine ⟨c, left, rfl, ?_⟩
    by_cases minus : c = '-'
    · exact .inl minus
    · right
      have sign : readSign (c :: left) = (false, c :: left) := by
        unfold readSign
        split <;> simp_all
      rw [sign] at numeral
      unfold readUnsigned at numeral
      rw [List.span_eq_takeWhile_dropWhile] at numeral
      by_contra other
      simp [isWhole, other] at numeral

/-! ## Integers -/

theorem le_ofDigitChars (digits : List Char) (start : Nat) :
    start ≤ Nat.ofDigitChars 10 digits start := by
  induction digits generalizing start with
  | nil => exact Nat.le_refl _
  | cons c digits ih =>
    rw [Nat.ofDigitChars_cons]
    exact Nat.le_trans (by omega) (ih _)

/-- Digits of a number that fits are all taken. -/
theorem wholeSignificand_eq {digits : List Char} {start : Nat}
    (fits : Nat.ofDigitChars 10 digits start < UInt64.size) :
    wholeSignificand start digits = (Nat.ofDigitChars 10 digits start, 0) := by
  induction digits generalizing start with
  | nil => rfl
  | cons c digits ih =>
    rw [Nat.ofDigitChars_cons, Nat.mul_comm] at fits ⊢
    have next : start * 10 + digitValue c < UInt64.size :=
      Nat.lt_of_le_of_lt (le_ofDigitChars digits _) fits
    rw [wholeSignificand, if_pos next]
    exact ih fits

theorem wholeSignificand_toDigits {n : Nat} (fits : n < UInt64.size) :
    wholeSignificand 0 (Nat.toDigits 10 n) = (n, 0) := by
  have value : Nat.ofDigitChars 10 (Nat.toDigits 10 n) 0 = n := Nat.ofDigitChars_ten_toDigits
  rw [wholeSignificand_eq (by rwa [value]), value]

theorem span_toDigits (n : Nat) : (Nat.toDigits 10 n).span Char.isDigit = (Nat.toDigits 10 n, []) := by
  have each : ∀ c ∈ Nat.toDigits 10 n, c.isDigit = true := fun c member =>
    Nat.isDigit_of_mem_toDigits (by decide) (by decide) member
  rw [List.span_eq_takeWhile_dropWhile, List.takeWhile_eq_self_iff.mpr each,
    List.dropWhile_eq_nil_iff.mpr each]

theorem isWhole_toDigits (n : Nat) : isWhole (Nat.toDigits 10 n) = true := by
  unfold isWhole
  split
  case h_1 none => exact absurd none Nat.toDigits_ne_nil
  case h_2 zero =>
    have : n = 0 := Address.head?_toDigits (by rw [zero]; rfl)
    subst this
    cases zero
  case h_3 => rfl

theorem readNumeral_toString (i : Int) :
    readNumeral (toString i).toList =
      some (⟨decide (i < 0), Nat.toDigits 10 i.natAbs, [], none⟩, []) := by
  have sign : readSign (toString i).toList = (decide (i < 0), Nat.toDigits 10 i.natAbs) := by
    rw [toList_toString]
    split
    case isTrue negative => simp [negative, readSign]
    case isFalse positive =>
      have plain : (Nat.toDigits 10 i.natAbs).head? ≠ some '-' := fun minus =>
        absurd (Nat.isDigit_of_mem_toDigits (by decide) (by decide) (List.mem_of_head? minus))
          (by decide)
      unfold readSign
      split <;> simp_all
  rw [readNumeral_eq, sign, readUnsigned, span_toDigits, if_pos (isWhole_toDigits _)]
  rfl

theorem value?_integer {i : Int} (bounded : (Json.integer i).isBounded = true) :
    Numeral.value? ⟨decide (i < 0), Nat.toDigits 10 i.natAbs, [], none⟩ = some (.integer i) := by
  simp only [isBounded, Bool.and_eq_true, decide_eq_true_iff] at bounded
  have lowest : Int64.minValue.toInt = -9223372036854775808 := by decide
  have size : UInt64.size = 18446744073709551616 := rfl
  have power : Nat.pow 2 63 = 9223372036854775808 := rfl
  have fits : i.natAbs < UInt64.size := by omega
  simp only [Numeral.value?, wholeSignificand_toDigits fits, List.isEmpty_nil, Option.isNone_none,
    Bool.and_self, if_true]
  split
  case isTrue positive =>
    simp only [Bool.not_eq_true', decide_eq_false_iff_not] at positive
    have same : (i.natAbs : Int) = i := by omega
    rw [same]
  case isFalse negative =>
    simp only [Bool.not_eq_true', decide_eq_false_iff_not, not_not] at negative
    have same : -(i.natAbs : Int) = i := by omega
    rw [if_neg (by simp only [power, Bool.or_eq_true, decide_eq_true_iff]; omega), same]

/-! ## Values -/

theorem skipBlanks_cons {c : Char} (rest : List Char) (solid : isBlank c = false) :
    skipBlanks (c :: rest) = c :: rest := by
  simp [skipBlanks, solid]

/-- A character that starts a numeral is none of another kind. -/
theorem ne_of_first {c d : Char} (first : c = '-' ∨ c.isDigit = true) (mark : d ≠ '-')
    (letter : d.isDigit = false) : c ≠ d := by
  rintro rfl
  rcases first with same | digit
  · exact mark same
  · rw [letter] at digit
    cases digit

theorem isBlank_of_first {c : Char} (first : c = '-' ∨ c.isDigit = true) : isBlank c = false := by
  simp [isBlank, ne_of_first (d := ' ') first (by decide) (by decide),
    ne_of_first (d := '\t') first (by decide) (by decide),
    ne_of_first (d := '\n') first (by decide) (by decide),
    ne_of_first (d := '\r') first (by decide) (by decide)]

/-- A numeral is no other value. -/
theorem readValue_numeral {fuel room : Nat} {input left : List Char} {numeral : Numeral} {value : Json}
    (read : readNumeral input = some (numeral, left)) (known : numeral.value? = some value) :
    readValue (fuel + 1) room input = some (value, left) := by
  obtain ⟨c, rest, rfl, first⟩ := head_of_readNumeral read
  rw [readValue, skipBlanks_cons rest (isBlank_of_first first)]
  split
  case h_7 => simp [read, known]
  all_goals
    rename_i same
    exact absurd (List.cons.inj same).1 (ne_of_first first (by decide) (by decide))

section Steps

variable (fuel room : Nat) (rest : List Char)

theorem readValue_quote : readValue (fuel + 1) room ('"' :: rest) =
    (readText [] rest).map fun (s, rest) => (.text s, rest) := rfl

/-- An array whose first item starts with no blank. -/
theorem readValue_bracket {c : Char} (solid : isBlank c = false) (other : c ≠ ']') :
    readValue (fuel + 1) (room + 1) ('[' :: c :: rest) = readItems fuel room [] (c :: rest) := by
  have bracket : isBlank '[' = false := by decide
  simp [readValue, skipBlanks_cons _ bracket, skipBlanks_cons rest solid, other]

theorem readValue_brace : readValue (fuel + 1) (room + 1) ('\x7b' :: '"' :: rest) =
    readMembers fuel room [] ('"' :: rest) := rfl

variable {fuel room rest}

section Items

variable {done : List Json} {item : Json} {input : List Char}

theorem readItems_last (read : readValue fuel room input = some (item, ']' :: rest)) :
    readItems (fuel + 1) room done input = some (.array (done.reverse ++ [item]), rest) := by
  simp [readItems, read, skipBlanks, isBlank]

theorem readItems_comma (read : readValue fuel room input = some (item, ',' :: rest)) :
    readItems (fuel + 1) room done input = readItems fuel room (item :: done) rest := by
  simp [readItems, read, skipBlanks, isBlank]

end Items

section Members

variable {done : List (String × Json)} {value : Json} {input : List Char}

theorem spellText_append (name : String) (input : List Char) :
    spellText name ++ input = '"' :: (name.toList.flatMap escapeChar ++ '"' :: input) := by
  simp [spellText]

theorem readMembers_last (name : String) (read : readValue fuel room input = some (value, '\x7d' :: rest)) :
    readMembers (fuel + 1) room done (spellText name ++ ':' :: input) =
      some (.object (done.reverse ++ [(name, value)]), rest) := by
  rw [spellText_append]
  simp [readMembers, readText_flatMap, read, skipBlanks, isBlank]

theorem readMembers_comma (name : String) (read : readValue fuel room input = some (value, ',' :: rest)) :
    readMembers (fuel + 1) room done (spellText name ++ ':' :: input) =
      readMembers fuel room ((name, value) :: done) rest := by
  rw [spellText_append]
  simp [readMembers, readText_flatMap, read, skipBlanks, isBlank]

end Members

end Steps

end Json

/-- A float that is read from its own text. -/
def Binary64.ReadsBack (x : Binary64) : Prop :=
  ∃ numeral, Json.readNumeral (Json.writeFloat x).toList = some (numeral, []) ∧
    numeral.value? = some (.float x)

namespace Json

mutual

/-- A value whose arrays and objects stand at most `room` deep in each other, whose integers have
64 bits, with or without a sign, and whose floats are all `good`. -/
def Fits (good : Binary64 → Prop) : Json → Nat → Prop
  | .integer value, _ => (Json.integer value).isBounded = true
  | .float value, _ => good value
  | .array _, 0 | .object _, 0 => False
  | .array items, room + 1 => AllFit good items room
  | .object members, room + 1 => MembersFit good members room
  | .null, _ | .bool _, _ | .text _, _ => True

def AllFit (good : Binary64 → Prop) : List Json → Nat → Prop
  | [], _ => True
  | item :: rest, room => item.Fits good room ∧ AllFit good rest room

def MembersFit (good : Binary64 → Prop) : List (String × Json) → Nat → Prop
  | [], _ => True
  | (_, value) :: rest, room => value.Fits good room ∧ MembersFit good rest room

end

/-- A value starts neither with a blank nor with the end of an array. -/
theorem head_spell {room : Nat} : ∀ {j : Json}, j.Fits Binary64.ReadsBack room →
    ∃ c left, j.spell = c :: left ∧ isBlank c = false ∧ c ≠ ']'
  | .null, _ | .bool true, _ | .bool false, _ => ⟨_, _, rfl, by decide, by decide⟩
  | .text _, _ | .array _, _ | .object _, _ => ⟨_, _, rfl, by decide, by decide⟩
  | .integer value, _ => by
    obtain ⟨c, left, spelled, first⟩ := head_of_readNumeral (readNumeral_toString value)
    exact ⟨c, left, spelled, isBlank_of_first first, ne_of_first first (by decide) (by decide)⟩
  | .float value, readsBack => by
    obtain ⟨_, read, _⟩ := readsBack
    obtain ⟨c, left, spelled, first⟩ := head_of_readNumeral read
    exact ⟨c, left, spelled, isBlank_of_first first, ne_of_first first (by decide) (by decide)⟩

theorem head_spellItems {room : Nat} {item : Json} (more : List Json)
    (fits : item.Fits Binary64.ReadsBack room) :
    ∃ c left, spellItems (item :: more) = c :: left ∧ isBlank c = false ∧ c ≠ ']' := by
  obtain ⟨c, left, spelled, solid, other⟩ := head_spell fits
  cases more with
  | nil => exact ⟨c, left, spelled, solid, other⟩
  | cons next more => exact ⟨c, _, by rw [spellItems, spelled]; rfl, solid, other⟩

theorem head_spellMembers (member : String × Json) (more : List (String × Json)) :
    ∃ left, spellMembers (member :: more) = '"' :: left := by
  cases more <;> exact ⟨_, rfl⟩

mutual

/-- What is written for a value is read as the value, up to what follows it. -/
theorem readValue_spell {rest : List Char} (stops : Stops rest) : ∀ (j : Json) (fuel room : Nat),
    j.Fits Binary64.ReadsBack room → 2 * j.spell.length ≤ fuel →
      readValue fuel room (j.spell ++ rest) = some (j, rest)
  | .null, _ + 1, _, _, _ | .bool true, _ + 1, _, _, _ | .bool false, _ + 1, _, _, _ => rfl
  | .integer value, _ + 1, _, fits, _ =>
    readValue_numeral (readNumeral_append stops (readNumeral_toString value)) (value?_integer fits)
  | .float value, _ + 1, _, readsBack, _ => by
    obtain ⟨_, read, known⟩ := readsBack
    exact readValue_numeral (readNumeral_append stops read) known
  | .text value, _ + 1, _, _, _ => by
    simp [spell, spellText, readValue_quote, readText_flatMap]
  | .array [], _ + 1, _ + 1, _, _ | .object [], _ + 1, _ + 1, _, _ => rfl
  | .array (item :: more), fuel + 1, room + 1, fits, enough => by
    obtain ⟨c, left, spelled, solid, other⟩ := head_spellItems more fits.1
    have read := readItems_spell rest item more fuel room [] fits (by simp [spell] at enough; omega)
    simp only [spell, List.cons_append, List.append_assoc, List.nil_append]
    rw [spelled] at read ⊢
    exact (readValue_bracket fuel room _ solid other).trans read
  | .object ((name, value) :: more), fuel + 1, room + 1, fits, enough => by
    obtain ⟨left, spelled⟩ := head_spellMembers (name, value) more
    have read := readMembers_spell rest name value more fuel room [] fits
      (by simp [spell] at enough; omega)
    simp only [spell, List.cons_append, List.append_assoc, List.nil_append]
    rw [spelled] at read ⊢
    exact (readValue_brace fuel room _).trans read
  | .array _, _, 0, fits, _ | .object _, _, 0, fits, _ => False.elim fits
  | j, 0, _, fits, enough => by
    obtain ⟨_, _, spelled, _⟩ := head_spell fits
    rw [spelled] at enough
    cases enough

/-- Items are read behind those that were read before. -/
theorem readItems_spell (rest : List Char) : ∀ (item : Json) (more : List Json) (fuel room : Nat)
    (done : List Json), AllFit Binary64.ReadsBack (item :: more) room →
      2 * (spellItems (item :: more)).length + 1 ≤ fuel →
        readItems fuel room done (spellItems (item :: more) ++ ']' :: rest) =
          some (.array (done.reverse ++ item :: more), rest)
  | item, [], fuel + 1, room, done, fits, enough => by
    have stops : Stops (']' :: rest) := by simp [Stops]
    have read := readValue_spell stops item fuel room fits.1 (by simp [spellItems] at enough; omega)
    rw [spellItems, readItems_last read]
  | item, next :: more, fuel + 1, room, done, fits, enough => by
    simp only [spellItems, List.length_append, List.length_cons] at enough
    have stops : Stops (',' :: (spellItems (next :: more) ++ ']' :: rest)) := by simp [Stops]
    have read := readValue_spell stops item fuel room fits.1 (by omega)
    have others := readItems_spell rest next more fuel room (item :: done) fits.2 (by omega)
    rw [spellItems, List.append_assoc, List.cons_append, readItems_comma read, others,
      List.reverse_cons, List.append_assoc, List.singleton_append]

/-- Members are read behind those that were read before. -/
theorem readMembers_spell (rest : List Char) : ∀ (name : String) (value : Json)
    (more : List (String × Json)) (fuel room : Nat) (done : List (String × Json)),
      MembersFit Binary64.ReadsBack ((name, value) :: more) room →
        2 * (spellMembers ((name, value) :: more)).length + 1 ≤ fuel →
          readMembers fuel room done (spellMembers ((name, value) :: more) ++ '\x7d' :: rest) =
            some (.object (done.reverse ++ (name, value) :: more), rest)
  | name, value, [], fuel + 1, room, done, fits, enough => by
    have stops : Stops ('\x7d' :: rest) := by simp [Stops]
    have read := readValue_spell stops value fuel room fits.1 (by simp [spellMembers] at enough; omega)
    rw [spellMembers, List.append_assoc, List.cons_append, readMembers_last name read]
  | name, value, (nextName, next) :: more, fuel + 1, room, done, fits, enough => by
    simp only [spellMembers, List.length_append, List.length_cons] at enough
    have stops : Stops (',' :: (spellMembers ((nextName, next) :: more) ++ '\x7d' :: rest)) := by
      simp [Stops]
    have read := readValue_spell stops value fuel room fits.1 (by omega)
    have others := readMembers_spell rest nextName next more fuel room ((name, value) :: done) fits.2
      (by omega)
    simp only [spellMembers, List.append_assoc, List.cons_append]
    rw [readMembers_comma name read, others, List.reverse_cons, List.append_assoc,
      List.singleton_append]

end

/-- What is written for a value is read as the value. -/
theorem read?_write {nesting : Nat} {j : Json} (fits : j.Fits Binary64.ReadsBack nesting) :
    read? nesting j.write = some j := by
  have stops : Stops [] := by simp [Stops]
  have read := readValue_spell stops j (2 * j.spell.length + 2) nesting fits (by omega)
  rw [List.append_nil] at read
  simp [read?, toList_write, read, skipBlanks]

end Json

end SyntaxGraph
