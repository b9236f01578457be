import SyntaxGraph.Proofs.Paths

/-!
# Addresses as bytes

Addresses are compared by their characters: one comes before another by code points, and one lies
within another if its text goes on with a slash. What is stored is bytes. UTF-8 makes no difference
to either comparison. A character with a larger code point has larger bytes, at the first place
where the two differ, and the bytes of one character never start those of another. So texts rise
as their bytes do, a text starts another exactly if its bytes do, and the one byte behind a
beginning is enough to tell whether a slash follows.
-/

namespace SyntaxGraph

namespace Text

/-- The bytes of a text in UTF-8. -/
def bytes (text : String) : List UInt8 := text.toUTF8.data.toList

theorem toUTF8_eq (text : String) : text.toUTF8 = text.toList.utf8Encode := by
  rw [String.toUTF8_eq_toByteArray, ← String.toByteArray_ofList, String.ofList_toList]

/-- A text is encoded character by character. -/
theorem bytes_eq (text : String) : bytes text = text.toList.flatMap String.utf8EncodeChar := by
  rw [bytes, toUTF8_eq, List.utf8Encode, List.toList_data_toByteArray]

theorem bytes_append (s t : String) : bytes (s ++ t) = bytes s ++ bytes t := by
  rw [bytes_eq, bytes_eq, bytes_eq, String.toList_append, List.flatMap_append]

/-! ## Beginnings -/

/-- The bytes of a text start those of another exactly if the text starts the other: no character is
cut in two. -/
theorem bytes_prefix_iff {s t : String} : bytes s <+: bytes t ↔ s.toList <+: t.toList := by
  constructor
  · rintro ⟨rest, same⟩
    apply List.isPrefix_of_utf8Encode_append_eq_utf8Encode rest.toByteArray
    rw [← toUTF8_eq, ← toUTF8_eq]
    apply ByteArray.ext
    apply Array.toList_inj.mp
    rw [ByteArray.data_append, Array.toList_append, List.toList_data_toByteArray]
    exact same
  · rintro ⟨rest, same⟩
    exact ⟨rest.flatMap String.utf8EncodeChar, by rw [bytes_eq, bytes_eq, ← same, List.flatMap_append]⟩

theorem bytes_injective {s t : String} (same : bytes s = bytes t) : s = t :=
  String.toByteArray_inj.mp (ByteArray.ext (Array.toList_inj.mp same))

/-! ## Order -/

/-- The bytes of the larger of two characters are larger, whatever follows either. -/
theorem encoded_lt {c d : Char} (less : c < d) (rest more : List UInt8) :
    String.utf8EncodeChar c ++ rest < String.utf8EncodeChar d ++ more := by
  have rises : c.val.toNat < d.val.toNat := less
  have bound : d.val.toNat < 1114112 := by
    have valid := d.valid
    simp only [UInt32.isValidChar, Nat.isValidChar] at valid
    omega
  rw [String.utf8EncodeChar, String.utf8EncodeChar]
  generalize c.val.toNat = v at *
  generalize d.val.toNat = w at *
  -- The code points to the base of 64, as the bytes behind the first have them.
  have ones : v / 64 < w / 64 ∨ v / 64 = w / 64 ∧ v % 64 < w % 64 := by omega
  have second : v / 64 / 64 < w / 64 / 64 ∨ v / 64 / 64 = w / 64 / 64 ∧ v / 64 % 64 ≤ w / 64 % 64 := by
    omega
  have third : v / 64 / 64 / 64 < w / 64 / 64 / 64 ∨
      v / 64 / 64 / 64 = w / 64 / 64 / 64 ∧ v / 64 / 64 % 64 ≤ w / 64 / 64 % 64 := by
    omega
  simp only [Nat.div_div_eq_div_mul, Nat.reduceMul] at second third
  -- Different numbers of bytes differ in the first byte already; the others differ in a digit.
  repeat' split
  all_goals
    simp (disch := omega) only [List.cons_append, List.cons_lt_cons_iff, UInt8.lt_iff_toNat_lt,
      ← UInt8.toNat_inj, UInt8.toNat_ofNat', Nat.reducePow, Nat.mod_eq_of_lt (b := 256),
      Nat.mod_eq_of_lt (b := 8)]
    omega

theorem encodedAll_lt {chars others : List Char} (less : chars < others) :
    chars.flatMap String.utf8EncodeChar < others.flatMap String.utf8EncodeChar := by
  induction less with
  | @nil c others =>
      obtain ⟨byte, bytes, encoded⟩ := List.exists_cons_of_ne_nil (String.utf8EncodeChar_ne_nil (c := c))
      rw [List.flatMap_nil, List.flatMap_cons, encoded]
      exact .nil
  | rel less => exact encoded_lt less _ _
  | cons _ ih => exact List.append_left_lt ih

theorem compare_eq_lt_iff_toList {s t : String} : compare s t = .lt ↔ s.toList < t.toList := by
  rw [← String.lt_iff, show compare s t = compareOfLessAndEq s t from rfl, compareOfLessAndEq]
  split
  · rename_i less
    exact iff_of_true rfl less
  · rename_i less
    split <;> exact iff_of_false nofun less

/-- Texts rise as their bytes do. -/
theorem compare_eq_lt_iff {s t : String} : compare s t = .lt ↔ bytes s < bytes t := by
  have rises : ∀ {s t : String}, compare s t = .lt → bytes s < bytes t := by
    intro s t less
    rw [bytes_eq, bytes_eq]
    exact encodedAll_lt (compare_eq_lt_iff_toList.mp less)
  refine ⟨rises, fun less => ?_⟩
  cases order : compare s t with
  | lt => rfl
  | eq =>
      rw [Std.LawfulEqOrd.eq_of_compare order] at less
      exact absurd less (List.lt_irrefl _)
  | gt => exact absurd less (List.lt_asymm (rises (Std.OrientedCmp.lt_of_gt order)))

end Text

namespace Address

def bytes (a : Address) : List UInt8 := Text.bytes a.text

/-- Addresses rise as their bytes do. -/
theorem compare_eq_lt_iff {a b : Address} : compare a b = .lt ↔ a.bytes < b.bytes :=
  Text.compare_eq_lt_iff

theorem bytes_injective {a b : Address} (same : a.bytes = b.bytes) : a = b :=
  ext_toList (congrArg String.toList (Text.bytes_injective same))

/-- A slash is one byte. -/
theorem bytes_slash (a : Address) : Text.bytes (a.text ++ "/") = a.bytes ++ [47] :=
  Text.bytes_append a.text "/"

/-- Within means the same bytes, or those and then the byte of a slash. -/
theorem isWithin_iff_bytes {a b : Address} : a.isWithin b = true ↔
    a.bytes = b.bytes ∨ b.bytes <+: a.bytes ∧ a.bytes[b.bytes.length]? = some 47 := by
  rw [isWithin_iff]
  constructor
  · rintro (rfl | ⟨rest, text⟩)
    · exact .inl rfl
    · obtain ⟨tail, same⟩ : b.bytes ++ [47] <+: a.bytes := by
        rw [← bytes_slash]
        exact Text.bytes_prefix_iff.mpr ⟨rest, by simp [text]⟩
      refine .inr ⟨⟨47 :: tail, by simpa using same⟩, ?_⟩
      rw [← same, List.append_assoc, List.getElem?_append_right (Nat.le_refl _), Nat.sub_self]
      rfl
  · rintro (same | ⟨⟨tail, same⟩, slash⟩)
    · exact .inl (bytes_injective same)
    · rw [← same, List.getElem?_append_right (Nat.le_refl _), Nat.sub_self] at slash
      obtain ⟨more, rfl⟩ := List.head?_eq_some_iff.mp (List.head?_eq_getElem?.trans slash)
      have begins : Text.bytes (b.text ++ "/") <+: a.bytes := ⟨more, by rw [bytes_slash, ← same]; simp⟩
      obtain ⟨rest, text⟩ := Text.bytes_prefix_iff.mp begins
      exact .inr ⟨rest, by simp [← text]⟩

end Address

end SyntaxGraph
