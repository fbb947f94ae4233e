import Mathlib.Data.String.Basic
import Mathlib.Tactic.SplitIfs
/-!
# The bytes of a text

A text stands for its bytes in UTF-8, and texts can be put in order byte by byte or character by character.  The two
orders are one (`Text.bytes_lt_iff`).  Where two texts first differ, the character with the smaller code point has the
smaller bytes, and no bytes of one character begin those of another.
-/
namespace TableAccess
namespace Text

/-- The bytes of a text in UTF-8. -/
def bytes (s : String) : List UInt8 := s.toUTF8.data.toList

theorem bytes_eq_flatMap (s : String) : bytes s = s.toList.flatMap String.utf8EncodeChar := by
  have h : s.toUTF8 = s.toList.utf8Encode := by
    rw [← String.toByteArray_ofList, String.ofList_toList]
    rfl
  rw [bytes, h]
  exact List.toList_data_toByteArray

/-- **The bytes decide the text.** -/
theorem bytes_inj {s t : String} : bytes s = bytes t ↔ s = t := by
  refine ⟨fun h => ?_, congrArg bytes⟩
  exact String.toByteArray_inj.1 (ByteArray.ext (Array.toList_inj.1 h))

theorem toNat_lt_of_char (c : Char) : c.val.toNat < 0x110000 := by
  have h := c.valid
  simp only [UInt32.isValidChar, Nat.isValidChar] at h
  omega

/-- The six-bit groups of a number, from the last on. -/
theorem groups (n : Nat) : n / 4096 = n / 64 / 64 ∧ n / 262144 = n / 64 / 64 / 64 := by omega

/-- **A smaller code point has smaller bytes**, whatever comes after them. -/
theorem encode_lt {c d : Char} (h : c < d) (after after' : List UInt8) :
    String.utf8EncodeChar c ++ after < String.utf8EncodeChar d ++ after' := by
  have hd := toNat_lt_of_char d
  have hcd : c.val.toNat < d.val.toNat := UInt32.lt_iff_toNat_lt.1 (Char.lt_def.1 h)
  unfold String.utf8EncodeChar
  generalize c.val.toNat = v at hcd ⊢
  generalize d.val.toNat = w at hd hcd ⊢
  -- both are written with one to four bytes, and a longer form begins with a larger byte
  simp only [groups]
  split_ifs <;>
    simp only [List.cons_append, List.nil_append, List.cons_lt_cons_iff, UInt8.lt_iff_toNat_lt, ← UInt8.toNat_inj,
      UInt8.toNat_ofNat'] <;> omega

/-- **Bytes are in the order of their characters.** -/
theorem flatMap_encode_lt : ∀ {cs ds : List Char}, cs < ds →
    cs.flatMap String.utf8EncodeChar < ds.flatMap String.utf8EncodeChar
  | cs, [], h => absurd h (List.not_lt_nil cs)
  | [], d :: ds, _ => by
    obtain ⟨b, bs, hb⟩ := List.exists_cons_of_ne_nil (String.utf8EncodeChar_ne_nil (c := d))
    rw [List.flatMap_nil, List.flatMap_cons, hb, List.cons_append]
    exact List.nil_lt_cons _ _
  | c :: cs, d :: ds, h => by
    rw [List.flatMap_cons, List.flatMap_cons]
    rcases List.cons_lt_cons_iff.1 h with hc | ⟨rfl, hs⟩
    · exact encode_lt hc _ _
    · exact List.append_left_lt (flatMap_encode_lt hs)

theorem bytes_lt {s t : String} (h : s < t) : bytes s < bytes t := by
  rw [bytes_eq_flatMap, bytes_eq_flatMap]
  exact flatMap_encode_lt (String.lt_iff_toList_lt.1 h)

/-- **Texts compare as their bytes do.** -/
theorem bytes_lt_iff {s t : String} : bytes s < bytes t ↔ s < t := by
  refine ⟨fun h => ?_, bytes_lt⟩
  rcases lt_trichotomy s t with hs | rfl | ht
  · exact hs
  · exact absurd h (List.lt_irrefl _)
  · exact absurd h (List.lt_asymm (bytes_lt ht))

end Text
end TableAccess
