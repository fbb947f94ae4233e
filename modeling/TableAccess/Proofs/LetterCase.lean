import Mathlib
import TableAccess.Text.Bytes
import TableAccess.Text
/-!
# Letter case

Two texts fold alike exactly if they are as long and have the same character at each place, the case of a letter from A
to Z aside (`Text.lower_eq_lower_iff`).  No other character stands for a letter, whatever it looks like, and no letter
for two characters.

The same can be said of bytes (`Text.sameBytesButCase_iff`): a letter from A to Z is one byte, and no byte of any other
character is a letter.
-/
namespace TableAccess
namespace Text

/-- **The same character, letter case aside**: the same one, or a letter from A to Z and its small letter. -/
def SameLetter (a b : Char) : Prop :=
  a = b ∨ (a.isUpper = true ∧ b.toNat = a.toNat + 32) ∨ (b.isUpper = true ∧ a.toNat = b.toNat + 32)

instance (a b : Char) : Decidable (SameLetter a b) := inferInstanceAs (Decidable (_ ∨ _))

/-- **The same text, letter case aside**, character by character. -/
def SameButCase (s t : String) : Prop := List.Forall₂ SameLetter s.toList t.toList

theorem isUpper_iff_toNat {c : Char} : c.isUpper = true ↔ 65 ≤ c.toNat ∧ c.toNat ≤ 90 := by
  simp [Char.isUpper, UInt32.le_iff_toNat_le, ← Char.toNat_val]

theorem toNat_toLower (c : Char) : c.toLower.toNat = if c.isUpper = true then c.toNat + 32 else c.toNat := by
  split
  · rename_i hc
    have hv : (c.toNat + 32).isValidChar := by
      have := isUpper_iff_toNat.1 hc
      omega
    rw [Char.toLower_eq_of_isUpper hc, Char.toNat_ofNat, if_pos hv]
  · rename_i hc
    rw [Char.toLower_eq_of_not_isUpper hc]

theorem toLower_eq_toLower_iff {a b : Char} : a.toLower = b.toLower ↔ SameLetter a b := by
  rw [← Char.toNat_inj, toNat_toLower, toNat_toLower, SameLetter, ← Char.toNat_inj]
  simp only [isUpper_iff_toNat]
  -- a small letter is no capital, so a letter is never two steps away
  split <;> split <;> omega

/-- **Texts fold alike if they are the same but for letter case.** -/
theorem lower_eq_lower_iff {s t : String} : lower s = lower t ↔ SameButCase s t := by
  rw [SameButCase, ← String.toList_inj, toList_lower, toList_lower, ← List.forall₂_eq_eq_eq,
    List.forall₂_map_left_iff, List.forall₂_map_right_iff]
  have hl : (fun a b : Char => a.toLower = b.toLower) = SameLetter := by
    funext a b
    exact propext toLower_eq_toLower_iff
  rw [hl]

/-- The sign for degrees kelvin is no letter. -/
example : ¬ SameLetter '\u212a' 'k' := by decide

/-! ## The bytes -/

/-- A byte that is a letter from A to Z in ASCII becomes the small letter; any other stays. -/
def lowerByte (b : UInt8) : UInt8 := if 65 ≤ b ∧ b ≤ 90 then b + 32 else b

/-- **The same byte, letter case aside.** -/
def SameLetterByte (a b : UInt8) : Prop :=
  a = b ∨ ((65 ≤ a ∧ a ≤ 90) ∧ b = a + 32) ∨ ((65 ≤ b ∧ b ≤ 90) ∧ a = b + 32)

/-- **As many bytes, and the same at each place, letter case aside.** -/
def SameBytesButCase (s t : String) : Prop := List.Forall₂ SameLetterByte (bytes s) (bytes t)

theorem lowerByte_eq_lowerByte_iff {a b : UInt8} : lowerByte a = lowerByte b ↔ SameLetterByte a b := by
  simp only [lowerByte, SameLetterByte, ← UInt8.toNat_inj, UInt8.le_iff_toNat_le, apply_ite UInt8.toNat,
    UInt8.toNat_add, UInt8.toNat_ofNat]
  have ha := a.toNat_lt
  have hb := b.toNat_lt
  split <;> split <;> omega

theorem lowerByte_of_le {b : UInt8} (h : 128 ≤ b) : lowerByte b = b := by
  refine if_neg fun hb => ?_
  simp only [UInt8.le_iff_toNat_le, UInt8.toNat_ofNat] at h hb
  omega

theorem lowerByte_ofNat {n : Nat} (h : n ≤ 127) :
    lowerByte (UInt8.ofNat n) = UInt8.ofNat (if 65 ≤ n ∧ n ≤ 90 then n + 32 else n) := by
  have hn : n % 256 = n := Nat.mod_eq_of_lt (by omega)
  unfold lowerByte
  simp only [UInt8.le_iff_toNat_le, UInt8.toNat_ofNat', UInt8.toNat_ofNat, hn, Nat.reducePow]
  split
  · simp [UInt8.ofNat_add]
  · rfl

theorem encode_of_ascii {c : Char} (h : c.toNat ≤ 127) : String.utf8EncodeChar c = [UInt8.ofNat c.toNat] := if_pos h

/-- **The bytes of a character beyond ASCII are beyond ASCII**, so none of them is taken for a letter. -/
theorem le_of_mem_encode {c : Char} (h : 127 < c.toNat) : ∀ b ∈ String.utf8EncodeChar c, 128 ≤ b := by
  have hn : ¬ c.val.toNat ≤ 127 := Nat.not_le.2 h
  unfold String.utf8EncodeChar
  rw [if_neg hn]
  generalize c.val.toNat = v
  -- in two to four bytes the first is 192 or more, and those after it are 128 or more
  split_ifs <;>
    simp only [List.mem_cons, List.not_mem_nil, or_false, forall_eq_or_imp, forall_eq, UInt8.le_iff_toNat_le,
      UInt8.toNat_ofNat', UInt8.toNat_ofNat] <;> omega

theorem encode_toLower (c : Char) : String.utf8EncodeChar c.toLower = (String.utf8EncodeChar c).map lowerByte := by
  have hl := toNat_toLower c
  rcases Nat.lt_or_ge 127 c.toNat with hc | hc
  · have hu : ¬ c.isUpper = true := by
      intro hu
      have := isUpper_iff_toNat.1 hu
      omega
    have hb : (String.utf8EncodeChar c).map lowerByte = (String.utf8EncodeChar c).map id :=
      List.map_congr_left fun b hb => lowerByte_of_le (le_of_mem_encode hc b hb)
    rw [Char.toLower_eq_of_not_isUpper hu, hb, List.map_id]
  · simp only [isUpper_iff_toNat] at hl
    have hlc : c.toLower.toNat ≤ 127 := by
      rw [hl]
      split <;> omega
    rw [encode_of_ascii hc, encode_of_ascii hlc, List.map_singleton, lowerByte_ofNat hc, hl]

/-- **A text is folded byte by byte.** -/
theorem bytes_lower (s : String) : bytes (lower s) = (bytes s).map lowerByte := by
  rw [bytes_eq_flatMap, bytes_eq_flatMap, toList_lower, List.flatMap_map, List.map_flatMap]
  simp only [encode_toLower]

/-- **Texts are the same but for letter case if their bytes are.** -/
theorem sameBytesButCase_iff {s t : String} : SameBytesButCase s t ↔ SameButCase s t := by
  have hl : (fun a b : UInt8 => lowerByte a = lowerByte b) = SameLetterByte := by
    funext a b
    exact propext lowerByte_eq_lowerByte_iff
  rw [← lower_eq_lower_iff, ← bytes_inj, bytes_lower, bytes_lower, ← List.forall₂_eq_eq_eq,
    List.forall₂_map_left_iff, List.forall₂_map_right_iff, hl, SameBytesButCase]

end Text
end TableAccess
