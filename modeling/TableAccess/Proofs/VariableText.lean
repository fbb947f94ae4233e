import Mathlib
import TableAccess.Config.Overlay
import TableAccess.Config.Validation
import TableAccess.Config.Variables
import TableAccess.Datum.Reading
/-!
# The text of a variable

A variable that is read as a truth value or as a number counts as the text that it is shown with, which need not be the
text that was written (`Config.settingText`).  A text that begins unlike a number stands for itself
(`Config.settingText_of_plain`).  So the name of a log level does, and no other text becomes one
(`Config.level_settingText_iff`).
-/
namespace TableAccess
namespace Config

/-- **What a value counts as where a text is wanted**: a truth value in lower case, an integer without needless signs
and zeros, any other number written out; and every other text as it is. -/
def settingText (value : String) : String :=
  if Text.lower value = "true" ∨ Text.lower value = "false" then Text.lower value
  else
    match integerOf? value.toList, floatOf? value.toList with
    | some n, _ => toString n
    | none, some x => Decimal.floatText x
    | none, none => value

theorem text_variableDatum (value : String) : Reading.lenient.text (variableDatum value) = some (settingText value) := by
  unfold variableDatum settingText
  simp only [Bool.or_eq_true, beq_iff_eq]
  split
  · rfl
  · cases integerOf? value.toList with
    | some n => rfl
    | none => cases floatOf? value.toList <;> rfl

/-- A variable is no table, so it takes the place of what it is put on top of. -/
theorem merge_variableDatum (value : String) : merge (variableDatum value) = fun _ => variableDatum value := by
  funext d
  unfold variableDatum
  dsimp only
  split
  · rw [merge]
    nofun
  · split <;> rw [merge] <;> nofun

/-- Zeros in front of an integer are not kept. -/
theorem settingText_zeros : settingText "007" = "7" := by
  have hi : integerOf? "007".toList = some 7 := by decide
  rw [settingText, if_neg (by decide), hi]
  rfl

/-! ## Texts that are no numbers -/

/-- **A text that cannot be taken for a number or a truth value**: it begins with no digit, sign or point, and is none of
the words for them. -/
structure Plain (value : String) : Prop where
  start : ∀ c ∈ value.toList.head?, c.isDigit = false ∧ c ≠ '+' ∧ c ≠ '-' ∧ c ≠ '.'
  word : Text.lower value ∉ ["true", "false", "inf", "infinity", "nan"]

theorem splitSign_eq_self : ∀ {cs : List Char}, (∀ c ∈ cs.head?, c ≠ '+' ∧ c ≠ '-') →
    Decimal.splitSign cs = (false, cs)
  | [], _ => rfl
  | c :: cs, h => by
    obtain ⟨hp, hm⟩ := h c rfl
    unfold Decimal.splitSign
    split <;> simp_all

theorem integerOf?_eq_none : ∀ {cs : List Char}, (∀ c ∈ cs.head?, c.isDigit = false ∧ c ≠ '+' ∧ c ≠ '-') →
    integerOf? cs = none
  | [], _ => rfl
  | c :: cs, h => by
    obtain ⟨hd, -⟩ := h c rfl
    rw [integerOf?, splitSign_eq_self fun c hc => (h c hc).2]
    simp [hd, guard]

theorem mantissa?_eq_none : ∀ {cs : List Char}, (∀ c ∈ cs.head?, c.isDigit = false ∧ c ≠ '.') → mantissa? cs = none
  | [], _ => rfl
  | c :: cs, h => by
    obtain ⟨hd, hp⟩ := h c rfl
    simp [mantissa?, hd, hp, guard]

theorem variableDatum_of_plain {value : String} (h : Plain value) : variableDatum value = .text value := by
  have hw := h.word
  simp only [List.mem_cons, not_or] at hw
  obtain ⟨ht, hf, hi, hy, hn, -⟩ := hw
  have hint : integerOf? value.toList = none := integerOf?_eq_none fun c hc => by
    obtain ⟨hd, hp, hm, -⟩ := h.start c hc
    exact ⟨hd, hp, hm⟩
  have hsign : Decimal.splitSign value.toList = (false, value.toList) := splitSign_eq_self fun c hc => by
    obtain ⟨-, hp, hm, -⟩ := h.start c hc
    exact ⟨hp, hm⟩
  have hsize : mantissa? value.toList = none := mantissa?_eq_none fun c hc => by
    obtain ⟨hd, -, -, hp⟩ := h.start c hc
    exact ⟨hd, hp⟩
  have hfloat : floatOf? value.toList = none := by
    rw [floatOf?, hsign]
    simp [String.ofList_toList, hi, hy, hn, hsize]
  rw [variableDatum, if_neg (by simp [ht, hf]), hint, hfloat]

/-- **A plain text stands for itself.** -/
theorem settingText_of_plain {value : String} (h : Plain value) : settingText value = value := by
  have hd := text_variableDatum value
  rw [variableDatum_of_plain h] at hd
  exact (Option.some.inj hd).symm

/-! ## The names of levels -/

theorem isAlpha_of_isDigit {c : Char} (h : c.isDigit = true) : c.isAlpha = false := by
  simp only [Char.isAlpha, Char.isUpper, Char.isLower, Char.isDigit] at h ⊢
  grind

/-- The name of a level begins with a letter. -/
theorem head_of_level {level : String} (h : Text.lower level ∈ logLevels) :
    ∃ c ∈ level.toList.head?, c.isAlpha = true := by
  have hl : ∀ name ∈ logLevels, name.toList.head?.map Char.isAlpha = some true := by decide
  have hh := hl _ h
  rw [Text.toList_lower, List.head?_map, Option.map_map] at hh
  obtain ⟨c, hc, ha⟩ := Option.map_eq_some_iff.1 hh
  exact ⟨c, hc, (Char.isAlpha_toLower_eq_isAlpha c).symm.trans ha⟩

theorem not_level_of_head {s : String} (h : ∀ c ∈ s.toList.head?, c.isAlpha = false) : Text.lower s ∉ logLevels := by
  intro hm
  obtain ⟨c, hc, ha⟩ := head_of_level hm
  rw [h c hc] at ha
  cases ha

theorem plain_of_level {level : String} (h : Text.lower level ∈ logLevels) : Plain level := by
  obtain ⟨c, hc, ha⟩ := head_of_level h
  refine ⟨fun d hd => ?_, fun hw => ?_⟩
  · obtain rfl : c = d := Option.some.inj (hc.symm.trans hd)
    have hdigit : c.isDigit = false := by
      cases hn : c.isDigit with
      | false => rfl
      | true => rw [isAlpha_of_isDigit hn] at ha; cases ha
    refine ⟨hdigit, ?_, ?_, ?_⟩ <;> rintro rfl <;> cases ha
  · have hd : ∀ name ∈ logLevels, name ∉ ["true", "false", "inf", "infinity", "nan"] := by decide
    exact hd _ h hw

/-! ## Numbers are no levels -/

theorem mem_toDigits_isAlpha {n : Nat} {c : Char} (h : c ∈ Nat.toDigits 10 n) : c.isAlpha = false :=
  isAlpha_of_isDigit (Nat.isDigit_of_mem_toDigits (by decide) (by decide) h)

/-- A number that is written out has no letters. -/
theorem isAlpha_writtenOut {digits : Nat} {exponent : Int} {c : Char}
    (h : c ∈ (Decimal.writtenOut digits exponent).toList) : c.isAlpha = false := by
  have hz : ∀ {k : Nat}, c ∈ List.replicate k '0' → c.isAlpha = false := fun hc => by
    rw [List.eq_of_mem_replicate hc]
    rfl
  unfold Decimal.writtenOut at h
  split at h
  · rw [String.toList_ofList, List.mem_append] at h
    exact h.elim mem_toDigits_isAlpha hz
  · -- before the point and after it stand digits of the padded number
    have hp : ∀ {places : Nat} {ds : List Char}, ds = Nat.toDigits 10 digits →
        c ∈ List.replicate (places + 1 - ds.length) '0' ++ ds → c.isAlpha = false := by
      rintro places ds rfl hc
      exact (List.mem_append.1 hc).elim hz mem_toDigits_isAlpha
    dsimp only at h
    rw [String.toList_ofList] at h
    split at h
    · exact hp rfl (List.mem_of_mem_take h)
    · rcases List.mem_append.1 h with h | h
      · exact hp rfl (List.mem_of_mem_take h)
      · rcases List.mem_cons.1 h with rfl | h
        · rfl
        · rw [List.mem_reverse] at h
          have hd := List.mem_reverse.1 ((List.dropWhile_sublist _).mem h)
          exact hp rfl (List.mem_of_mem_drop hd)

theorem head_isAlpha_minus {s : String} : ∀ c ∈ ("-" ++ s).toList.head?, c.isAlpha = false := by
  intro c hc
  rw [String.toList_append] at hc
  obtain rfl : '-' = c := Option.some.inj hc
  rfl

theorem not_level_intText (n : Int) : Text.lower (toString n) ∉ logLevels := by
  refine not_level_of_head ?_
  cases n with
  | ofNat n =>
    intro c hc
    have hn : (toString (Int.ofNat n)).toList = Nat.toDigits 10 n := Nat.toList_repr
    rw [hn] at hc
    exact mem_toDigits_isAlpha (List.mem_of_mem_head? hc)
  | negSucc n => exact head_isAlpha_minus

theorem not_level_floatText (x : Float) : Text.lower (Decimal.floatText x) ∉ logLevels := by
  unfold Decimal.floatText
  -- nothing is asked of the digits but that they are some, and they are not to be worked out
  generalize (Decimal.Binary.ofBits x.toBits).shortest = d
  obtain ⟨digits, exponent⟩ := d
  split
  · decide
  dsimp only
  split
  · exact not_level_of_head head_isAlpha_minus
  split
  · decide
  split
  · decide
  · exact not_level_of_head fun c hc => isAlpha_writtenOut (List.mem_of_mem_head? hc)

/-- **A variable counts as the name of a level exactly if it is one**, and then as it is written. -/
theorem level_settingText_iff {value : String} :
    Text.lower (settingText value) ∈ logLevels ↔ Text.lower value ∈ logLevels := by
  refine ⟨fun h => ?_, fun h => by rwa [settingText_of_plain (plain_of_level h)]⟩
  unfold settingText at h
  split at h
  · rename_i hw
    have hn : ∀ word ∈ ["true", "false"], Text.lower word ∉ logLevels := by decide
    exact absurd h (hn _ (by simpa using hw))
  · split at h
    · exact absurd h (not_level_intText _)
    · exact absurd h (not_level_floatText _)
    · exact h

end Config
end TableAccess
