import TableAccess.Proofs.LetterCase
import TableAccess.Scope
import TableAccess.Text.Mark
/-!
# The text of a scope

The grammar of scopes (`Scope.Written`) is a keyword in any letter case, alone or with a colon and a value that is not
empty.  Reading accepts exactly the grammar, keeps the value as it stands and refuses everything else by quoting it
(`Scope.parse_exact`).  The text form tells all scopes apart, and is read back as the scope it is the text of unless that
scope has a value and the value is empty (`Scope.text_identifies`).
-/
namespace TableAccess
namespace Scope

open Text (SameButCase lower)

/-- **The grammar of scopes**: which text says which scope. -/
inductive Written : String → Scope → Prop
  | default {word : String} (hw : SameButCase word "default") : Written word .default
  | empty {word : String} (hw : SameButCase word "empty") : Written word .empty
  /-- A user scope without a user. -/
  | nobody {word : String} (hw : SameButCase word "user") : Written word (.user none)
  | user {word id : String} (hw : SameButCase word "user") (hid : id ≠ "") :
    Written (word ++ ":" ++ id) (.user (some ⟨id⟩))
  | group {word name : String} (hw : SameButCase word "group") (hn : name ≠ "") :
    Written (word ++ ":" ++ name) (.group name)

/-! ## The first colon -/

theorem splitColon_of_not_mem {s : String} (h : ':' ∉ s.toList) : splitColon s = (s, none) := by
  simp only [splitColon, Text.takeWhile_of_no_mark h, Text.dropWhile_of_no_mark h, String.ofList_toList]

theorem splitColon_append {word : String} (h : ':' ∉ word.toList) (value : String) :
    splitColon (word ++ ":" ++ value) = (word, some value) := by
  have hs : (word ++ ":" ++ value).toList = word.toList ++ ':' :: value.toList := by simp
  simp only [splitColon, hs, Text.takeWhile_mark h, Text.dropWhile_mark h, String.ofList_toList]

/-- **A text has no colon, or a first one.** -/
theorem word_or_split (s : String) :
    ':' ∉ s.toList ∨ ∃ word value, s = word ++ ":" ++ value ∧ ':' ∉ word.toList := by
  by_cases h : ':' ∈ s.toList
  · obtain ⟨before, after, hs, hb⟩ := List.eq_append_cons_of_mem h
    refine .inr ⟨String.ofList before, String.ofList after, ?_, by simpa using hb⟩
    rw [← String.toList_inj, hs]
    simp
  · exact .inl h

/-! ## Keywords -/

/-- A keyword is written in small letters and has no colon. -/
def IsKeyword (keyword : String) : Prop := lower keyword = keyword ∧ ':' ∉ keyword.toList

instance (keyword : String) : Decidable (IsKeyword keyword) := inferInstanceAs (Decidable (_ ∧ _))

/-- **A word is a keyword, letter case aside, if it folds to it**, and then it has no colon. -/
theorem lower_eq_keyword_iff {word keyword : String} (hk : IsKeyword keyword) :
    lower word = keyword ↔ SameButCase word keyword := by
  rw [← Text.lower_eq_lower_iff, hk.1]

theorem not_mem_colon {word keyword : String} (hk : IsKeyword keyword) (hl : lower word = keyword) :
    ':' ∉ word.toList := by
  intro hm
  refine hk.2 ?_
  rw [← hl, Text.toList_lower]
  exact List.mem_map.2 ⟨':', hm, by decide⟩

theorem keyword_facts {word keyword : String} (hk : IsKeyword keyword) (hw : SameButCase word keyword) :
    lower word = keyword ∧ ':' ∉ word.toList := by
  have hl := (lower_eq_keyword_iff hk).2 hw
  exact ⟨hl, not_mem_colon hk hl⟩

/-- **A text with its keyword in small letters**: the part before the first colon, or all of it, is folded, and the colon
and what comes after it stay as they are. -/
def KeywordLowered (s t : String) : Prop :=
  ∃ keyword rest, s = keyword ++ rest ∧ ':' ∉ keyword.toList ∧ (rest = "" ∨ rest.toList.head? = some ':') ∧
    t = lower keyword ++ rest

theorem keywordLowered_of_keyword {word keyword : String} (hk : IsKeyword keyword) (hw : SameButCase word keyword) :
    KeywordLowered word keyword := by
  obtain ⟨hl, hc⟩ := keyword_facts hk hw
  exact ⟨word, "", by simp, hc, .inl rfl, by simp [hl]⟩

theorem keywordLowered_of_value {word keyword : String} (hk : IsKeyword keyword) (hw : SameButCase word keyword)
    (value : String) : KeywordLowered (word ++ ":" ++ value) (keyword ++ ":" ++ value) := by
  obtain ⟨hl, hc⟩ := keyword_facts hk hw
  refine ⟨word, ":" ++ value, String.append_assoc, hc, .inr (by simp), ?_⟩
  rw [hl, String.append_assoc]

/-! ## Reading -/

/-- What is read is in the grammar. -/
theorem written_of_parse {s : String} {scope : Scope} (h : parse s = .ok scope) : Written s scope := by
  unfold parse at h
  rcases word_or_split s with hc | ⟨word, value, rfl, hc⟩
  -- a text without a colon has no value, so the two forms that need one are out
  · rw [splitColon_of_not_mem hc] at h
    dsimp only at h
    split at h
    · rename_i hl _
      cases h
      exact .default ((lower_eq_keyword_iff (by decide)).1 hl)
    · rename_i hl _
      cases h
      exact .empty ((lower_eq_keyword_iff (by decide)).1 hl)
    · rename_i hl _
      cases h
      exact .nobody ((lower_eq_keyword_iff (by decide)).1 hl)
    · cases ‹none = some _›
    · cases ‹none = some _›
    · cases h
  · rw [splitColon_append hc] at h
    dsimp only at h
    split at h
    · cases ‹some value = none›
    · cases ‹some value = none›
    · cases ‹some value = none›
    · rename_i hl hv
      cases hv
      split at h
      · cases h
      · rename_i hne
        cases h
        exact .user ((lower_eq_keyword_iff (by decide)).1 hl) fun he => hne (he ▸ rfl)
    · rename_i hl hv
      cases hv
      split at h
      · cases h
      · rename_i hne
        cases h
        exact .group ((lower_eq_keyword_iff (by decide)).1 hl) fun he => hne (he ▸ rfl)
    · cases h

/-- What is in the grammar is read. -/
theorem parse_of_written {s : String} {scope : Scope} (h : Written s scope) : parse s = .ok scope := by
  cases h with
  | default hw =>
    obtain ⟨hl, hc⟩ := keyword_facts (by decide) hw
    simp [parse, splitColon_of_not_mem hc, hl]
  | empty hw =>
    obtain ⟨hl, hc⟩ := keyword_facts (by decide) hw
    simp [parse, splitColon_of_not_mem hc, hl]
  | nobody hw =>
    obtain ⟨hl, hc⟩ := keyword_facts (by decide) hw
    simp [parse, splitColon_of_not_mem hc, hl]
  | user hw hid =>
    obtain ⟨hl, hc⟩ := keyword_facts (by decide) hw
    simp [parse, splitColon_append hc, hl, hid]
  | group hw hn =>
    obtain ⟨hl, hc⟩ := keyword_facts (by decide) hw
    simp [parse, splitColon_append hc, hl, hn]

theorem parse_eq_ok_iff {s : String} {scope : Scope} : parse s = .ok scope ↔ Written s scope :=
  ⟨written_of_parse, parse_of_written⟩

/-- **What is refused is quoted.** -/
theorem eq_of_parse_eq_error {s : String} {e : TextError} (h : parse s = .error e) : e = .scope s := by
  unfold parse at h
  dsimp only at h
  split at h
  · cases h
  · cases h
  · cases h
  · split at h <;> cases h
    rfl
  · split at h <;> cases h
    rfl
  · cases h
    rfl

/-- **A text is refused if no scope is written so.** -/
theorem parse_of_not_written {s : String} (h : ¬ ∃ scope, Written s scope) : parse s = .error (.scope s) := by
  cases hp : parse s with
  | ok scope => exact absurd ⟨scope, written_of_parse hp⟩ h
  | error e => rw [eq_of_parse_eq_error hp]

theorem text_of_written {s : String} {scope : Scope} (h : Written s scope) : KeywordLowered s scope.text := by
  cases h with
  | default hw => exact keywordLowered_of_keyword (by decide) hw
  | empty hw => exact keywordLowered_of_keyword (by decide) hw
  | nobody hw => exact keywordLowered_of_keyword (by decide) hw
  | user hw hid => exact keywordLowered_of_value (by decide) hw _
  | group hw hn => exact keywordLowered_of_value (by decide) hw _

/-- **Reading accepts exactly the grammar and normalises only the keyword.**  A text is read as a scope if the scope is
written so, and the text of that scope is the text that was read, with the keyword in small letters.  Every other text is
refused with a message that quotes it as it stands. -/
theorem parse_exact (s : String) :
    (∀ scope, parse s = .ok scope ↔ Written s scope) ∧
    (∀ scope, parse s = .ok scope → KeywordLowered s scope.text) ∧
    ((¬ ∃ scope, Written s scope) →
      parse s = .error (.scope s) ∧ (TextError.scope s).message = "invalid scope '" ++ s ++ "'") := by
  refine ⟨fun scope => parse_eq_ok_iff, fun scope h => ?_, fun h => ?_⟩
  · exact text_of_written (written_of_parse h)
  · exact ⟨parse_of_not_written h, rfl⟩

/-- A keyword that takes no value is refused with a colon after it. -/
example : parse "Default:" = .error (.scope "Default:") := by decide

/-! ## Reading back -/

/-- **A scope with a value that is empty.** -/
def EmptyValued (scope : Scope) : Prop := scope = .user (some ⟨""⟩) ∨ scope = .group ""

/-- A scope is written as its text, if its value is not empty. -/
theorem written_text {scope : Scope} (h : ¬ scope.EmptyValued) : Written scope.text scope := by
  have same (keyword : String) : SameButCase keyword keyword := Text.lower_eq_lower_iff.1 rfl
  rcases scope with _ | (_ | ⟨⟨id⟩⟩) | name | _
  · exact .default (same _)
  · exact .nobody (same _)
  · exact .user (same "user") fun he => h (.inl (he ▸ rfl))
  · exact .group (same "group") fun he => h (.inr (he ▸ rfl))
  · exact .empty (same _)

/-- **No text says a scope whose value is empty.** -/
theorem not_emptyValued_of_written {s : String} {scope : Scope} (h : Written s scope) : ¬ scope.EmptyValued := by
  rintro (rfl | rfl)
  · cases h with
    | user _ hid => exact hid rfl
  · cases h with
    | group _ hn => exact hn rfl

/-- **The text of a scope identifies it.**  Scopes with the same text are the same, those that are not read back
included.  The text of a scope is read as that scope, unless the scope has a value and the value is empty; then the text
is refused, and so is read as no other scope. -/
theorem text_identifies (a b : Scope) :
    (a.text = b.text ↔ a = b) ∧
    parse a.text = if a = .user (some ⟨""⟩) ∨ a = .group "" then .error (.scope a.text) else .ok a := by
  refine ⟨⟨text_injective, congrArg text⟩, ?_⟩
  split
  · rename_i h
    rcases h with rfl | rfl <;> decide
  · rename_i h
    exact parse_of_written (written_text h)

end Scope
end TableAccess
