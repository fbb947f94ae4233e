import Mathlib
import TableAccess.Config.Overlay
import TableAccess.Config.Variables
/-!
# Names of variables and paths

A variable's name, with the part that marks it as a setting taken off and two underscores for each dot, spells the path of
its setting, in any letter case.  The names of the level (`Config.variableKey?_level`) and of the table of the record at
an index (`Config.variableKey?_table`) lead to just these places (`Config.address_level`, `Config.address_table`).
-/
namespace TableAccess
namespace Config

/-! ## Keys -/

/-- No letter case but that of A to Z is looked at, unless the name has the sign for kelvin. -/
theorem map_lowerNameChar {name want : String} (h : Text.sameFolded name want = true)
    (hk : '\u212a' ∉ want.toList.map Char.toLower) :
    name.toList.map lowerNameChar = want.toList.map Char.toLower := by
  rw [Text.sameFolded_iff] at h
  rw [← h] at hk ⊢
  refine List.map_congr_left fun c hc => ?_
  have hne : c ≠ '\u212a' := fun he => hk (List.mem_map.2 ⟨c, hc, by rw [he]; decide⟩)
  rw [lowerNameChar, if_neg (by simpa using hne)]

theorem variableKey?_of_sameFolded {name rest : String} (h : Text.sameFolded name ("TABLES_AUTHZ__" ++ rest) = true)
    (hk : '\u212a' ∉ rest.toList.map Char.toLower) :
    variableKey? name = some (String.ofList (dotted (rest.toList.map Char.toLower))) := by
  have hw : ("TABLES_AUTHZ__" ++ rest).toList.map Char.toLower = variablePrefix ++ rest.toList.map Char.toLower := by
    rw [String.toList_append, List.map_append]
    rfl
  have hm : name.toList.map lowerNameChar = variablePrefix ++ rest.toList.map Char.toLower := by
    rw [map_lowerNameChar h, hw]
    rw [hw, List.mem_append, not_or]
    exact ⟨by decide, hk⟩
  rw [variableKey?, hm]
  simp

theorem dotted_append : ∀ {cs : List Char} (rest : List Char), '_' ∉ cs → dotted (cs ++ rest) = cs ++ dotted rest
  | [], _, _ => rfl
  | c :: cs, rest, h => by
    rw [List.mem_cons, not_or] at h
    rw [List.cons_append, dotted, dotted_append rest h.2]
    · rfl
    · rintro _ rfl
      exact absurd rfl h.1

theorem variableKey?_level {name : String} (h : Text.sameFolded name "TABLES_AUTHZ__LOGGING__LEVEL" = true) :
    variableKey? name = some "logging.level" := by
  have hs : "TABLES_AUTHZ__LOGGING__LEVEL" = "TABLES_AUTHZ__" ++ "LOGGING__LEVEL" := by decide
  rw [variableKey?_of_sameFolded (hs ▸ h) (by decide)]
  decide

/-- **The variable for the table of the record at an index.** -/
def tableVariable (index : Nat) : String := "TABLES_AUTHZ__" ++ ("ACLS[" ++ toString index ++ "]__TABLE_ID")

/-- A record as a key names it: its index in brackets. -/
def recordKey (index : Nat) : List Char := "acls[".toList ++ (Nat.toDigits 10 index ++ [']'])

theorem isDigit_of_mem {n : Nat} {c : Char} (h : c ∈ Nat.toDigits 10 n) : c.isDigit = true :=
  Nat.isDigit_of_mem_toDigits (by decide) (by decide) h

theorem not_mem_recordKey {index : Nat} {c : Char} (hd : c.isDigit = false) (hc : c ∉ "acls[".toList ++ [']']) :
    c ∉ recordKey index := by
  rw [List.mem_append, not_or] at hc
  rw [recordKey, List.mem_append, List.mem_append, not_or, not_or]
  refine ⟨hc.1, fun hm => ?_, hc.2⟩
  rw [isDigit_of_mem hm] at hd
  cases hd

theorem toLower_toDigits (n : Nat) : (Nat.toDigits 10 n).map Char.toLower = Nat.toDigits 10 n := by
  refine List.map_congr_left (fun c hc => ?_) |>.trans (List.map_id _)
  have hd := isDigit_of_mem hc
  refine Char.toLower_eq_of_not_isUpper ?_
  simp only [Char.isUpper, Char.isDigit] at hd ⊢
  grind

theorem toLower_tableVariable (index : Nat) : ("ACLS[" ++ toString index ++ "]__TABLE_ID").toList.map Char.toLower =
    recordKey index ++ "__table_id".toList := by
  have ht : (toString index).toList = Nat.toDigits 10 index := Nat.toList_repr
  rw [String.toList_append, String.toList_append, ht, List.map_append, List.map_append, toLower_toDigits, recordKey,
    List.append_assoc, List.append_assoc, List.append_assoc]
  rfl

theorem variableKey?_table {name : String} {index : Nat} (h : Text.sameFolded name (tableVariable index) = true) :
    variableKey? name = some (String.ofList (recordKey index ++ ".table_id".toList)) := by
  have hd : dotted "__table_id".toList = ".table_id".toList := by decide
  rw [variableKey?_of_sameFolded h, toLower_tableVariable, dotted_append _ (not_mem_recordKey rfl (by decide)), hd]
  rw [toLower_tableVariable, List.mem_append, not_or]
  exact ⟨not_mem_recordKey rfl (by decide), by decide⟩

/-! ## Addresses -/

theorem address_eq_member (key : String) : ∃ name path, address key = .member name :: path := by
  unfold address
  cases hp : path? key with
  | none => exact ⟨key, [], rfl⟩
  | some path =>
    unfold path? at hp
    obtain ⟨⟨name, rest⟩, -, hp⟩ := Option.bind_eq_some_iff.1 hp
    obtain ⟨path, -, rfl⟩ := Option.map_eq_some_iff.1 hp
    exact ⟨name, path, rfl⟩

theorem address_level : address "logging.level" = [.member "logging", .member "level"] := by decide

theorem pathIndex?_toDigits {n : Nat} (hn : Decimal.fits n = true) (rest : List Char) :
    pathIndex? (Nat.toDigits 10 n ++ ']' :: rest) = some ((n : Int), rest) := by
  have ht : (Nat.toDigits 10 n ++ ']' :: rest).takeWhile Char.isDigit = Nat.toDigits 10 n := by
    rw [List.takeWhile_append_of_pos fun c => isDigit_of_mem, List.takeWhile_cons_of_neg (by decide), List.append_nil]
  have hr : (Nat.toDigits 10 n ++ ']' :: rest).dropWhile Char.isDigit = ']' :: rest := by
    rw [List.dropWhile_append_of_pos fun c => isDigit_of_mem, List.dropWhile_cons_of_neg (by decide)]
  have hv : Decimal.natOfDigits (Nat.toDigits 10 n) = n := Nat.ofDigitChars_ten_toDigits
  -- a number begins with a digit, which is no blank and no sign
  have hne : (Nat.toDigits 10 n).isEmpty = false := List.isEmpty_eq_false_iff.2 Nat.toDigits_ne_nil
  obtain ⟨c, cs, hc⟩ := List.exists_cons_of_ne_nil (Nat.toDigits_ne_nil (n := n) (b := 10))
  have hd : c.isDigit = true := isDigit_of_mem (hc ▸ List.mem_cons_self)
  have hb : skipPathBlanks (Nat.toDigits 10 n ++ ']' :: rest) = Nat.toDigits 10 n ++ ']' :: rest := by
    rw [hc, List.cons_append, skipPathBlanks, List.dropWhile_cons_of_neg]
    rintro h
    simp only [Bool.or_eq_true, beq_iff_eq] at h
    rcases h with rfl | rfl <;> cases hd
  have hm : ((Nat.toDigits 10 n ++ ']' :: rest).head? == some '-') = false := by
    rw [beq_eq_false_iff_ne, hc]
    rintro h
    obtain rfl : c = '-' := Option.some.inj h
    cases hd
  have hs : skipPathBlanks (']' :: rest) = ']' :: rest := by rw [skipPathBlanks, List.dropWhile_cons_of_neg (by decide)]
  generalize Nat.toDigits 10 n ++ ']' :: rest = text at hb hm ht hr
  simp [pathIndex?, hb, hm, ht, hr, hv, hne, hn, hs, guard]

theorem steps?_table {index : Nat} (hi : Decimal.fits index = true) (n : Nat) :
    steps? (n + 1 + 1 + 1) ('[' :: (Nat.toDigits 10 index ++ ']' :: ".table_id".toList)) =
      some [.element index, .member "table_id"] := by
  have ht : steps? (n + 1 + 1) ".table_id".toList = some [.member "table_id"] := rfl
  rw [steps?, pathIndex?_toDigits hi]
  exact congrArg (Option.map (Step.element index :: ·)) ht

/-- **The key of a record's table leads to it**, if the index is one of 64 bits. -/
theorem address_table {index : Nat} (hi : Decimal.fits index = true) :
    address (String.ofList (recordKey index ++ ".table_id".toList)) =
      [.member "acls", .element index, .member "table_id"] := by
  have hn : pathName? (recordKey index ++ ".table_id".toList) =
      some ("acls", '[' :: (Nat.toDigits 10 index ++ ']' :: ".table_id".toList)) := by
    rw [recordKey, List.append_assoc, List.append_assoc]
    rfl
  have hl : ('[' :: (Nat.toDigits 10 index ++ ']' :: ".table_id".toList)).length =
      (Nat.toDigits 10 index).length + 8 + 1 + 1 + 1 := by
    simp
  have hs := steps?_table hi ((Nat.toDigits 10 index).length + 8)
  rw [← hl] at hs
  have hp : path? (String.ofList (recordKey index ++ ".table_id".toList)) =
      some [.member "acls", .element index, .member "table_id"] := by
    rw [path?, String.toList_ofList, hn]
    exact congrArg (Option.map (Step.member "acls" :: ·)) hs
  rw [address, hp]
  rfl

end Config
end TableAccess
