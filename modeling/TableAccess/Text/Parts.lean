import Mathlib.Data.String.Basic
/-!
# The parts of a text

A text is cut at every place of a character, and its parts are the stretches of its characters between those places
(`Text.splitOn_singleton`).  The cutting walks over byte positions, and the law says what it gives in characters.
-/
namespace TableAccess
namespace Text

open String

/-- The rest of a walk, when a stretch of the part that it is in has been walked over. -/
theorem splitOnAux_ofList (c : Char) (l m r : List Char) (acc : List String) :
    splitOnAux (ofList (l ++ m ++ r)) (ofList [c]) ⟨utf8Len l⟩ ⟨utf8Len l + utf8Len m⟩ 0 acc =
      acc.reverse ++ (List.splitOnPPrepend (· == c) r m.reverse).map ofList := by
  have hend := atEnd_of_valid (l ++ m) r
  have hpart := extract_of_valid l m r
  rw [utf8Len_append] at hend
  rw [splitOnAux]
  cases r with
  | nil =>
    rw [if_pos (hend.2 rfl), hpart, List.splitOnPPrepend_nil, List.reverse_reverse, List.reverse_cons]
    rfl
  | cons d r =>
    have hget : Pos.Raw.get (ofList (l ++ m ++ d :: r)) ⟨utf8Len (l ++ m)⟩ = d := get_of_valid (l ++ m) (d :: r)
    have hnext := next_of_valid (l ++ m) d r
    rw [utf8Len_append] at hget hnext
    have hmark : (0 : Pos.Raw).get (ofList [c]) = c := get_of_valid [] [c]
    have hnextMark : (0 : Pos.Raw).next (ofList [c]) = ⟨c.utf8Size⟩ := by simpa using next_of_valid [] c []
    have hendMark : Pos.Raw.atEnd (ofList [c]) ⟨c.utf8Size⟩ = true := by simpa using (atEnd_of_valid [c] []).2 rfl
    rw [if_neg (fun h => List.cons_ne_nil d r (hend.1 h)), hget, hmark, hnext, hnextMark, if_pos hendMark,
      List.splitOnPPrepend_cons_eq_if]
    by_cases hd : d = c
    · -- the stretch is a part, and the next one begins after the character
      subst hd
      have hback : (⟨utf8Len l + utf8Len m + d.utf8Size⟩ : Pos.Raw).unoffsetBy ⟨d.utf8Size⟩ =
          ⟨utf8Len l + utf8Len m⟩ := by simp [Pos.Raw.unoffsetBy]
      have ih := splitOnAux_ofList d (l ++ m ++ [d]) [] r (ofList m :: acc)
      rw [if_pos (beq_self_eq_true d), if_pos (beq_self_eq_true d), hback, hpart, List.reverse_reverse]
      simpa [Nat.add_assoc] using ih
    · have hback : (⟨utf8Len l + utf8Len m⟩ : Pos.Raw).unoffsetBy 0 = ⟨utf8Len l + utf8Len m⟩ := rfl
      have ih := splitOnAux_ofList c l (m ++ [d]) r acc
      rw [if_neg (fun h => hd (beq_iff_eq.1 h)), if_neg (fun h => hd (beq_iff_eq.1 h)), hback, hnext]
      simpa [Nat.add_assoc] using ih
termination_by r

/-- **The parts of a text** are the stretches between the places of the character. -/
theorem splitOn_singleton (s : String) (c : Char) :
    s.splitOn (String.singleton c) = (s.toList.splitOn c).map String.ofList := by
  have hne : ¬ (String.singleton c == "") = true := by simp
  rw [String.splitOn, if_neg hne]
  simpa [List.splitOn] using splitOnAux_ofList c [] [] s.toList []

theorem splitOn_append (s t : String) (c : Char) :
    (s ++ String.singleton c ++ t).splitOn (String.singleton c) =
      s.splitOn (String.singleton c) ++ t.splitOn (String.singleton c) := by
  rw [splitOn_singleton, splitOn_singleton, splitOn_singleton, ← List.map_append, ← List.splitOn_append_cons_self]
  simp

/-- **A text is its parts**, with the character between them. -/
theorem intercalate_splitOn (s : String) (c : Char) :
    (String.singleton c).intercalate (s.splitOn (String.singleton c)) = s := by
  refine String.toList_inj.1 ?_
  rw [splitOn_singleton, String.toList_intercalate, String.toList_singleton, List.map_map]
  have hparts : (s.toList.splitOn c).map (String.toList ∘ String.ofList) = s.toList.splitOn c := by
    simp [Function.comp_def]
  rw [hparts, List.intercalate_splitOn]

end Text
end TableAccess
