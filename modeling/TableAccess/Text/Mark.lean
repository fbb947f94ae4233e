/-!
# Texts cut at a mark

A text that is written as a word, a mark and a rest is cut at its first mark.  If the word has no mark in it, what comes
before the first mark is the word, and the rest is left as it stands, with whatever marks it has.  So words that stand in
a row with marks between them can be told from the row (`Text.eq_of_intercalate_eq`).
-/
namespace TableAccess
namespace Text

variable {mark : Char} {word : List Char}

theorem ne_mark (h : mark ∉ word) : ∀ c ∈ word, (c != mark) = true := by
  intro c hc
  exact bne_iff_ne.2 fun he => h (he ▸ hc)

theorem takeWhile_mark (h : mark ∉ word) (rest : List Char) :
    (word ++ mark :: rest).takeWhile (· != mark) = word := by
  rw [List.takeWhile_append_of_pos (ne_mark h)]
  simp

theorem dropWhile_mark (h : mark ∉ word) (rest : List Char) :
    (word ++ mark :: rest).dropWhile (· != mark) = mark :: rest := by
  rw [List.dropWhile_append_of_pos (ne_mark h)]
  simp

theorem takeWhile_of_no_mark (h : mark ∉ word) : word.takeWhile (· != mark) = word := by
  have ht : (word ++ []).takeWhile (· != mark) = word ++ [].takeWhile (· != mark) :=
    List.takeWhile_append_of_pos (ne_mark h)
  simpa using ht

theorem dropWhile_of_no_mark (h : mark ∉ word) : word.dropWhile (· != mark) = [] := by
  have hd : (word ++ []).dropWhile (· != mark) = [].dropWhile (· != mark) := List.dropWhile_append_of_pos (ne_mark h)
  simpa using hd

/-! ## Rows of words -/

theorem takeWhile_intercalate (h : mark ∉ word) (gap : List Char) (words : List (List Char)) :
    ((mark :: gap).intercalate (word :: words)).takeWhile (· != mark) = word := by
  cases words with
  | nil => rw [List.intercalate_singleton, takeWhile_of_no_mark h]
  | cons next words => rw [List.intercalate_cons_cons, List.append_assoc, List.cons_append, takeWhile_mark h]

theorem intercalate_ne_nil (h : word ≠ []) (sep : List Char) (words : List (List Char)) :
    sep.intercalate (word :: words) ≠ [] := by
  cases words with
  | nil => rwa [List.intercalate_singleton]
  | cons next words => simp [h]

/-- **A row tells its words**, if none of them is empty or has a mark in it. -/
theorem eq_of_intercalate_eq {gap : List Char} : ∀ {l k : List (List Char)}, (∀ w ∈ l, w ≠ [] ∧ mark ∉ w) →
    (∀ w ∈ k, w ≠ [] ∧ mark ∉ w) → (mark :: gap).intercalate l = (mark :: gap).intercalate k → l = k
  | [], [], _, _, _ => rfl
  | [], w :: k, _, hk, h => absurd h.symm (intercalate_ne_nil (hk w List.mem_cons_self).1 _ k)
  | w :: l, [], hl, _, h => absurd h (intercalate_ne_nil (hl w List.mem_cons_self).1 _ l)
  | w :: l, v :: k, hl, hk, h => by
    have hf := takeWhile_intercalate (hl w List.mem_cons_self).2 gap l
    rw [h, takeWhile_intercalate (hk v List.mem_cons_self).2] at hf
    subst hf
    -- behind the first word stands a row, if there is a second
    rcases l with _ | ⟨w', l⟩ <;> rcases k with _ | ⟨v', k⟩
    · rfl
    · simp at h
    · simp at h
    · rw [List.intercalate_cons_cons, List.intercalate_cons_cons] at h
      have hl' : ∀ w ∈ w' :: l, w ≠ [] ∧ mark ∉ w := fun w hw => hl w (List.mem_cons_of_mem _ hw)
      have hk' : ∀ w ∈ v' :: k, w ≠ [] ∧ mark ∉ w := fun w hw => hk w (List.mem_cons_of_mem _ hw)
      rw [eq_of_intercalate_eq hl' hk' (List.append_cancel_left h)]

end Text
end TableAccess
