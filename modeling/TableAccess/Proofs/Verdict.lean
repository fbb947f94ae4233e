import TableAccess.Proofs.RowFilter
/-!
# The four questions agree

A checker can be asked for the permissions, for one of them, for a verdict on one, and for a verdict on a row.  Put to
the checker in one state, and to the collaborators in one state, the four are answered from the same outcome of the
permissions (`Checker.questions_agree`): a set decides the other three, and a failure is the answer of all.  A failure is
never a denial, and no filter lets a caller in past one.
-/
namespace TableAccess

variable {σ : Type}

namespace Checker

/-- The checker after a run. -/
def final (src : Sources σ) (c : Checker) (moments : List (σ × Question)) : Checker :=
  moments.foldl (fun c m => (c.call src m.1 m.2).left) c

/-- A run leaves a checker with its table and its caller. -/
theorem final_owner (src : Sources σ) : ∀ (c : Checker) (moments : List (σ × Question)),
    (c.final src moments).table = c.table ∧ (c.final src moments).user = c.user
  | _, [] => ⟨rfl, rfl⟩
  | c, (w, q) :: rest => by
    obtain ⟨ht, hu⟩ := final_owner src (c.call src w q).left rest
    exact ⟨ht.trans (ask_table src c w q), hu.trans (ask_user src c w q)⟩

/-- **The four questions agree**, in every state that a run can leave a checker in and whatever the collaborators do.
If the permissions are a set, a permission is held when it is in the set, is denied on this table to this caller when it
is not, and a row is denied to this caller when, besides, its filter does not let the caller in.  If they are a failure,
that failure is the answer to all four.  Each of the four leaves the same checker and the same collaborators behind. -/
theorem questions_agree (src : Sources σ) (table : TableId) (user : Option UserId) (moments : List (σ × Question))
    (w : σ) (p : Permission) (row : String) (filter : Option Scope) :
    let c := (new table user).final src moments
    (∃ held left after,
      c.permissions src w = (.ok held, left, after) ∧
      c.hasPermission src p w = (.ok (decide (p ∈ held)), left, after) ∧
      c.checkPermission src p w =
        (if p ∈ held then .ok () else .error (.denied (.table table p user)), left, after) ∧
      c.checkFilter src p row filter w =
        (if p ∈ held ∨ Admits user filter then .ok () else .error (.denied (.row row user)), left, after)) ∨
    ∃ e left after,
      c.permissions src w = (.error e, left, after) ∧
      c.hasPermission src p w = (.error e, left, after) ∧
      c.checkPermission src p w = (.error (.storeUnavailable e), left, after) ∧
      c.checkFilter src p row filter w = (.error (.storeUnavailable e), left, after) := by
  intro c
  obtain ⟨ht, hu⟩ : c.table = table ∧ c.user = user := final_owner src (new table user) moments
  rcases h : c.permissions src w with ⟨e | held, left, after⟩
  · refine .inr ⟨e, left, after, rfl, ?_, ?_, ?_⟩
    · exact hasPermission_of_error h p
    · exact checkPermission_of_error h p
    · exact checkFilter_of_error h p row filter
  · refine .inl ⟨held, left, after, rfl, hasPermission_of_ok h p, ?_, ?_⟩
    · rw [checkPermission_of_ok h, ht, hu]
    · rw [checkFilter_of_set h, hu]

end Checker
end TableAccess
