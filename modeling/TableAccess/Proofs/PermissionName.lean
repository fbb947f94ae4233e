import TableAccess.Permission
import TableAccess.Proofs.LetterCase
/-!
# The names of permissions

A permission is looked up by its name in a list, and the first name that fits is taken.  The names differ in more than
letter case, so a text fits one name at most and the place of a permission in the list does not matter
(`Permission.find?_eq_parse?`).  A text is read as the permission whose name it is, byte for byte but for the case of the
letters A to Z, and every other text is refused (`Permission.names_exact`).
-/
namespace TableAccess
namespace Permission

open Text (SameButCase SameBytesButCase lower sameFolded)

/-- **No two names are the same but for letter case.** -/
theorem eq_of_lower_name_eq {p q : Permission} (h : lower p.name = lower q.name) : p = q := by
  have hn : (all.map fun r => lower r.name).Nodup := by decide
  exact List.inj_on_of_nodup_map hn (mem_all p) (mem_all q) h

theorem sameFolded_name_iff {p : Permission} {s : String} : sameFolded p.name s = true ↔ SameButCase s p.name := by
  rw [sameFolded, beq_iff_eq, eq_comm, Text.lower_eq_lower_iff]

/-- A text is the name of one permission at most. -/
theorem eq_of_named {p q : Permission} {s : String} (hp : SameButCase s p.name) (hq : SameButCase s q.name) : p = q := by
  have hps : lower s = lower p.name := Text.lower_eq_lower_iff.2 hp
  have hqs : lower s = lower q.name := Text.lower_eq_lower_iff.2 hq
  exact eq_of_lower_name_eq (hps.symm.trans hqs)

/-- **Wherever a permission stands in a list, it is found by its name.** -/
theorem find?_eq_some_iff {order : List Permission} {p : Permission} {s : String} (h : p ∈ order) :
    (order.find? fun q => sameFolded q.name s) = some p ↔ SameButCase s p.name := by
  constructor
  · intro hf
    have hs := List.find?_some hf
    exact sameFolded_name_iff.1 hs
  · intro hp
    cases hf : order.find? fun q => sameFolded q.name s with
    | none => exact absurd (sameFolded_name_iff.2 hp) (List.find?_eq_none.1 hf p h)
    | some q =>
      have hs := List.find?_some hf
      rw [eq_of_named hp (sameFolded_name_iff.1 hs)]

theorem parse?_eq_some_iff {p : Permission} {s : String} : parse? s = some p ↔ SameButCase s p.name :=
  find?_eq_some_iff (mem_all p)

/-- **Any list of all permissions serves for the look-up.** -/
theorem find?_eq_parse? {order : List Permission} (h : ∀ p, p ∈ order) (s : String) :
    (order.find? fun q => sameFolded q.name s) = parse? s := by
  ext p
  rw [find?_eq_some_iff (h p), parse?_eq_some_iff]

theorem parse?_congr {s t : String} (h : SameButCase s t) : parse? s = parse? t := by
  have hl : lower s = lower t := Text.lower_eq_lower_iff.2 h
  ext p
  rw [parse?_eq_some_iff, parse?_eq_some_iff, ← Text.lower_eq_lower_iff, ← Text.lower_eq_lower_iff, hl]

theorem parse_eq_ok_iff {p : Permission} {s : String} : parse s = .ok p ↔ parse? s = some p := by
  unfold parse
  split
  · rename_i q hq
    rw [hq, Except.ok.injEq, Option.some.injEq]
  · rename_i hn
    rw [hn]
    exact iff_of_false (fun h => nomatch h) fun h => nomatch h

/-- **What is refused is quoted.** -/
theorem parse_eq_error_iff {s : String} {e : TextError} :
    parse s = .error e ↔ (∀ p, parse? s ≠ some p) ∧ e = .permission s := by
  unfold parse
  split
  · rename_i p hp
    exact iff_of_false (fun h => nomatch h) fun h => h.1 p hp
  · rename_i hn
    rw [hn, Except.error.injEq, eq_comm]
    exact (and_iff_right fun p h => nomatch h).symm

/-- **Names are read exactly.**  A text is read as a permission if it has as many bytes as the name and the same byte at
each place, the case of the letters A to Z aside; in whatever order the permissions are gone through, the same one is
found.  Texts that differ in the case of those letters only are read alike.  A text that is no permission's name is
refused with a message that quotes it as it stands, and no other text is refused. -/
theorem names_exact (s : String) :
    (∀ p, parse? s = some p ↔ SameBytesButCase s p.name) ∧
    (∀ order : List Permission, (∀ p, p ∈ order) → (order.find? fun p => sameFolded p.name s) = parse? s) ∧
    (∀ t, SameBytesButCase s t → parse? s = parse? t) ∧
    (∀ p, parse s = .ok p ↔ SameBytesButCase s p.name) ∧
    (∀ e, parse s = .error e ↔ (∀ p : Permission, ¬ SameBytesButCase s p.name) ∧ e = .permission s) ∧
    (TextError.permission s).message = "unknown table permission '" ++ s ++ "'" := by
  have hp (p : Permission) : parse? s = some p ↔ SameBytesButCase s p.name :=
    parse?_eq_some_iff.trans Text.sameBytesButCase_iff.symm
  refine ⟨hp, fun order h => find?_eq_parse? h s, fun t h => ?_, fun p => ?_, fun e => ?_, rfl⟩
  · exact parse?_congr (Text.sameBytesButCase_iff.1 h)
  · rw [parse_eq_ok_iff, hp]
  · rw [parse_eq_error_iff]
    simp only [ne_eq, hp]

/-- A long s is no letter, and a name is not known by its beginning. -/
example : parse? "Read_Row" = some .readRow ∧ parse? "READ" = none ∧ parse? "READ_PROPERTIE\u017f" = none := by decide

end Permission
end TableAccess
