import Mathlib
import TableAccess.Datum.Writing
import TableAccess.Proofs.Steady
/-!
# What is written is read back

A record is written without numbers and truth values, so what is read from it does not hang on the order of its members,
at any depth.  It is read back whatever order they are in, and records that are written alike are one
(`Reading.read_written`).
-/
namespace TableAccess
namespace Reading

/-- A scope is written with a text for its value, with nothing, or with no value. -/
theorem not_literalValue_toDatum (s : Scope) : ¬ LiteralValue s.toDatum := by
  rintro ⟨t, ht⟩
  cases s with
  | user id => cases id <;> cases ht
  | _ => cases ht

theorem scope_of_rearranged (r : Reading) {s : Scope} {d : Datum} (h : s.toDatum.Rearranged d) : r.scope d = some s :=
  (scope_steady r (not_literalValue_toDatum s) d h).trans (scope_toDatum r s)

theorem acl_of_rearranged (r : Reading) {a : Acl} {d : Datum} (h : a.toDatum.Rearranged d) : r.acl d = some a := by
  have hs : ∀ s ∈ scopeDatum? a.toDatum, Steady r.scope s := by
    intro s hs
    obtain rfl : a.scope.toDatum = s := Option.some.inj hs
    exact scope_steady r (not_literalValue_toDatum a.scope)
  exact (acl_steady hs d h).trans (acl_toDatum r a)

theorem eq_of_rearranged {a b : Acl} (h : a.toDatum.Rearranged b.toDatum) : a = b := by
  have hread : some b = some a := (acl_toDatum .exact b).symm.trans (acl_of_rearranged .exact h)
  exact (Option.some.inj hread).symm

theorem scope_eq_of_rearranged {s t : Scope} (h : s.toDatum.Rearranged t.toDatum) : s = t := by
  have hread : some t = some s := (scope_toDatum .exact t).symm.trans (scope_of_rearranged .exact h)
  exact (Option.some.inj hread).symm

/-- **What is written is read back**, by every reading and in whatever order the members are put, for records and for
scopes alone.  So what is written alike, but for the order of members, is one.  A user scope without a user, those of
the user and of the group whose names are empty, and the scopes of everyone and of nobody are all written apart. -/
theorem read_written (r : Reading) :
    (∀ (a : Acl) (d : Datum), a.toDatum.Rearranged d → r.acl d = some a) ∧
    (∀ (s : Scope) (d : Datum), s.toDatum.Rearranged d → r.scope d = some s) ∧
    (∀ a b : Acl, a.toDatum.Rearranged b.toDatum → a = b) ∧
    (∀ s t : Scope, s.toDatum.Rearranged t.toDatum → s = t) ∧
    [Scope.user none, .user (some ⟨""⟩), .group "", .default, .empty].Pairwise
      fun s t => ¬ s.toDatum.Rearranged t.toDatum := by
  refine ⟨fun a d h => acl_of_rearranged r h, fun s d h => scope_of_rearranged r h, fun a b h => eq_of_rearranged h,
    fun s t h => scope_eq_of_rearranged h, ?_⟩
  have hne : [Scope.user none, .user (some ⟨""⟩), .group "", .default, .empty].Pairwise (· ≠ ·) := by decide
  exact hne.imp fun hst h => hst (scope_eq_of_rearranged h)

/-- A record of a user scope without a user, with its members and those of its scope the other way around. -/
def turnedDatum : Datum :=
  .table [("role", .text "OWNER"), ("scope", .table [("value", .nil), ("type", .text "USER")]),
    ("table_id", .text "visits")]

theorem read_written_of_turned :
    (Acl.toDatum ⟨⟨"visits"⟩, .user none, .owner⟩).Rearranged turnedDatum ∧
    exact.acl turnedDatum = some ⟨⟨"visits"⟩, .user none, .owner⟩ ∧
    exact.scope (.table [("value", .nil), ("type", .text "USER")]) = some (.user none) := by
  have hscope : (Scope.toDatum (.user none)).Rearranged (.table [("value", .nil), ("type", .text "USER")]) :=
    .members (.swap _ _ _)
  have hacl : (Acl.toDatum ⟨⟨"visits"⟩, .user none, .owner⟩).Rearranged turnedDatum :=
    .trans (.members (List.reverse_perm _).symm)
      (.member [("role", .text "OWNER")] [("table_id", .text "visits")] "scope" hscope)
  obtain ⟨hacls, hscopes, -⟩ := read_written .exact
  exact ⟨hacl, hacls _ _ hacl, hscopes _ _ hscope⟩

end Reading
end TableAccess
