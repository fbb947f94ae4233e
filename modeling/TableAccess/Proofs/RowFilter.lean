import TableAccess.Proofs.Memory
import TableAccess.UserAccess
/-!
# Row filters

Two rules speak of a scope as a row's filter.  One says whom the filter lets in (`Admits`), the other who may record it
(`Recordable`).  A caller who may record a filter is let in by it, and the rules part in one place only: the filter of a
group lets everyone in, but is recorded by its members (`hasFilterScope_admits`).
-/
namespace TableAccess

variable {σ : Type}

/-- **Whom a row's filter lets in**: everyone, if it is the filter of everyone or of a group, and of a user's only that
very user.  A row without a filter lets nobody in, and neither does the filter of a user who is left out. -/
def Admits (user : Option UserId) (filter : Option Scope) : Prop :=
  filter = some .default ∨ (∃ name, filter = some (.group name)) ∨ ∃ id ∈ user, filter = some (.user (some id))

theorem filterAdmits_iff {user : Option UserId} {filter : Option Scope} :
    filterAdmits user filter = true ↔ Admits user filter := by
  rcases filter with _ | _ | (_ | owner) | name | _
  · simp [filterAdmits, Admits]
  · simp [filterAdmits, Admits]
  · cases user <;> simp [filterAdmits, Admits]
  · cases user with
    | none => simp [filterAdmits, Admits]
    | some id => simpa [filterAdmits, Admits] using eq_comm
  · simp [filterAdmits, Admits]
  · simp [filterAdmits, Admits]

instance (user : Option UserId) (filter : Option Scope) : Decidable (Admits user filter) :=
  decidable_of_iff _ filterAdmits_iff

/-- **Who may record a filter**: everyone that of everyone, and a caller with an identity their own and those of the
groups they are listed in. -/
def Recordable (user : Option UserId) (groups : List String) (scope : Scope) : Prop :=
  scope = .default ∨ ∃ id ∈ user, scope = .user (some id) ∨ ∃ name ∈ groups, scope = .group name

theorem Recordable.admits {user : Option UserId} {groups : List String} {scope : Scope}
    (h : Recordable user groups scope) : Admits user (some scope) := by
  rcases h with rfl | ⟨id, hu, rfl | ⟨name, -, rfl⟩⟩
  · exact .inl rfl
  · exact .inr (.inr ⟨id, hu, rfl⟩)
  · exact .inr (.inl ⟨name, rfl⟩)

/-- **Where the two rules part.** -/
theorem admits_and_not_recordable_iff {user : Option UserId} {groups : List String} {scope : Scope} :
    Admits user (some scope) ∧ ¬ Recordable user groups scope ↔
      ∃ name, scope = .group name ∧ (user = none ∨ name ∉ groups) := by
  constructor
  · rintro ⟨hd | ⟨name, hg⟩ | ⟨id, hu, ho⟩, hr⟩
    · exact absurd (.inl (Option.some.inj hd)) hr
    · refine ⟨name, Option.some.inj hg, ?_⟩
      cases user with
      | none => exact .inl rfl
      | some id => exact .inr fun hm => hr (.inr ⟨id, rfl, .inr ⟨name, hm, Option.some.inj hg⟩⟩)
    · exact absurd (.inr ⟨id, hu, .inl (Option.some.inj ho)⟩) hr
  · rintro ⟨name, rfl, hn⟩
    refine ⟨.inr (.inl ⟨name, rfl⟩), ?_⟩
    rintro (hd | ⟨id, hu, ho | ⟨name', hm, hs⟩⟩)
    · cases hd
    · cases ho
    · cases hs
      rcases hn with rfl | hn
      · cases hu
      · exact hn hm

/-! ## Asking whether a filter may be recorded -/

theorem scopesOf_of_listed {src : Sources σ} {id : UserId} {groups : List String} {w : σ}
    (h : (src.groups id w).1 = .ok groups) :
    (scopesOf src (some id) w).1 = .ok (.default :: .user (some id) :: groups.map .group) := by
  have ha : src.groups id w = (.ok groups, (src.groups id w).2) := Prod.ext h rfl
  rw [scopesOf, Query.bind_ok ha]
  rfl

theorem mem_scopes_iff {id : UserId} {groups : List String} {scope : Scope} :
    scope ∈ Scope.default :: .user (some id) :: groups.map .group ↔ Recordable (some id) groups scope := by
  simp [Recordable, eq_comm]

/-- **The answer to whether a filter may be recorded**, when the caller's groups can be listed. -/
theorem hasFilterScope_of_listed {src : Sources σ} {u : UserAccess} {groups : List String} {w : σ}
    (h : ∀ id ∈ u.user, (src.groups id w).1 = .ok groups) (scope : Scope) :
    ∃ answer, (u.hasFilterScope src scope w).1 = .ok answer ∧
      (answer = true ↔ Recordable u.user groups scope) := by
  rw [UserAccess.hasFilterScope, UserAccess.scopes]
  cases hu : u.user with
  | none => exact ⟨[Scope.default].contains scope, rfl, by simp [Recordable]⟩
  | some id =>
    have hs := scopesOf_of_listed (h id hu)
    have ha : scopesOf src (some id) w = (.ok _, (scopesOf src (some id) w).2) := Prod.ext hs rfl
    rw [Query.bind_ok ha]
    exact ⟨_, rfl, List.contains_iff_mem.trans mem_scopes_iff⟩

/-! ## When a check can fail -/

namespace Checker

theorem checkFilter_of_set {src : Sources σ} {c : Checker} {w : σ} {held : PermissionSet} {after : Checker × σ}
    (h : c.permissions src w = (.ok held, after)) (p : Permission) (row : String) (filter : Option Scope) :
    c.checkFilter src p row filter w =
      (if p ∈ held ∨ Admits c.user filter then .ok () else .error (.denied (.row row c.user)), after) := by
  rw [checkFilter_of_ok h]
  simp only [filterAdmits_iff]

/-- The permissions are known or resolved exactly when none of the lookups made for them fails. -/
theorem permissions_traced (src : Sources σ) (c : Checker) (w : σ) :
    ∃ trace answer left after, c.permissions src.traced (w, []) = (answer, left, after, trace) ∧
      c.permissions src w = (answer, left, after) ∧
      ((∀ x ∈ trace, x.failure? = none) ↔ ∃ held, answer = .ok held) := by
  cases hk : c.known with
  | some held =>
    -- nobody is asked
    refine ⟨[], .ok held, c, w, permissions_of_known hk _ _, permissions_of_known hk src w, ?_⟩
    exact ⟨fun _ => ⟨held, rfl⟩, fun _ _ hx => nomatch hx⟩
  | none =>
    obtain ⟨trace, answer, after, ht, -, hs, hp⟩ := resolve_recorded src c.user c.table w
    refine ⟨trace, answer, ?_⟩
    cases answer with
    | error e => exact ⟨c, after, permissions_of_failed hk ht, permissions_of_failed hk hs, hp.answered_iff⟩
    | ok held =>
      exact ⟨_, after, permissions_of_resolved hk ht, permissions_of_resolved hk hs, hp.answered_iff⟩

/-- **A filter that lets the caller in passes**, whatever the caller holds, unless a lookup fails on the way. -/
theorem checkFilter_of_admits (src : Sources σ) (c : Checker) (p : Permission) (row : String) {filter : Option Scope}
    (w : σ) (ha : Admits c.user filter)
    (hx : ∀ x ∈ (c.checkFilter src.traced p row filter (w, [])).2.2.2, x.failure? = none) :
    (c.checkFilter src p row filter w).1 = .ok () := by
  obtain ⟨trace, answer, left, after, ht, hs, hf⟩ := permissions_traced src c w
  cases answer with
  | error e =>
    rw [checkFilter_of_error ht] at hx
    obtain ⟨held, hh⟩ := hf.1 hx
    cases hh
  | ok held => rw [checkFilter_of_set hs, if_pos (.inr ha)]

end Checker

/-- **Recording and admitting.**  When the caller's groups can be listed, the caller is told whether a filter may be
recorded.  One that may be lets the caller in: on every table, with whatever permissions, the check of a row with that
filter passes if none of its lookups fails.  A filter lets a caller in who may not record it exactly if it is that of a
group which the caller is not listed in.  The empty scope and that of a user who is left out are neither recorded by
nor let in anyone. -/
theorem hasFilterScope_admits {src : Sources σ} {u : UserAccess} {groups : List String} {w : σ}
    (h : ∀ id ∈ u.user, (src.groups id w).1 = .ok groups) (scope : Scope) :
    ((u.hasFilterScope src scope w).1 = .ok true →
      filterAdmits u.user (some scope) = true ∧
        ∀ (c : Checker) (p : Permission) (row : String) (v : σ), c.user = u.user →
          (∀ x ∈ (c.checkFilter src.traced p row (some scope) (v, [])).2.2.2, x.failure? = none) →
            (c.checkFilter src p row (some scope) v).1 = .ok ()) ∧
    (filterAdmits u.user (some scope) = true ∧ (u.hasFilterScope src scope w).1 = .ok false ↔
      ∃ name, scope = .group name ∧ (u.user = none ∨ name ∉ groups)) ∧
    (scope = .empty ∨ scope = .user none →
      (u.hasFilterScope src scope w).1 = .ok false ∧ filterAdmits u.user (some scope) = false) := by
  obtain ⟨answer, ha, hr⟩ := hasFilterScope_of_listed h scope
  have hno : (u.hasFilterScope src scope w).1 = .ok false ↔ ¬ Recordable u.user groups scope := by
    rw [ha, ← hr, Except.ok.injEq, Bool.not_eq_true]
  refine ⟨fun ht => ?_, ?_, fun hs => ?_⟩
  · have hrec : Recordable u.user groups scope := hr.1 (Except.ok.inj (ha.symm.trans ht))
    refine ⟨filterAdmits_iff.2 hrec.admits, fun c p row v hc hx => ?_⟩
    exact c.checkFilter_of_admits src p row v (hc ▸ hrec.admits) hx
  · rw [filterAdmits_iff, hno]
    exact admits_and_not_recordable_iff
  · have hn : ¬ Admits u.user (some scope) := by
      rcases hs with rfl | rfl <;> simp [Admits]
    refine ⟨hno.2 fun hrec => hn hrec.admits, ?_⟩
    rw [← Bool.not_eq_true, filterAdmits_iff]
    exact hn

def annOfStaff : Groups := ⟨[(⟨"ann"⟩, "staff")]⟩

/-- Ann may record the filter of the staff, and passes it with no permission at all; that of the night shift lets her
in as well, but she may not record it. -/
theorem hasFilterScope_of_staff :
    (∀ id ∈ (UserAccess.new (some ⟨"ann"⟩)).user,
      ((Sources.ofStore annOfStaff).groups id .empty).1 = .ok ["staff"]) ∧
    ((UserAccess.new (some ⟨"ann"⟩)).hasFilterScope (.ofStore annOfStaff) (.group "staff") .empty).1 = .ok true ∧
    ((Checker.new ⟨"visits"⟩ (some ⟨"ann"⟩)).checkFilter (.ofStore annOfStaff) .unfilteredRead "row-1"
      (some (.group "staff")) .empty).1 = .ok () ∧
    filterAdmits (some ⟨"ann"⟩) (some (.group "night")) = true ∧
    ((UserAccess.new (some ⟨"ann"⟩)).hasFilterScope (.ofStore annOfStaff) (.group "night") .empty).1 = .ok false := by
  have hg : ∀ id ∈ (UserAccess.new (some ⟨"ann"⟩)).user,
      ((Sources.ofStore annOfStaff).groups id .empty).1 = .ok ["staff"] := by
    intro id hu
    cases hu
    rfl
  obtain ⟨hstaff, -, -⟩ := hasFilterScope_admits hg (.group "staff")
  obtain ⟨-, hnight, -⟩ := hasFilterScope_admits hg (.group "night")
  obtain ⟨-, hpass⟩ := hstaff rfl
  refine ⟨hg, rfl, hpass (.new ⟨"visits"⟩ (some ⟨"ann"⟩)) .unfilteredRead "row-1" .empty rfl ?_, ?_⟩
  · decide
  · exact hnight.2 ⟨"night", rfl, .inr (by decide)⟩

end TableAccess
