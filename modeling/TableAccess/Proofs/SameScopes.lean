import TableAccess.Proofs.Query
/-!
# The same scopes twice

The scopes that a caller takes part in are put together in two places: `scopesOf` lists them, and `resolve` asks about
each of them and for the groups on the way.  They are the same scopes in the same order wherever the collaborators
always answer alike (`Sources.Steady`), and so a listing tells where permissions come from (`resolve_over_scopes`).
Where the groups cannot be listed there is no list to compare, and a resolution fails with the first of what it asks
that fails.
-/
namespace TableAccess

variable {σ α β : Type}

namespace Query

/-- **A question that is always answered alike**, in whatever state it is put. -/
def Always (x : Query σ α) (answer : Except StoreError α) : Prop := ∀ w, (x w).1 = answer

theorem Always.pure (a : α) : Always (pure a : Query σ α) (.ok a) := fun _ => rfl

theorem Always.bind {x : Query σ α} {f : α → Query σ β} {answer : Except StoreError α} {next : α → Except StoreError β}
    (hx : Always x answer) (hf : ∀ a, Always (f a) (next a)) : Always (x >>= f) (answer >>= next) := by
  intro w
  rw [bind_apply, ← hx w]
  rcases x w with ⟨_ | a, v⟩
  · rfl
  · exact hf a v

end Query

open Query

/-- **Collaborators whose answers do not change**, though their state may. -/
structure Sources.Steady (src : Sources σ) (acl : TableId → Scope → Except StoreError (Option Acl))
    (groups : UserId → Except StoreError (List String)) : Prop where
  acl : ∀ table scope, Always (src.acl table scope) (acl table scope)
  groups : ∀ user, Always (src.groups user) (groups user)

/-! ## Answers about a list of scopes -/

/-- **The first failure**: the answer about one of the scopes, those about the scopes before it being none. -/
def FirstFailure (answer : Scope → Except StoreError (Option Acl)) (scopes : List Scope) (e : StoreError) : Prop :=
  ∃ before scope after, scopes = before ++ scope :: after ∧ (∀ b ∈ before, ∃ found, answer b = .ok found) ∧
    answer scope = .error e

def givenBy (found : Option Acl) : List Permission := found.elim [] fun acl => acl.role.permissions

/-- What is held after the answers about some scopes, in order, up to a failure. -/
def gather (answer : Scope → Except StoreError (Option Acl)) (scopes : List Scope) (held : PermissionSet) :
    Except StoreError PermissionSet :=
  scopes.foldlM (fun held scope => (answer scope).map fun found => held.grant (givenBy found)) held

section
variable {answer : Scope → Except StoreError (Option Acl)} {scope : Scope} {scopes : List Scope} {e : StoreError}

theorem not_firstFailure_nil : ¬ FirstFailure answer [] e := by
  rintro ⟨before, scope, after, hs, -, -⟩
  cases before <;> cases hs

theorem firstFailure_cons_of_ok {found : Option Acl} (h : answer scope = .ok found) :
    FirstFailure answer (scope :: scopes) e ↔ FirstFailure answer scopes e := by
  constructor
  · rintro ⟨before, last, after, hs, hb, he⟩
    cases before with
    | nil =>
      obtain ⟨rfl, -⟩ := List.cons.inj hs
      rw [h] at he
      cases he
    | cons b before =>
      exact ⟨before, last, after, (List.cons.inj hs).2, fun b hm => hb b (List.mem_cons_of_mem _ hm), he⟩
  · rintro ⟨before, last, after, rfl, hb, he⟩
    refine ⟨scope :: before, last, after, rfl, fun b hm => ?_, he⟩
    rcases List.mem_cons.1 hm with rfl | hm
    · exact ⟨found, h⟩
    · exact hb b hm

theorem firstFailure_cons_of_error {e' : StoreError} (h : answer scope = .error e') :
    FirstFailure answer (scope :: scopes) e ↔ e' = e := by
  constructor
  · rintro ⟨before, last, after, hs, hb, he⟩
    cases before with
    | nil =>
      obtain ⟨rfl, -⟩ := List.cons.inj hs
      exact Except.error.inj (h.symm.trans he)
    | cons b before =>
      obtain ⟨rfl, -⟩ := List.cons.inj hs
      obtain ⟨found, hf⟩ := hb scope List.mem_cons_self
      rw [h] at hf
      cases hf
  · rintro rfl
    exact ⟨[], scope, scopes, rfl, (fun _ hm => nomatch hm), h⟩

theorem gather_cons_of_ok {found : Option Acl} (h : answer scope = .ok found) (held : PermissionSet) :
    gather answer (scope :: scopes) held = gather answer scopes (held.grant (givenBy found)) := by
  rw [gather, List.foldlM_cons, h]
  rfl

theorem gather_cons_of_error (h : answer scope = .error e) (held : PermissionSet) :
    gather answer (scope :: scopes) held = .error e := by
  rw [gather, List.foldlM_cons, h]
  rfl

theorem gather_append (scopes more : List Scope) (held : PermissionSet) :
    gather answer (scopes ++ more) held = gather answer scopes held >>= gather answer more :=
  List.foldlM_append

/-- **Gathering fails as the first of the answers that fails.** -/
theorem gather_eq_error_iff : ∀ {scopes : List Scope} {held : PermissionSet},
    gather answer scopes held = .error e ↔ FirstFailure answer scopes e
  | [], held => iff_of_false (fun h => nomatch h) not_firstFailure_nil
  | scope :: scopes, held => by
    cases h : answer scope with
    | ok found => rw [gather_cons_of_ok h, firstFailure_cons_of_ok h, gather_eq_error_iff]
    | error e' => rw [gather_cons_of_error h, firstFailure_cons_of_error h, Except.error.injEq]

/-- **Gathering succeeds exactly if no answer fails.** -/
theorem gather_isOk_iff : ∀ {scopes : List Scope} {held : PermissionSet},
    (∃ all, gather answer scopes held = .ok all) ↔ ∀ scope ∈ scopes, ∃ found, answer scope = .ok found
  | [], held => iff_of_true ⟨held, rfl⟩ fun _ hm => nomatch hm
  | scope :: scopes, held => by
    rw [List.forall_mem_cons]
    cases h : answer scope with
    | ok found =>
      rw [gather_cons_of_ok h, gather_isOk_iff]
      exact (and_iff_right ⟨found, rfl⟩).symm
    | error e =>
      rw [gather_cons_of_error h]
      exact iff_of_false (fun ⟨_, hn⟩ => nomatch hn) fun ⟨⟨_, hn⟩, _⟩ => nomatch hn

/-- **What is gathered is what the records found give**, and what was held before. -/
theorem mem_of_gather {p : Permission} : ∀ {scopes : List Scope} {held all : PermissionSet},
    gather answer scopes held = .ok all →
      (p ∈ all ↔ p ∈ held ∨ ∃ scope ∈ scopes, ∃ a, answer scope = .ok (some a) ∧ p ∈ a.role.permissions)
  | [], held, all, h => by
    obtain rfl := Except.ok.inj h
    simp
  | scope :: scopes, held, all, h => by
    cases hs : answer scope with
    | error e =>
      rw [gather_cons_of_error hs] at h
      cases h
    | ok found =>
      rw [gather_cons_of_ok hs] at h
      rw [mem_of_gather h, PermissionSet.mem_grant, or_assoc]
      refine or_congr_right ?_
      cases found with
      | none => simp [givenBy, hs]
      | some a => simp [givenBy, hs]

end

/-! ## A resolution and the list of scopes -/

section
variable {src : Sources σ} {acl : TableId → Scope → Except StoreError (Option Acl)}
  {groups : UserId → Except StoreError (List String)}

theorem addScope_always (h : src.Steady acl groups) (table : TableId) (held : PermissionSet) (scope : Scope) :
    Always (addScope src table held scope) (gather (acl table) [scope] held) := by
  have hg : gather (acl table) [scope] held = acl table scope >>= fun found => .ok (held.grant (givenBy found)) := by
    cases hs : acl table scope with
    | error e => exact gather_cons_of_error hs held
    | ok found => exact gather_cons_of_ok hs held
  rw [hg]
  refine (h.acl table scope).bind fun found => ?_
  cases found with
  | none =>
    rw [givenBy, Option.elim_none, PermissionSet.grant_nil]
    exact Always.pure held
  | some acl => exact Always.pure _

theorem addGroups_always (h : src.Steady acl groups) (table : TableId) : ∀ (names : List String) (held : PermissionSet),
    Always (names.foldlM (fun held name => addScope src table held (.group name)) held)
      (gather (acl table) (names.map .group) held)
  | [], held => Always.pure held
  | name :: names, held => by
    rw [List.foldlM_cons, List.map_cons, ← List.singleton_append, gather_append]
    exact (addScope_always h table held (.group name)).bind (addGroups_always h table names)

/-- The groups are asked for after the records for everyone and for the caller, and before those for groups. -/
theorem resolve_always (h : src.Steady acl groups) (id : UserId) (table : TableId) :
    Always (resolve src (some id) table) (gather (acl table) [.default, .user (some id)] ∅ >>= fun held =>
      groups id >>= fun names => gather (acl table) (names.map .group) held) := by
  rw [← List.singleton_append, gather_append, bind_assoc]
  exact (addScope_always h table ∅ .default).bind fun held => (addScope_always h table held (.user (some id))).bind
    fun held => (h.groups id).bind fun names => addGroups_always h table names held

theorem resolve_always_none (h : src.Steady acl groups) (table : TableId) :
    Always (resolve src none table) (gather (acl table) [.default] ∅) := by
  have hg : (gather (acl table) [.default] ∅ >>= .ok) = gather (acl table) [.default] ∅ := bind_pure _
  rw [← hg]
  exact (addScope_always h table ∅ .default).bind fun held => Always.pure held

theorem scopesOf_always (h : src.Steady acl groups) (id : UserId) :
    Always (scopesOf src (some id))
      (groups id >>= fun names => .ok (.default :: .user (some id) :: names.map .group)) :=
  (h.groups id).bind fun _ => Always.pure _

/-- **A resolution gathers over the scopes that are listed.** -/
theorem resolve_of_scopesOf (h : src.Steady acl groups) {user : Option UserId} {scopes : List Scope} {w : σ}
    (hs : (scopesOf src user w).1 = .ok scopes) (table : TableId) :
    Always (resolve src user table) (gather (acl table) scopes ∅) := by
  cases user with
  | none =>
    obtain rfl : [Scope.default] = scopes := Except.ok.inj hs
    exact resolve_always_none h table
  | some id =>
    rw [scopesOf_always h id w] at hs
    have hr := resolve_always h id table
    cases hg : groups id with
    | error e =>
      rw [hg] at hs
      cases hs
    | ok names =>
      rw [hg] at hs hr
      obtain rfl : _ = scopes := Except.ok.inj hs
      have happend : gather (acl table) (.default :: .user (some id) :: names.map .group) ∅ =
          gather (acl table) [.default, .user (some id)] ∅ >>= gather (acl table) (names.map .group) :=
        gather_append [.default, .user (some id)] (names.map .group) ∅
      rw [happend]
      exact hr

/-- **A resolution fails where the scopes cannot be listed**, but the records for everyone and for the caller are asked
for first. -/
theorem resolve_of_scopesOf_error (h : src.Steady acl groups) {user : Option UserId} {e : StoreError} {w : σ}
    (hs : (scopesOf src user w).1 = .error e) (table : TableId) :
    ∃ id, user = some id ∧
      Always (resolve src user table) (gather (acl table) [.default, .user (some id)] ∅ >>= fun _ => .error e) := by
  cases user with
  | none => cases hs
  | some id =>
    rw [scopesOf_always h id w] at hs
    have hr := resolve_always h id table
    cases hg : groups id with
    | error e' =>
      rw [hg] at hs hr
      obtain rfl : e' = e := Except.error.inj hs
      exact ⟨id, rfl, hr⟩
    | ok names =>
      rw [hg] at hs
      cases hs

end

/-- **A resolution and the list of scopes agree.**  The collaborators may have a state, but not change their answers.
If the caller's scopes can be listed, the caller's permissions on a table can be resolved exactly if the record for each
of these scopes can be looked up; they are what the records found give; and if not, the failure is that of the first of
these scopes that fails.  If the scopes cannot be listed, the caller has an identity and the resolution fails as well:
with the failure of the record for everyone, or else of the caller's own, or else with that of the listing. -/
theorem resolve_over_scopes {src : Sources σ} {acl : TableId → Scope → Except StoreError (Option Acl)}
    {groups : UserId → Except StoreError (List String)} (h : src.Steady acl groups) (user : Option UserId)
    (table : TableId) (w v : σ) :
    (∀ scopes, (scopesOf src user w).1 = .ok scopes →
      ((∃ held, (resolve src user table v).1 = .ok held) ↔ ∀ scope ∈ scopes, ∃ found, acl table scope = .ok found) ∧
      (∀ held, (resolve src user table v).1 = .ok held →
        ∀ p, p ∈ held ↔ ∃ scope ∈ scopes, ∃ a, acl table scope = .ok (some a) ∧ p ∈ a.role.permissions) ∧
      ∀ e, (resolve src user table v).1 = .error e ↔ FirstFailure (acl table) scopes e) ∧
    ∀ e, (scopesOf src user w).1 = .error e → ∃ id, user = some id ∧
      (∀ d, acl table .default = .error d → (resolve src user table v).1 = .error d) ∧
      (∀ found d, acl table .default = .ok found → acl table (.user (some id)) = .error d →
        (resolve src user table v).1 = .error d) ∧
      ∀ found own, acl table .default = .ok found → acl table (.user (some id)) = .ok own →
        (resolve src user table v).1 = .error e := by
  refine ⟨fun scopes hs => ?_, fun e hs => ?_⟩
  · rw [resolve_of_scopesOf h hs table v]
    refine ⟨gather_isOk_iff, fun held hg p => ?_, fun e => gather_eq_error_iff⟩
    rw [mem_of_gather hg, or_iff_right (PermissionSet.not_mem_empty p)]
  · obtain ⟨id, rfl, hr⟩ := resolve_of_scopesOf_error h hs table
    refine ⟨id, rfl, fun d hd => ?_, fun found d hd ho => ?_, fun found own hd ho => ?_⟩
    · rw [hr v, gather_cons_of_error hd]
      rfl
    · rw [hr v, gather_cons_of_ok hd, gather_cons_of_error ho]
      rfl
    · rw [hr v, gather_cons_of_ok hd, gather_cons_of_ok ho]
      rfl

/-- Everyone may read, and the record for the night shift is out of reach on one table. -/
def nightAcl (table : TableId) : Scope → Except StoreError (Option Acl)
  | .default => .ok (some ⟨table, .default, .filteredReader⟩)
  | .group name =>
    if name = "night" ∧ table = ⟨"visits"⟩ then .error (.unavailable "night")
    else .ok (some ⟨table, .group name, .owner⟩)
  | _ => .ok none

/-- Ann is of the staff and on the night shift; the groups of others cannot be listed. -/
def annGroups (id : UserId) : Except StoreError (List String) :=
  if id = ⟨"ann"⟩ then .ok ["staff", "night"] else .error (.unavailable "groups")

/-- Collaborators that count the questions. -/
def countingSources : Sources Nat where
  acl table scope := fun n => (nightAcl table scope, n + 1)
  groups id := fun n => (annGroups id, n + 1)

/-- Ann's permissions on the trips are resolved, but not on the visits, where one of her scopes fails; Bob's fail with
the listing of his groups, after everyone's record and his own. -/
theorem resolve_over_scopes_of_ann :
    countingSources.Steady nightAcl annGroups ∧
    (scopesOf countingSources (some ⟨"ann"⟩) 0).1 =
      .ok [.default, .user (some ⟨"ann"⟩), .group "staff", .group "night"] ∧
    (∃ held, (resolve countingSources (some ⟨"ann"⟩) ⟨"trips"⟩ 7).1 = .ok held) ∧
    (resolve countingSources (some ⟨"ann"⟩) ⟨"visits"⟩ 7).1 = .error (.unavailable "night") ∧
    (scopesOf countingSources (some ⟨"bob"⟩) 0).1 = .error (.unavailable "groups") ∧
    (resolve countingSources (some ⟨"bob"⟩) ⟨"visits"⟩ 7).1 = .error (.unavailable "groups") := by
  have h : countingSources.Steady nightAcl annGroups := ⟨fun _ _ _ => rfl, fun _ _ => rfl⟩
  have hann : (scopesOf countingSources (some ⟨"ann"⟩) 0).1 =
      .ok [.default, .user (some ⟨"ann"⟩), .group "staff", .group "night"] := rfl
  have hbob : (scopesOf countingSources (some ⟨"bob"⟩) 0).1 = .error (.unavailable "groups") := rfl
  obtain ⟨htrips, -⟩ := resolve_over_scopes h (some ⟨"ann"⟩) ⟨"trips"⟩ 0 7
  obtain ⟨hvisits, -⟩ := resolve_over_scopes h (some ⟨"ann"⟩) ⟨"visits"⟩ 0 7
  obtain ⟨-, hlost⟩ := resolve_over_scopes h (some ⟨"bob"⟩) ⟨"visits"⟩ 0 7
  refine ⟨h, hann, (htrips _ hann).1.2 ?_, ((hvisits _ hann).2.2 _).2 ?_, hbob, ?_⟩
  · simp [nightAcl]
  · refine ⟨[.default, .user (some ⟨"ann"⟩), .group "staff"], .group "night", [], rfl, ?_, by simp [nightAcl]⟩
    simp [nightAcl]
  · obtain ⟨id, hid, -, -, hboth⟩ := hlost _ hbob
    obtain rfl : ⟨"bob"⟩ = id := Option.some.inj hid
    exact hboth _ _ rfl rfl

end TableAccess
