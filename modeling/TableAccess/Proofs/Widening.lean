import TableAccess.Proofs.Decision
import TableAccess.Proofs.RowFilter
/-!
# Access only widens

What a caller may do rests on the records, on who is listed in which group, and on who asks.  Three changes add to it: a
record for a table and a scope that had none, whatever its role, another member of a group, and a caller who says who
they are.  None of them takes anything away (`Setting.access_mono`): no record revokes what another gives, and no filter
shuts out a caller because they are known.
-/
namespace TableAccess

theorem TakesPart.identified {members : List (UserId × String)} {scope : Scope} (user : Option UserId)
    (h : TakesPart members none scope) : TakesPart members user scope := by
  cases scope with
  | default => trivial
  | user owner =>
    obtain ⟨id, hu, -⟩ := h
    cases hu
  | group name =>
    obtain ⟨id, hu, -⟩ := h
    cases hu
  | empty => exact h

theorem Granted.identified {l : List Acl} {members : List (UserId × String)} {table : TableId} {p : Permission}
    (user : Option UserId) (h : Granted l members none table p) : Granted l members user table p := by
  obtain ⟨a, ha, ht, hs, hp⟩ := h
  exact ⟨a, ha, ht, hs.identified user, hp⟩

theorem Admits.identified {filter : Option Scope} (user : Option UserId) (h : Admits none filter) :
    Admits user filter := by
  rcases h with hd | hg | ⟨id, hu, -⟩
  · exact .inl hd
  · exact .inr (.inl hg)
  · cases hu

/-- What a decision rests on: the records, the members of groups, and who asks. -/
structure Setting where
  store  : AclStore
  groups : Groups
  user   : Option UserId

namespace Setting

/-- **The three ways in which access widens.** -/
inductive Widens : Setting → Setting → Prop
  | record {store : AclStore} {groups : Groups} {user : Option UserId} {acl : Acl}
    (fresh : store.get? acl.table acl.scope = none) :
    Widens ⟨store, groups, user⟩ ⟨store.grant acl, groups, user⟩
  | member {store : AclStore} {groups : Groups} {user : Option UserId} (id : UserId) (name : String) :
    Widens ⟨store, groups, user⟩ ⟨store, groups.withMember id name, user⟩
  | identity {store : AclStore} {groups : Groups} (id : UserId) :
    Widens ⟨store, groups, none⟩ ⟨store, groups, some id⟩

/-! ## What a caller who asks for the first time is answered -/

def resolved (s : Setting) (table : TableId) : Except StoreError PermissionSet :=
  (resolve (.ofStore s.groups) s.user table s.store).1

def has (s : Setting) (table : TableId) (p : Permission) : Except StoreError Bool :=
  ((Checker.new table s.user).hasPermission (.ofStore s.groups) p s.store).1

def check (s : Setting) (table : TableId) (p : Permission) : Except AccessError Unit :=
  ((Checker.new table s.user).checkPermission (.ofStore s.groups) p s.store).1

def checkRow (s : Setting) (table : TableId) (p : Permission) (row : String) (filter : Option Scope) :
    Except AccessError Unit :=
  ((Checker.new table s.user).checkFilter (.ofStore s.groups) p row filter s.store).1

def Gives (s : Setting) (table : TableId) (p : Permission) : Prop :=
  Granted s.store.records s.groups.members s.user table p

variable {s t : Setting} {table : TableId} {p : Permission}

theorem resolved_spec (s : Setting) (table : TableId) :
    ∃ held, s.resolved table = .ok held ∧ ∀ p, p ∈ held ↔ s.Gives table p := by
  obtain ⟨held, hr, hm⟩ := resolve_granted s.groups s.user table s.store
  exact ⟨held, congrArg Prod.fst hr, hm⟩

theorem permissions_new (s : Setting) (table : TableId) :
    ∃ held after, (Checker.new table s.user).permissions (.ofStore s.groups) s.store = (.ok held, after) ∧
      ∀ p, p ∈ held ↔ s.Gives table p := by
  obtain ⟨held, hr, hm⟩ := resolve_granted s.groups s.user table s.store
  have hk : (Checker.new table s.user).known = none := rfl
  exact ⟨held, _, Checker.permissions_of_resolved hk hr, hm⟩

theorem has_eq_true_iff : s.has table p = .ok true ↔ s.Gives table p := by
  obtain ⟨held, after, hr, hm⟩ := s.permissions_new table
  rw [has, Checker.hasPermission_of_ok hr, Except.ok.injEq, decide_eq_true_iff, hm]

theorem check_eq_ok_iff : s.check table p = .ok () ↔ s.Gives table p := by
  obtain ⟨held, after, hr, hm⟩ := s.permissions_new table
  rw [check, Checker.checkPermission_of_ok hr, ← hm]
  by_cases hp : p ∈ held <;> simp [hp]

theorem checkRow_eq_ok_iff {row : String} {filter : Option Scope} :
    s.checkRow table p row filter = .ok () ↔ s.Gives table p ∨ Admits s.user filter := by
  obtain ⟨held, after, hr, hm⟩ := s.permissions_new table
  have hu : (Checker.new table s.user).user = s.user := rfl
  rw [checkRow, Checker.checkFilter_of_set hr, ← hm, hu]
  by_cases hp : p ∈ held ∨ Admits s.user filter <;> simp [hp]

/-! ## Nothing is taken away -/

theorem Widens.gives (h : s.Widens t) (hg : s.Gives table p) : t.Gives table p := by
  cases h with
  | record fresh =>
    -- the key of the new record is new, so every record stays in its place
    refine Granted.mono (fun a ha => AclStore.mem_grant.2 (.inr ⟨ha, ?_⟩)) (fun _ hm => hm) hg
    exact AclStore.get?_eq_none_iff.1 fresh a ha
  | member id name => exact Granted.mono (fun _ ha => ha) (fun _ hm => List.mem_append_left _ hm) hg
  | identity id => exact Granted.identified (some id) hg

theorem Widens.admits (h : s.Widens t) {filter : Option Scope} (ha : Admits s.user filter) : Admits t.user filter := by
  cases h with
  | record fresh => exact ha
  | member id name => exact ha
  | identity id => exact ha.identified (some id)

theorem gives_grant (s : Setting) {acl : Acl} (ht : TakesPart s.groups.members s.user acl.scope)
    (hp : p ∈ acl.role.permissions) : Gives { s with store := s.store.grant acl } acl.table p :=
  ⟨acl, AclStore.mem_grant.2 (.inl rfl), rfl, ht, hp⟩

/-- **Access only widens.**  After a record for a table and a scope that had none, after another member of a group, and
after the caller has said who they are, every permission is still held, every check still passes and every row is still
let through.  A record for a scope that the caller takes part in gives all that its role has. -/
theorem access_mono (h : s.Widens t) (table : TableId) (p : Permission) (row : String) (filter : Option Scope) :
    (∃ held held', s.resolved table = .ok held ∧ t.resolved table = .ok held' ∧ ∀ q ∈ held, q ∈ held') ∧
    (s.has table p = .ok true → t.has table p = .ok true) ∧
    (s.check table p = .ok () → t.check table p = .ok ()) ∧
    (s.checkRow table p row filter = .ok () → t.checkRow table p row filter = .ok ()) ∧
    ∀ acl, TakesPart s.groups.members s.user acl.scope →
      ∃ held, resolved { s with store := s.store.grant acl } acl.table = .ok held ∧
        ∀ q ∈ acl.role.permissions, q ∈ held := by
  refine ⟨?_, ?_, ?_, ?_, fun acl ht => ?_⟩
  · obtain ⟨held, hs, hm⟩ := s.resolved_spec table
    obtain ⟨held', ht, hm'⟩ := t.resolved_spec table
    exact ⟨held, held', hs, ht, fun q hq => (hm' q).2 (h.gives ((hm q).1 hq))⟩
  · rw [has_eq_true_iff, has_eq_true_iff]
    exact h.gives
  · rw [check_eq_ok_iff, check_eq_ok_iff]
    exact h.gives
  · rw [checkRow_eq_ok_iff, checkRow_eq_ok_iff]
    exact Or.imp h.gives h.admits
  · obtain ⟨held, hr, hm⟩ := resolved_spec { s with store := s.store.grant acl } acl.table
    exact ⟨held, hr, fun q hq => (hm q).2 (s.gives_grant ht hq)⟩

def visitReaders : AclStore := AclStore.empty.grant ⟨⟨"visits"⟩, .default, .filteredReader⟩

def nothingForAnn : Acl := ⟨⟨"visits"⟩, .user (some ⟨"ann"⟩), .none⟩

/-- Everyone reads the visits, and so does ann after a record that gives her nothing. -/
theorem access_mono_of_nothing :
    Widens ⟨visitReaders, .none, some ⟨"ann"⟩⟩ ⟨visitReaders.grant nothingForAnn, .none, some ⟨"ann"⟩⟩ ∧
    check ⟨visitReaders, .none, some ⟨"ann"⟩⟩ ⟨"visits"⟩ .readRow = .ok () ∧
    check ⟨visitReaders.grant nothingForAnn, .none, some ⟨"ann"⟩⟩ ⟨"visits"⟩ .readRow = .ok () := by
  have hw : Widens ⟨visitReaders, .none, some ⟨"ann"⟩⟩ ⟨visitReaders.grant nothingForAnn, .none, some ⟨"ann"⟩⟩ :=
    .record (by decide)
  have hc : check ⟨visitReaders, .none, some ⟨"ann"⟩⟩ ⟨"visits"⟩ .readRow = .ok () := by rfl
  obtain ⟨-, -, hcheck, -⟩ := access_mono hw ⟨"visits"⟩ .readRow "row-1" none
  exact ⟨hw, hc, hcheck hc⟩

end Setting
end TableAccess
