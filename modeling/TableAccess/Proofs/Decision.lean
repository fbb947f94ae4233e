import Mathlib
import TableAccess.Proofs.Memory
import TableAccess.Proofs.StoreMap
import TableAccess.Proofs.Validity
import TableAccess.UserAccess
/-!
# Who may do what

The records of a configuration and the pairs of users and groups decide every question, by one rule: a caller holds a
permission on a table when some record for that table gives it to a scope that the caller takes part in (`Granted`).
From the text of a configuration to the answer there is no step at which this rule is lost, a record dropped or a
failure made (`hasPermission_of_ofText`).
-/
namespace TableAccess

/-- **Whom a scope is for.**  The scope of everyone is for any caller; a user's is for the caller with that very
identifier, and a group's for a caller who is listed with that very name.  Without an identity a caller is neither. -/
def TakesPart (members : List (UserId × String)) (user : Option UserId) : Scope → Prop
  | .default => True
  | .user owner => ∃ id ∈ user, owner = some id
  | .group name => ∃ id ∈ user, (id, name) ∈ members
  | .empty => False

instance (members : List (UserId × String)) (user : Option UserId) :
    (scope : Scope) → Decidable (TakesPart members user scope)
  | .default => inferInstanceAs (Decidable True)
  | .user owner => inferInstanceAs (Decidable (∃ id ∈ user, owner = some id))
  | .group name => inferInstanceAs (Decidable (∃ id ∈ user, (id, name) ∈ members))
  | .empty => inferInstanceAs (Decidable False)

/-- **What records give**: some record for the table gives the permission to a scope that the caller takes part in. -/
def Granted (records : List Acl) (members : List (UserId × String)) (user : Option UserId) (table : TableId)
    (p : Permission) : Prop :=
  ∃ a ∈ records, a.table = table ∧ TakesPart members user a.scope ∧ p ∈ a.role.permissions

instance (records : List Acl) (members : List (UserId × String)) (user : Option UserId) (table : TableId)
    (p : Permission) : Decidable (Granted records members user table p) :=
  inferInstanceAs (Decidable (∃ a ∈ records, a.table = table ∧ TakesPart members user a.scope ∧ p ∈ a.role.permissions))

variable {members members' : List (UserId × String)} {user : Option UserId} {table : TableId} {p : Permission}

theorem TakesPart.mono (h : ∀ m ∈ members, m ∈ members') {scope : Scope} (ht : TakesPart members user scope) :
    TakesPart members' user scope := by
  cases scope with
  | default => trivial
  | user owner => exact ht
  | group name =>
    obtain ⟨id, hu, hm⟩ := ht
    exact ⟨id, hu, h _ hm⟩
  | empty => exact ht

theorem Granted.mono {l l' : List Acl} (hl : ∀ a ∈ l, a ∈ l') (hm : ∀ m ∈ members, m ∈ members')
    (h : Granted l members user table p) : Granted l' members' user table p := by
  obtain ⟨a, ha, ht, hs, hp⟩ := h
  exact ⟨a, hl a ha, ht, hs.mono hm, hp⟩

/-- Neither order nor repetition matters to what is given. -/
theorem granted_congr {l l' : List Acl} (hl : ∀ a, a ∈ l ↔ a ∈ l') (hm : ∀ m, m ∈ members ↔ m ∈ members') :
    Granted l members user table p ↔ Granted l' members' user table p :=
  ⟨.mono (fun a => (hl a).1) fun m => (hm m).1, .mono (fun a => (hl a).2) fun m => (hm m).2⟩

/-! ## Groups -/

namespace Groups

def withMembers (pairs : List (UserId × String)) : Groups := pairs.foldl (fun g m => g.withMember m.1 m.2) none

theorem members_foldl : ∀ (pairs : List (UserId × String)) (g : Groups),
    (pairs.foldl (fun g m => g.withMember m.1 m.2) g).members = g.members ++ pairs
  | [], g => (List.append_nil _).symm
  | m :: pairs, g => by
    rw [List.foldl_cons, members_foldl pairs (g.withMember m.1 m.2), withMember, List.append_assoc]
    rfl

theorem members_withMembers (pairs : List (UserId × String)) : (withMembers pairs).members = pairs :=
  members_foldl pairs none

theorem mem_of {g : Groups} {id : UserId} {name : String} : name ∈ g.of id ↔ (id, name) ∈ g.members := by
  unfold of
  rw [List.mem_map]
  constructor
  · rintro ⟨⟨u, n⟩, hm, rfl⟩
    obtain ⟨hm, hu⟩ := List.mem_filter.1 hm
    rw [← of_decide_eq_true hu]
    exact hm
  · intro hm
    exact ⟨(id, name), List.mem_filter.2 ⟨hm, decide_eq_true rfl⟩, rfl⟩

end Groups

/-! ## Resolving from a store -/

def scopesAsked (g : Groups) : Option UserId → List Scope
  | none => [.default]
  | some id => .default :: .user (some id) :: (g.of id).map .group

/-- **The scopes asked for are those the caller takes part in.** -/
theorem mem_scopesAsked {g : Groups} {scope : Scope} : scope ∈ scopesAsked g user ↔ TakesPart g.members user scope := by
  cases user with
  | none => cases scope <;> simp [scopesAsked, TakesPart]
  | some id =>
    cases scope with
    | default => simp [scopesAsked, TakesPart]
    | user owner => simp [scopesAsked, TakesPart]
    | group name => simp [scopesAsked, TakesPart, Groups.mem_of]
    | empty => simp [scopesAsked, TakesPart]

def AclStore.given (store : AclStore) (table : TableId) (scope : Scope) : List Permission :=
  match store.get? table scope with
  | some acl => acl.role.permissions
  | none => []

theorem AclStore.mem_given {store : AclStore} {scope : Scope} :
    p ∈ store.given table scope ↔ ∃ a ∈ store.records, a.table = table ∧ a.scope = scope ∧ p ∈ a.role.permissions := by
  unfold given
  constructor
  · intro h
    split at h
    · rename_i a ha
      obtain ⟨hm, hk⟩ := get?_eq_some_iff.1 ha
      exact ⟨a, hm, congrArg Prod.fst hk, congrArg Prod.snd hk, h⟩
    · cases h
  · rintro ⟨a, hm, ht, hs, hp⟩
    rw [get?_eq_some_iff.2 ⟨hm, Prod.ext ht hs⟩]
    exact hp

theorem addScope_ofStore (g : Groups) (table : TableId) (held : PermissionSet) (scope : Scope) (store : AclStore) :
    addScope (.ofStore g) table held scope store = (.ok (held.grant (store.given table scope)), store) := by
  unfold addScope AclStore.given
  have ha : (Sources.ofStore g).acl table scope store = (.ok (store.get? table scope), store) := rfl
  rw [Query.bind_ok ha]
  cases store.get? table scope with
  | none => rw [PermissionSet.grant_nil]; rfl
  | some acl => rfl

theorem addScopes_ofStore (g : Groups) (table : TableId) (store : AclStore) :
    ∀ (names : List String) (held : PermissionSet),
      names.foldlM (fun held name => addScope (.ofStore g) table held (.group name)) held store =
        (.ok (held.grant ((names.map .group).flatMap (store.given table))), store)
  | [], held => by rw [List.map_nil, List.flatMap_nil, PermissionSet.grant_nil]; rfl
  | name :: names, held => by
    rw [List.foldlM_cons, Query.bind_ok (addScope_ofStore g table held (.group name) store),
      addScopes_ofStore g table store names, PermissionSet.grant_grant, List.map_cons, List.flatMap_cons]

/-- **A resolution from a store does not fail**, and gives what the records for the scopes asked for give. -/
theorem resolve_ofStore (g : Groups) (user : Option UserId) (table : TableId) (store : AclStore) :
    resolve (.ofStore g) user table store =
      (.ok ((∅ : PermissionSet).grant ((scopesAsked g user).flatMap (store.given table))), store) := by
  unfold resolve
  rw [Query.bind_ok (addScope_ofStore g table ∅ .default store)]
  cases user with
  | none => rw [scopesAsked, List.flatMap_singleton]; rfl
  | some id =>
    have hg : (Sources.ofStore g).groups id store = (.ok (g.of id), store) := rfl
    dsimp only
    rw [Query.bind_ok (addScope_ofStore g table _ (.user (some id)) store), Query.bind_ok hg, addScopes_ofStore,
      PermissionSet.grant_grant, PermissionSet.grant_grant, scopesAsked, List.flatMap_cons, List.flatMap_cons]

/-- **The permissions that a resolution from a store gives are those of the rule.** -/
theorem resolve_granted (g : Groups) (user : Option UserId) (table : TableId) (store : AclStore) :
    ∃ held, resolve (.ofStore g) user table store = (.ok held, store) ∧
      ∀ p, p ∈ held ↔ Granted store.records g.members user table p := by
  refine ⟨_, resolve_ofStore g user table store, fun p => ?_⟩
  rw [PermissionSet.mem_grant, or_iff_right (PermissionSet.not_mem_empty p), List.mem_flatMap]
  constructor
  · rintro ⟨scope, hs, hp⟩
    obtain ⟨a, ha, ht, rfl, hg⟩ := AclStore.mem_given.1 hp
    exact ⟨a, ha, ht, mem_scopesAsked.1 hs, hg⟩
  · rintro ⟨a, ha, ht, hs, hp⟩
    exact ⟨a.scope, mem_scopesAsked.2 hs, AclStore.mem_given.2 ⟨a, ha, ht, rfl, hp⟩⟩

/-- **A caller who asks for the first time is answered by the rule.** -/
theorem hasPermission_ofStore (g : Groups) (user : Option UserId) (table : TableId) (p : Permission)
    (store : AclStore) :
    ((UserAccess.new user).hasPermission (.ofStore g) table p store).1 =
      .ok (decide (Granted store.records g.members user table p)) := by
  obtain ⟨held, hr, hm⟩ := resolve_granted g user table store
  have hk : ((UserAccess.new user).checker table).known = none := rfl
  rw [UserAccess.hasPermission, Checker.hasPermission_of_ok (Checker.permissions_of_resolved hk hr)]
  exact congrArg Except.ok (decide_eq_decide.2 (hm p))

theorem hasPermission_of_nodup {l : List Acl} (h : (l.map Acl.key).Nodup) (pairs : List (UserId × String))
    (user : Option UserId) (table : TableId) (p : Permission) :
    ∃ store, AclStore.ofRecords l = .ok store ∧
      ((UserAccess.new user).hasPermission (.ofStore (.withMembers pairs)) table p store).1 =
        .ok (decide (Granted l pairs user table p)) := by
  obtain ⟨store, hs, hm⟩ := AclStore.ofRecords_of_nodup h
  refine ⟨store, hs, ?_⟩
  rw [hasPermission_ofStore, Groups.members_withMembers]
  exact congrArg Except.ok (decide_eq_decide.2 (granted_congr hm fun _ => Iff.rfl))

/-- **From a text to the answer.**  A configuration that was read from a text, in any order, makes a store, and a caller who asks it
for the first time is told whether the records and the members give the permission, and never meets a failure.  The
same records in another order, and the same members in another order or named more than once, make a store that
answers the same. -/
theorem hasPermission_of_ofText {text : String} {order : TableOrder} {c : Config} (h : Config.ofText text order = .ok c)
    (pairs : List (UserId × String)) (user : Option UserId) (table : TableId) (p : Permission) :
    (∃ store, c.store = .ok store ∧
      ((UserAccess.new user).hasPermission (.ofStore (.withMembers pairs)) table p store).1 =
        .ok (decide (Granted c.acls pairs user table p))) ∧
    ∀ records members, records.Perm c.acls → (∀ m, m ∈ members ↔ m ∈ pairs) →
      ∃ store, AclStore.ofRecords records = .ok store ∧
        ((UserAccess.new user).hasPermission (.ofStore (.withMembers members)) table p store).1 =
          .ok (decide (Granted c.acls pairs user table p)) := by
  obtain ⟨-, -, hn⟩ := Config.validate_eq_ok_iff.1 (Config.validate_of_ofText h)
  refine ⟨hasPermission_of_nodup hn pairs user table p, fun records members hr hm => ?_⟩
  have hk : (records.map Acl.key).Nodup := (hr.map Acl.key).nodup_iff.2 hn
  obtain ⟨store, hs, ha⟩ := hasPermission_of_nodup hk members user table p
  refine ⟨store, hs, ha.trans ?_⟩
  exact congrArg Except.ok (decide_eq_decide.2 (granted_congr (fun a => hr.mem_iff) hm))

def staffFile : String :=
  "[[acls]]\ntable_id=\"visits\"\nrole=\"FILTERED_READER\"\nscope.type=\"DEFAULT\"\n" ++
    "[[acls]]\ntable_id=\"visits\"\nrole=\"OWNER\"\nscope.type=\"GROUP\"\nscope.value=\"staff\"\n"

def staffRecords : List Acl :=
  [⟨⟨"visits"⟩, .default, .filteredReader⟩, ⟨⟨"visits"⟩, .group "staff", .owner⟩]

/-- Someone of the staff may write a row of that table, with the records turned round and the membership said twice. -/
theorem hasPermission_of_staffFile :
    Config.ofText staffFile = .ok ⟨{}, staffRecords⟩ ∧
    (∃ store, Config.store ⟨{}, staffRecords⟩ = .ok store ∧
      ((UserAccess.new (some ⟨"ann"⟩)).hasPermission (.ofStore (.withMembers [(⟨"ann"⟩, "staff")]))
        ⟨"visits"⟩ .writeRow store).1 = .ok true) ∧
    ∃ store, AclStore.ofRecords staffRecords.reverse = .ok store ∧
      ((UserAccess.new (some ⟨"ann"⟩)).hasPermission
        (.ofStore (.withMembers [(⟨"ann"⟩, "staff"), (⟨"ann"⟩, "staff")])) ⟨"visits"⟩ .writeRow store).1 = .ok true := by
  have h : Config.ofText staffFile = .ok ⟨{}, staffRecords⟩ := by cbv
  have hd : decide (Granted staffRecords [(⟨"ann"⟩, "staff")] (some ⟨"ann"⟩) ⟨"visits"⟩ .writeRow) = true := by decide
  obtain ⟨ha, hb⟩ := hasPermission_of_ofText h [(⟨"ann"⟩, "staff")] (some ⟨"ann"⟩) ⟨"visits"⟩ .writeRow
  rw [hd] at ha hb
  exact ⟨h, ha, hb _ _ (List.reverse_perm _) (by simp)⟩

end TableAccess
