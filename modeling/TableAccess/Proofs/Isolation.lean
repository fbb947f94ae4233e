import TableAccess.Proofs.Alongside
import TableAccess.Proofs.Decision
/-!
# What a caller cannot see

In a history grants are made between the questions of one caller.  Two histories look the same to the caller on a table
when, at every question, the stores have the same roles for the scopes the caller takes part in, and the caller is listed
in the same groups.  Grants to anyone else and memberships of anyone else leave that as it is, so a history looks the
same without them (`view_isolated`).
-/
namespace TableAccess

variable {α : Type} {user : Option UserId} {table : TableId}

/-! ## Stores that are alike to a caller -/

/-- **Two stores that are alike to a caller on a table**: for every scope that the caller takes part in they have the same
role, or both have none. -/
def AclStore.AlikeFor (members : List (UserId × String)) (user : Option UserId) (table : TableId)
    (store store' : AclStore) : Prop :=
  ∀ scope, TakesPart members user scope →
    (store.get? table scope).map Acl.role = (store'.get? table scope).map Acl.role

/-- A record that is about the table and is for the caller. -/
def Acl.Reaches (members : List (UserId × String)) (user : Option UserId) (table : TableId) (acl : Acl) : Prop :=
  acl.table = table ∧ TakesPart members user acl.scope

instance (members : List (UserId × String)) (user : Option UserId) (table : TableId) (acl : Acl) :
    Decidable (acl.Reaches members user table) :=
  inferInstanceAs (Decidable (_ ∧ _))

namespace AclStore.AlikeFor

variable {members : List (UserId × String)} {store store' : AclStore}

theorem refl (store : AclStore) : store.AlikeFor members user table store := fun _ _ => rfl

theorem grant (h : store.AlikeFor members user table store') (acl : Acl) :
    (store.grant acl).AlikeFor members user table (store'.grant acl) := by
  intro scope ht
  rw [get?_grant, get?_grant]
  split
  · rfl
  · exact h scope ht

/-- **A grant that does not reach the caller changes nothing for the caller.** -/
theorem grant_of_not_reaches (h : store.AlikeFor members user table store') {acl : Acl}
    (hn : ¬ acl.Reaches members user table) : (store.grant acl).AlikeFor members user table store' := by
  intro scope ht
  have hk : acl.key ≠ (table, scope) := by
    intro hk
    simp only [Acl.key, Prod.mk.injEq] at hk
    exact hn ⟨hk.1, hk.2 ▸ ht⟩
  rw [get?_grant, if_neg hk]
  exact h scope ht

end AclStore.AlikeFor

/-- **Alike stores and the same groups are alike collaborators.** -/
theorem ofStore_alike {g g' : Groups} (hg : ∀ id ∈ user, g.of id = g'.of id) :
    (Sources.ofStore g).AlikeFor (AclStore.AlikeFor g.members user table) (.ofStore g') user table where
  everyone _ _ h := ⟨congrArg Except.ok (AclStore.get?_eq_of_role_eq (h .default trivial)), h⟩
  own id hu _ _ h := ⟨congrArg Except.ok (AclStore.get?_eq_of_role_eq (h (.user (some id)) ⟨id, hu, rfl⟩)), h⟩
  groups id hu _ _ h := ⟨congrArg Except.ok (hg id hu), h⟩
  group id hu names w v hn name hm _ _ h := by
    have hl : g.of id = names := Except.ok.inj (congrArg Prod.fst hn)
    have ht : TakesPart g.members user (.group name) := ⟨id, hu, Groups.mem_of.1 (hl ▸ hm)⟩
    exact ⟨congrArg Except.ok (AclStore.get?_eq_of_role_eq (h (.group name) ht)), h⟩

/-- The memberships of one caller. -/
def Groups.only (g : Groups) (user : Option UserId) : Groups := ⟨g.members.filter fun m => some m.1 = user⟩

theorem Groups.of_only (g : Groups) : ∀ id ∈ user, g.of id = (g.only user).of id := by
  rintro id rfl
  unfold of only
  rw [List.filter_filter]
  simp

/-! ## Histories -/

/-- A step of a history: a grant, or something that the caller asks. -/
inductive Event (α : Type) where
  | grant (acl : Acl)
  | ask (what : α)

/-- What is asked in a history, each with the store of that moment. -/
def moments : AclStore → List (Event α) → List (AclStore × α)
  | _, [] => []
  | store, .grant acl :: rest => moments (store.grant acl) rest
  | store, .ask what :: rest => (store, what) :: moments store rest

/-- The history without the grants that do not reach a caller on a table. -/
def purged (members : List (UserId × String)) (user : Option UserId) (table : TableId) (events : List (Event α)) :
    List (Event α) :=
  events.filter fun
    | .grant acl => acl.Reaches members user table
    | .ask _ => true

/-- **What is left out of a history is not missed.** -/
theorem moments_purged {members : List (UserId × String)} : ∀ {store store' : AclStore} (events : List (Event α)),
    store.AlikeFor members user table store' →
      Alongside (AclStore.AlikeFor members user table) (moments store events)
        (moments store' (purged members user table events))
  | _, _, [], _ => .nil
  | store, store', .grant acl :: rest, h => by
    by_cases hr : acl.Reaches members user table
    · have hp : purged members user table (.grant acl :: rest) = .grant acl :: purged members user table rest := by
        simp [purged, hr]
      rw [hp]
      exact moments_purged rest (h.grant acl)
    · have hp : purged members user table (.grant acl :: rest) = purged members user table rest := by
        simp [purged, hr]
      rw [hp]
      exact moments_purged rest (h.grant_of_not_reaches hr)
  | store, store', .ask what :: rest, h => .cons ⟨h, rfl⟩ (moments_purged rest h)

namespace Checker

/-- A history of one checker: every step acts on the store that the one before it has left. -/
def history (g : Groups) : Checker → AclStore → List (Event Question) → List (Call AclStore)
  | _, _, [] => []
  | c, store, .grant acl :: rest => c.history g (store.grant acl) rest
  | c, store, .ask q :: rest =>
    let call := c.call (.ofStore g) store q
    call :: call.left.history g call.after rest

theorem permissions_after (g : Groups) (c : Checker) (store : AclStore) :
    (c.permissions (.ofStore g) store).2.2 = store := by
  cases hk : c.known with
  | some held => rw [permissions_of_known hk]
  | none => rw [permissions_of_resolved hk (resolve_ofStore g c.user c.table store)]

theorem call_after (g : Groups) (c : Checker) (store : AclStore) (q : Question) :
    (c.call (.ofStore g) store q).after = store := by
  have hp := permissions_after g c store
  rcases h : c.permissions (.ofStore g) store with ⟨e | held, left, after⟩ <;> rw [h] at hp
  · rw [call, ask_of_error h]
    exact hp
  · rw [call, ask_of_ok h]
    exact hp

/-- **Only grants change a store**, so a history is a run in the moments of its questions. -/
theorem history_eq_run (g : Groups) : ∀ (c : Checker) (store : AclStore) (events : List (Event Question)),
    c.history g store events = c.run (.ofStore g) (moments store events)
  | _, _, [] => rfl
  | c, store, .grant acl :: rest => history_eq_run g c (store.grant acl) rest
  | c, store, .ask q :: rest => by rw [history, moments, run, call_after, history_eq_run g]

/-- What a caller who asks one checker sees of a history. -/
def view (g : Groups) (user : Option UserId) (table : TableId) (store : AclStore) (events : List (Event Question)) :
    List (Question × Reply × List Lookup) :=
  ((new table user).history g store events).map Call.seen

end Checker

namespace UserAccess

/-- A history of the checks on all tables: every step acts on the store that the one before it has left. -/
def history (g : Groups) : UserAccess → AclStore → List (Event Request) → List (Turn AclStore)
  | _, _, [] => []
  | u, store, .grant acl :: rest => u.history g (store.grant acl) rest
  | u, store, .ask r :: rest =>
    let turn := u.turn (.ofStore g) store r
    turn :: turn.left.history g turn.after rest

theorem scopes_after (g : Groups) (u : UserAccess) (store : AclStore) :
    u.scopes (.ofStore g) store = (.ok (scopesAsked g u.user), store) := by
  unfold scopes
  cases u.user <;> rfl

theorem turn_after (g : Groups) (u : UserAccess) (store : AclStore) (r : Request) :
    (u.turn (.ofStore g) store r).after = store := by
  cases ht : r.target? with
  | some target =>
    rw [turn_target (.ofStore g) u store ht]
    exact Checker.call_after g _ store target.2
  | none =>
    cases r with
    | has | check | filter => cases ht
    | scopes => rw [turn_scopes, scopes_after]
    | hasFilterScope scope => rw [turn_hasFilterScope, hasFilterScope, Query.bind_ok (scopes_after g u store)]; rfl
    | cachedTables | clear => rfl

theorem history_eq_run (g : Groups) : ∀ (u : UserAccess) (store : AclStore) (events : List (Event Request)),
    u.history g store events = u.run (.ofStore g) (moments store events)
  | _, _, [] => rfl
  | u, store, .grant acl :: rest => history_eq_run g u (store.grant acl) rest
  | u, store, .ask r :: rest => by rw [history, moments, run, turn_after, history_eq_run g]

/-- What a caller who asks about any table sees of a history on one table. -/
def view (g : Groups) (user : Option UserId) (table : TableId) (store : AclStore) (events : List (Event Request)) :
    List (Request × Outcome × List Lookup) :=
  ((new user).history g store events).filterMap (Turn.seen? table)

end UserAccess

theorem Checker.view_alike {g g' : Groups} (hg : ∀ id ∈ user, g.of id = g'.of id) {store store' : AclStore}
    {events events' : List (Event Question)}
    (h : Alongside (AclStore.AlikeFor g.members user table) (moments store events) (moments store' events')) :
    view g user table store events = view g' user table store' events' := by
  have hc : (Sources.ofStore g).AlikeFor (AclStore.AlikeFor g.members user table) (.ofStore g')
      (new table user).user (new table user).table := ofStore_alike hg
  rw [view, view, history_eq_run, history_eq_run, run_alike hc h]

theorem UserAccess.view_alike {g g' : Groups} (hg : ∀ id ∈ user, g.of id = g'.of id) {store store' : AclStore}
    {events events' : List (Event Request)}
    (h : Alongside (AclStore.AlikeFor g.members user table) (moments store events) (moments store' events')) :
    view g user table store events = view g' user table store' events' := by
  rw [view, view, history_eq_run, history_eq_run, run_alike (ofStore_alike hg) (sameOn_new table user) h]

/-- **Isolation.**  Two histories of the same questions, over two stores and two lists of members, are the same to a
caller on a table, in every answer and every lookup, if at each question the stores have the same roles for the scopes the
caller takes part in, and the caller is listed in the same groups.  So a history is the same without the grants on other
tables or to scopes that the caller takes no part in, and without the memberships of others. -/
theorem view_isolated (user : Option UserId) (table : TableId) :
    (∀ (g g' : Groups) (store store' : AclStore), (∀ id ∈ user, g.of id = g'.of id) →
      (∀ events events' : List (Event Request),
        Alongside (AclStore.AlikeFor g.members user table) (moments store events) (moments store' events') →
          UserAccess.view g user table store events = UserAccess.view g' user table store' events') ∧
      ∀ events events' : List (Event Question),
        Alongside (AclStore.AlikeFor g.members user table) (moments store events) (moments store' events') →
          Checker.view g user table store events = Checker.view g' user table store' events') ∧
    ∀ (g : Groups) (store : AclStore),
      (∀ events : List (Event Request), UserAccess.view g user table store events =
        UserAccess.view (g.only user) user table store (purged g.members user table events)) ∧
      ∀ events : List (Event Question), Checker.view g user table store events =
        Checker.view (g.only user) user table store (purged g.members user table events) := by
  refine ⟨fun g g' store store' hg => ⟨?_, ?_⟩, fun g store => ⟨fun events => ?_, fun events => ?_⟩⟩
  · exact fun _ _ h => UserAccess.view_alike hg h
  · exact fun _ _ h => Checker.view_alike hg h
  · exact UserAccess.view_alike g.of_only (moments_purged events (.refl store))
  · exact Checker.view_alike g.of_only (moments_purged events (.refl store))

def bobOfStaff : Groups := ⟨[(⟨"bob"⟩, "staff")]⟩

/-- The visits are given to bob and to the staff, and ann asks whether she may read one. -/
def visitsToOthers : List (Event Request) :=
  [.grant ⟨⟨"visits"⟩, .user (some ⟨"bob"⟩), .owner⟩, .grant ⟨⟨"visits"⟩, .group "staff", .owner⟩,
    .ask (.has ⟨"visits"⟩ .readRow)]

/-- Ann sees what she would see if nothing had been given to anyone and bob were in no group. -/
theorem view_isolated_of_others :
    (∀ id ∈ (some ⟨"ann"⟩ : Option UserId), bobOfStaff.of id = Groups.none.of id) ∧
    Alongside (AclStore.AlikeFor bobOfStaff.members (some ⟨"ann"⟩) ⟨"visits"⟩) (moments .empty visitsToOthers)
      (moments .empty [.ask (.has ⟨"visits"⟩ .readRow)]) ∧
    UserAccess.view bobOfStaff (some ⟨"ann"⟩) ⟨"visits"⟩ .empty visitsToOthers =
      UserAccess.view .none (some ⟨"ann"⟩) ⟨"visits"⟩ .empty [.ask (.has ⟨"visits"⟩ .readRow)] ∧
    UserAccess.view bobOfStaff (some ⟨"ann"⟩) ⟨"visits"⟩ .empty visitsToOthers =
      [(.has ⟨"visits"⟩ .readRow, .reply (.has (.ok false)),
        [.acl ⟨"visits"⟩ .default, .acl ⟨"visits"⟩ (.user (some ⟨"ann"⟩)), .groups ⟨"ann"⟩])] := by
  have hg : ∀ id ∈ (some ⟨"ann"⟩ : Option UserId), bobOfStaff.of id = Groups.none.of id := by
    intro id hu
    cases hu
    decide
  have ha : Alongside (AclStore.AlikeFor bobOfStaff.members (some ⟨"ann"⟩) ⟨"visits"⟩)
      (moments .empty visitsToOthers) (moments .empty [.ask (.has ⟨"visits"⟩ .readRow)]) := by
    refine .cons ⟨?_, rfl⟩ .nil
    exact ((AclStore.AlikeFor.refl .empty).grant_of_not_reaches (by decide)).grant_of_not_reaches (by decide)
  obtain ⟨hview, -⟩ := view_isolated (some ⟨"ann"⟩) ⟨"visits"⟩
  obtain ⟨hsame, -⟩ := hview bobOfStaff .none .empty .empty hg
  exact ⟨hg, ha, hsame _ _ ha, rfl⟩

end TableAccess
