import TableAccess.Proofs.Isolation
/-!
# Accounts

A registered account is known by its address, or by its user name if it has none, and what it is known by is turned into
the identifier under which its grants are recorded.  A user name is marked, so that it is not mistaken for an address, but
an address is taken as it stands.  Accounts that are known by different things have different identifiers, but for one
case: an address that reads like the marked user name of another account (`Account.identity_eq_iff`).  What is recorded
under one identifier is nothing to the others, whatever the collaborators are (`Account.accounts_separate`).
-/
namespace TableAccess

variable {σ : Type}

/-! ## What an account is known by -/

inductive Credential where
  | email (address : String)
  | username (name : String)
  deriving DecidableEq

def Credential.userId : Credential → UserId
  | email address => ⟨address⟩
  | username name => ⟨UserId.usernameMark ++ name⟩

/-- A registered account. -/
structure Account where
  email    : Option String
  username : Option String

namespace Account

/-- An account is known by its address if it has one, and by its user name otherwise. -/
def credential : Account → Option Credential
  | ⟨some address, _⟩ => some (.email address)
  | ⟨none, some name⟩ => some (.username name)
  | ⟨none, none⟩ => none

def identity (a : Account) : Option UserId := UserId.ofAccount a.email a.username

/-- **The address of one account reads like the marked user name that another is known by.** -/
def Mimics (a b : Account) : Prop :=
  match a.credential, b.credential with
  | some (.email address), some (.username name) => address = UserId.usernameMark ++ name
  | _, _ => False

instance (a b : Account) : Decidable (a.Mimics b) := by
  unfold Mimics
  split <;> infer_instance

theorem identity_eq (a : Account) : a.identity = a.credential.map Credential.userId := by
  rcases a with ⟨_ | address, _ | name⟩ <;> rfl

variable {a b : Account} {i j : UserId}

/-- **Which accounts share an identifier.** -/
theorem identity_eq_iff (ha : a.identity = some i) (hb : b.identity = some j) :
    i = j ↔ a.credential = b.credential ∨ a.Mimics b ∨ b.Mimics a := by
  rw [identity_eq, Option.map_eq_some_iff] at ha hb
  obtain ⟨c, hc, rfl⟩ := ha
  obtain ⟨d, hd, rfl⟩ := hb
  rw [Mimics, Mimics, hc, hd]
  cases c with
  | email address =>
    cases d with
    | email address' => simp [Credential.userId]
    | username name => simp [Credential.userId]
  | username name =>
    cases d with
    | email address => simp [Credential.userId, eq_comm]
    | username name' => simp [Credential.userId]

end Account

/-! ## Records of others -/

/-- The same collaborators, but for what they answer about the records for one scope. -/
def Sources.answering (src : Sources σ) (scope : Scope) (answer : TableId → Query σ (Option Acl)) : Sources σ where
  acl table s := if s = scope then answer table else src.acl table s
  groups := src.groups

variable {i j : UserId}

theorem Sources.answering_of_ne {scope asked : Scope} (h : asked ≠ scope) (src : Sources σ)
    (answer : TableId → Query σ (Option Acl)) (table : TableId) :
    (src.answering scope answer).acl table asked = src.acl table asked := if_neg h

/-- **Nobody is asked about another user's records**, so it does not matter what the answer would be. -/
theorem resolve_answering (h : i ≠ j) (src : Sources σ) (answer : TableId → Query σ (Option Acl)) (table : TableId)
    (w : σ) :
    resolve (src.answering (.user (some i)) answer) (some j) table w = resolve src (some j) table w := by
  have same {asked : Scope} (hs : asked ≠ .user (some i)) :
      Query.Related Eq ((src.answering (.user (some i)) answer).acl table asked) (src.acl table asked) := by
    rw [src.answering_of_ne hs]
    rintro w _ rfl
    exact ⟨rfl, rfl⟩
  have hown : Scope.user (some j) ≠ .user (some i) := by
    intro hs
    exact h (Option.some.inj (Scope.user.inj hs)).symm
  have ha : (src.answering (.user (some i)) answer).AlikeFor Eq src (some j) table := {
    everyone := same nofun
    own := fun id hj => same (Option.some.inj hj ▸ hown)
    groups := by
      rintro id _ w _ rfl
      exact ⟨rfl, rfl⟩
    group := fun _ _ _ _ _ _ _ _ => same nofun }
  obtain ⟨hr, hw⟩ := resolve_alike ha w w rfl
  exact Prod.ext hr hw

/-- **Stores that differ in the records of another user only** give a caller the same permissions. -/
theorem resolve_of_same_others (h : i ≠ j) {store store' : AclStore}
    (hs : ∀ table scope, scope ≠ .user (some i) → store.get? table scope = store'.get? table scope) (g : Groups)
    (table : TableId) :
    (resolve (.ofStore g) (some j) table store).1 = (resolve (.ofStore g) (some j) table store').1 := by
  have ha : store.AlikeFor g.members (some j) table store' := by
    intro scope ht
    refine congrArg (Option.map Acl.role) (hs table scope ?_)
    rintro rfl
    obtain ⟨id, hj, hi⟩ := ht
    exact h ((Option.some.inj hi).trans (Option.some.inj hj).symm)
  obtain ⟨hr, -⟩ := resolve_alike (ofStore_alike fun id _ => rfl) store store' ha
  exact hr

theorem filterAdmits_of_ne (h : i ≠ j) : filterAdmits (some j) (some (.user (some i))) = false := by
  simpa [filterAdmits] using h.symm

namespace Account

/-- **Accounts are separate.**  Two accounts have the same identifier exactly if they are known by the same address or the
same user name, or if the address of one reads like the marked user name that the other is known by.  Otherwise they are
separate: whatever is answered about the records for the one, the other is resolved alike, from any collaborators; stores
that differ in the records for the one only give the other the same permissions; and the filter of the one does not let
the other in. -/
theorem accounts_separate {a b : Account} {i j : UserId} (ha : a.identity = some i) (hb : b.identity = some j) :
    (i = j ↔ a.credential = b.credential ∨ a.Mimics b ∨ b.Mimics a) ∧
    (a.credential ≠ b.credential → ¬ a.Mimics b → ¬ b.Mimics a →
      i ≠ j ∧
      (∀ (σ : Type) (src : Sources σ) (answer : TableId → Query σ (Option Acl)) (table : TableId) (w : σ),
        resolve (src.answering (.user (some i)) answer) (some j) table w = resolve src (some j) table w) ∧
      (∀ (store store' : AclStore),
        (∀ table scope, scope ≠ .user (some i) → store.get? table scope = store'.get? table scope) →
          ∀ (g : Groups) (table : TableId),
            (resolve (.ofStore g) (some j) table store).1 = (resolve (.ofStore g) (some j) table store').1) ∧
      filterAdmits (some j) (some (.user (some i))) = false) := by
  have hiff := identity_eq_iff ha hb
  refine ⟨hiff, fun hc hab hba => ?_⟩
  have h : i ≠ j := by
    intro he
    rcases hiff.1 he with hs | hm | hm
    · exact hc hs
    · exact hab hm
    · exact hba hm
  refine ⟨h, fun σ => resolve_answering h, fun store store' hs => resolve_of_same_others h hs, filterAdmits_of_ne h⟩

def mitch : Account := ⟨none, some "mitch"⟩

/-- The grant of a table to the user name of mitch. -/
def visitsOfMitch : AclStore := AclStore.empty.grant ⟨⟨"visits"⟩, .user mitch.identity, .owner⟩

/-- **Accounts that are known by different things and share an identifier.**  Whoever has registered the address
`username:mitch` owns what was given to mitch, and is let in by his filters. -/
theorem identity_shared :
    mitch.credential = some (.username "mitch") ∧
    credential ⟨some "username:mitch", none⟩ = some (.email "username:mitch") ∧
    mitch.credential ≠ credential ⟨some "username:mitch", none⟩ ∧
    mitch.identity = some ⟨"username:mitch"⟩ ∧
    identity ⟨some "username:mitch", none⟩ = some ⟨"username:mitch"⟩ ∧
    (resolve (.ofStore .none) (identity ⟨some "username:mitch", none⟩) ⟨"visits"⟩ .empty).1 = .ok ∅ ∧
    (resolve (.ofStore .none) (identity ⟨some "username:mitch", none⟩) ⟨"visits"⟩ visitsOfMitch).1 =
      .ok (.ofList Permission.all) ∧
    filterAdmits (identity ⟨some "username:mitch", none⟩) (some (.user mitch.identity)) = true := by
  refine ⟨rfl, rfl, by decide, rfl, rfl, rfl, rfl, by decide⟩

/-- The address `mitch` is not the user name mitch, even if the account has that user name too. -/
theorem accounts_separate_of_mitch :
    mitch.identity = some ⟨"username:mitch"⟩ ∧
    identity ⟨some "mitch", some "mitch"⟩ = some ⟨"mitch"⟩ ∧
    mitch.credential ≠ credential ⟨some "mitch", some "mitch"⟩ ∧
    ¬ mitch.Mimics ⟨some "mitch", some "mitch"⟩ ∧
    ¬ Mimics ⟨some "mitch", some "mitch"⟩ mitch ∧
    (resolve (.ofStore .none) (some ⟨"mitch"⟩) ⟨"visits"⟩ visitsOfMitch).1 =
      (resolve (.ofStore .none) (some ⟨"mitch"⟩) ⟨"visits"⟩ .empty).1 ∧
    filterAdmits (some ⟨"mitch"⟩) (some (.user (some ⟨"username:mitch"⟩))) = false := by
  have ha : mitch.identity = some ⟨"username:mitch"⟩ := rfl
  have hb : identity ⟨some "mitch", some "mitch"⟩ = some ⟨"mitch"⟩ := rfl
  have hc : mitch.credential ≠ credential ⟨some "mitch", some "mitch"⟩ := by decide
  have hab : ¬ mitch.Mimics ⟨some "mitch", some "mitch"⟩ := by decide
  have hba : ¬ Mimics ⟨some "mitch", some "mitch"⟩ mitch := by decide
  obtain ⟨-, hs⟩ := accounts_separate ha hb
  obtain ⟨-, -, hstore, hfilter⟩ := hs hc hab hba
  refine ⟨ha, hb, hc, hab, hba, hstore visitsOfMitch .empty (fun table scope hne => ?_) .none ⟨"visits"⟩, hfilter⟩
  have hk : Acl.key ⟨⟨"visits"⟩, .user mitch.identity, .owner⟩ ≠ (table, scope) := by
    intro hk
    exact hne (congrArg Prod.snd hk).symm
  rw [visitsOfMitch, AclStore.get?_grant, if_neg hk]

end Account
end TableAccess
