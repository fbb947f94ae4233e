import Mathlib
import TableAccess.Store
import TableAccess.Proofs.StoreHistory
import TableAccess.Text.Bytes
/-!
# What a store lists

A store may hold its records in any order (`AclStore.Entries`), and what it lists does not depend on it.  Records that
compare equal in a listing have the same key (`Acl.isLE_compareListed_iff`), of which a store has no two, so there is
only one way to sort them (`Acl.listing_eq_of_perm`).  A listing is therefore settled by the answers that the store
gives, and makes a store that gives the same ones (`AclStore.listing_canonical`).
-/
namespace TableAccess
namespace Acl

theorem Precedes.irrefl (a : Acl) : ¬ a.Precedes a := fun h => h.key_ne rfl

/-- Where records stand in a listing rests on their keys. -/
theorem precedes_congr {a b c d : Acl} (hac : a.key = c.key) (hbd : b.key = d.key) :
    a.Precedes b ↔ c.Precedes d := by
  simp only [key, Prod.mk.injEq] at hac hbd
  simp only [Precedes, hac, hbd]

/-- **Records compare equal in a listing only if their keys are equal**, for the text of a scope tells it apart. -/
theorem isLE_compareListed_iff {a b : Acl} : (a.compareListed b).isLE = true ↔ a.Precedes b ∨ a.key = b.key := by
  have ht : a.table.text = b.table.text ↔ a.table = b.table := by
    cases a.table
    cases b.table
    simp
  have hs : a.scope.text = b.scope.text ↔ a.scope = b.scope := ⟨Scope.text_injective, congrArg Scope.text⟩
  show ((compare a.table.text b.table.text).then (compare a.scope.text b.scope.text)).isLE = true ↔ _
  rw [Ordering.isLE_then_iff_or, compare_lt_iff_lt, Std.compare_eq_iff_eq, Std.LawfulBCmp.isLE_iff_le,
    le_iff_lt_or_eq, hs, ht, and_or_left, ← or_assoc, key, key, Prod.mk.injEq, ← ht]
  rfl

theorem isLE_compareListed_trans (a b c : Acl) (hab : (a.compareListed b).isLE = true)
    (hbc : (b.compareListed c).isLE = true) : (a.compareListed c).isLE = true := by
  rw [isLE_compareListed_iff] at hab hbc ⊢
  rcases hab with hab | hab
  · rcases hbc with hbc | hbc
    · exact .inl (hab.trans hbc)
    · exact .inl ((precedes_congr rfl hbc).1 hab)
  · rcases hbc with hbc | hbc
    · exact .inl ((precedes_congr hab rfl).2 hbc)
    · exact .inr (hab.trans hbc)

theorem isLE_compareListed_total (a b : Acl) : ((a.compareListed b).isLE || (b.compareListed a).isLE) = true := by
  rw [Bool.or_eq_true, isLE_compareListed_iff, isLE_compareListed_iff]
  by_cases hk : a.key = b.key
  · exact .inl (.inr hk)
  · by_cases hp : a.Precedes b
    · exact .inl (.inl hp)
    · exact .inr (.inl (precedes_of_not hk hp))

/-- **Where no key repeats, a listing goes up without ties.** -/
theorem pairwise_listing {l : List Acl} (h : (l.map key).Nodup) : (listing l).Pairwise Precedes := by
  have hp : (listing l).Perm l := List.mergeSort_perm _ _
  have hn : (listing l).Pairwise fun a b => a.key ≠ b.key := List.pairwise_map.1 ((hp.map key).nodup_iff.2 h)
  have hs : (listing l).Pairwise fun a b => (a.compareListed b).isLE = true :=
    List.pairwise_mergeSort isLE_compareListed_trans isLE_compareListed_total l
  refine (hs.and hn).imp fun {a b} hab => ?_
  exact (isLE_compareListed_iff.1 hab.1).resolve_right hab.2

theorem eq_of_perm_of_pairwise {l l' : List Acl} (hl : l.Pairwise Precedes) (hl' : l'.Pairwise Precedes)
    (hp : l.Perm l') : l = l' :=
  hp.eq_of_pairwise (fun a _ _ _ hab hba => absurd (hab.trans hba) (Precedes.irrefl a)) hl hl'

/-- **Sorting undoes any order in which the records come.** -/
theorem listing_eq_of_perm {l records : List Acl} (hr : records.Pairwise Precedes) (hp : l.Perm records) :
    listing l = records := by
  have hk : (records.map key).Nodup := List.pairwise_map.2 (hr.imp Precedes.key_ne)
  have hl : (l.map key).Nodup := (hp.map key).nodup_iff.2 hk
  exact eq_of_perm_of_pairwise (pairwise_listing hl) hr ((List.mergeSort_perm _ _).trans hp)

/-- **The listing order is that of the bytes** of the tables, and for one table of the texts of the scopes. -/
theorem precedes_iff_bytes {a b : Acl} : a.Precedes b ↔ Text.bytes a.table.text < Text.bytes b.table.text ∨
    (a.table.text = b.table.text ∧ Text.bytes a.scope.text < Text.bytes b.scope.text) := by
  rw [Text.bytes_lt_iff, Text.bytes_lt_iff]
  rfl

end Acl

namespace AclStore

/-- **The records of a store, in whatever order they come**: no key comes twice, and those records come that the store
answers with. -/
def Entries (store : AclStore) (entries : List Acl) : Prop :=
  (entries.map Acl.key).Nodup ∧ ∀ a, a ∈ entries ↔ store.get? a.table a.scope = some a

variable {store store' : AclStore} {entries : List Acl}

theorem mem_records_iff {a : Acl} : a ∈ store.records ↔ store.get? a.table a.scope = some a := by
  rw [get?_eq_some_iff]
  exact (and_iff_left rfl).symm

theorem Entries.perm (h : store.Entries entries) : entries.Perm store.records :=
  (List.perm_ext_iff_of_nodup (.of_map Acl.key h.1) store.nodup_records).2
    fun a => (h.2 a).trans mem_records_iff.symm

/-- **What a store lists is the same in whatever order its records come.** -/
theorem Entries.listing_eq (h : store.Entries entries) : Acl.listing entries = store.records :=
  Acl.listing_eq_of_perm store.ordered h.perm

/-- **A store is settled by its answers.** -/
theorem eq_of_get?_eq (h : ∀ table scope, store.get? table scope = store'.get? table scope) : store = store' := by
  have hm : ∀ a, a ∈ store.records ↔ a ∈ store'.records := fun a => by rw [mem_records_iff, mem_records_iff, h]
  have hp : store.records.Perm store'.records :=
    (List.perm_ext_iff_of_nodup store.nodup_records store'.nodup_records).2 hm
  have hr : store.records = store'.records := Acl.eq_of_perm_of_pairwise store.ordered store'.ordered hp
  cases store
  cases store'
  cases hr
  rfl

/-- **What a store lists makes the same store.** -/
theorem ofRecords_records (store : AclStore) : ofRecords store.records = .ok store := by
  obtain ⟨again, ha, -, hp⟩ := ofRecords_perm store.nodup_keys
  have hr : again.records = store.records := Acl.eq_of_perm_of_pairwise again.ordered store.ordered hp
  rw [ha]
  cases again
  cases store
  cases hr
  rfl

/-- **The listing of a store is canonical.**  A store that was made, and has had any grants since, may hold its records
in any order.  What it lists is what it keeps in order: each record that was given last for its key, once, and nothing
else, so the listing and the answers of the store say the same.  It goes up strictly, by the bytes of the table and for
one table by the bytes of the scope's text.  Any other history that ends with the same answers ends with this listing,
whatever order the records come in there.  The listing makes a store, which has the same answers and the same
listing. -/
theorem listing_canonical {made granted entries : List Acl} {store : AclStore} (hs : ofRecords made = .ok store)
    (he : (store.grants granted).Entries entries) :
    Acl.listing entries = (store.grants granted).records ∧
    (Acl.listing entries).Nodup ∧
    (∀ a, (a ∈ Acl.listing entries ↔ LastGiven (made ++ granted) a) ∧
      (a ∈ Acl.listing entries ↔ (store.grants granted).get? a.table a.scope = some a)) ∧
    ((Acl.listing entries).Pairwise fun a b => Text.bytes a.table.text < Text.bytes b.table.text ∨
      (a.table.text = b.table.text ∧ Text.bytes a.scope.text < Text.bytes b.scope.text)) ∧
    (∀ made' granted' entries' store', ofRecords made' = .ok store' → (store'.grants granted').Entries entries' →
      (∀ table scope, (store'.grants granted').get? table scope = (store.grants granted).get? table scope) →
        Acl.listing entries' = Acl.listing entries) ∧
    ∃ again, ofRecords (Acl.listing entries) = .ok again ∧
      (∀ table scope, again.get? table scope = (store.grants granted).get? table scope) ∧
      ∀ entries', again.Entries entries' → Acl.listing entries' = Acl.listing entries := by
  have hn : (made.map Acl.key).Nodup := ofRecords_isOk_iff.1 ⟨store, hs⟩
  have hh : (store.grants granted).Holds (made ++ granted) := (holds_of_ofRecords hn hs).grants granted
  rw [he.listing_eq]
  refine ⟨rfl, nodup_records _, fun a => ⟨hh a, mem_records_iff⟩, ?_, ?_, ?_⟩
  · exact (store.grants granted).ordered.imp fun h => Acl.precedes_iff_bytes.1 h
  · intro made' granted' entries' store' _ he' hg
    rw [he'.listing_eq, eq_of_get?_eq hg]
  · exact ⟨_, ofRecords_records _, fun _ _ => rfl, fun entries' he' => he'.listing_eq⟩

/-- Records for the visits, a store of them, and grants after them, one of which takes the place of a record. -/
def madeVisits : List Acl := [⟨⟨"visits"⟩, .group "staff", .owner⟩, ⟨⟨"visits"⟩, .default, .filteredReader⟩]

def visitsStore : AclStore := ⟨madeVisits.reverse, by decide⟩

def grantedVisits : List Acl := [⟨⟨"visits"⟩, .default, .none⟩, ⟨⟨"trips"⟩, .user none, .owner⟩]

/-- The records that these leave, in an order that is not theirs. -/
def visitsEntries : List Acl :=
  [⟨⟨"visits"⟩, .group "staff", .owner⟩, ⟨⟨"trips"⟩, .user none, .owner⟩, ⟨⟨"visits"⟩, .default, .none⟩]

def listedVisits : List Acl :=
  [⟨⟨"trips"⟩, .user none, .owner⟩, ⟨⟨"visits"⟩, .default, .none⟩, ⟨⟨"visits"⟩, .group "staff", .owner⟩]

/-- The trips come first, and of the visits the record for everyone.  The same records made at once, and found in
another order, are listed alike. -/
theorem listing_canonical_of_visits :
    ofRecords madeVisits = .ok visitsStore ∧ (visitsStore.grants grantedVisits).Entries visitsEntries ∧
    Acl.listing visitsEntries = listedVisits ∧
    (∃ store', ofRecords visitsEntries = .ok store' ∧ (store'.grants []).Entries listedVisits.reverse ∧
      Acl.listing listedVisits.reverse = Acl.listing visitsEntries) ∧
    ∃ again, ofRecords listedVisits = .ok again ∧
      again.get? ⟨"visits"⟩ .default = some ⟨⟨"visits"⟩, .default, .none⟩ := by
  have hs : ofRecords madeVisits = .ok visitsStore := by decide
  have hr : (visitsStore.grants grantedVisits).records = listedVisits := by decide
  have he : ∀ {entries : List Acl}, entries.Perm listedVisits → (visitsStore.grants grantedVisits).Entries entries := by
    intro entries hp
    rw [← hr] at hp
    exact ⟨(hp.map Acl.key).nodup_iff.2 (nodup_keys _), fun a => hp.mem_iff.trans mem_records_iff⟩
  have hp : visitsEntries.Perm listedVisits := by decide
  obtain ⟨hl, -, -, -, hcanonical, again, ha, hget, -⟩ := listing_canonical hs (he hp)
  rw [hr] at hl
  rw [hl] at ha
  have hs' : ofRecords visitsEntries = .ok (visitsStore.grants grantedVisits) := by decide
  have he' : ((visitsStore.grants grantedVisits).grants []).Entries listedVisits.reverse := he (List.reverse_perm _)
  refine ⟨hs, he hp, hl, ⟨_, hs', he', hcanonical _ _ _ _ hs' he' fun _ _ => rfl⟩, again, ha, ?_⟩
  rw [hget]
  decide

end AclStore
end TableAccess
