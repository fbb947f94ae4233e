import TableAccess.Error
import TableAccess.Role
/-!
# The store of records

A store holds at most one record for each table and scope.  It keeps them in listing order, by table and then by the
text of the scope, so a store is its own listing: two stores with the same records are the same value, whatever
history made them.

Records that come in another order are sorted when they are shown.

`grant` puts a record in the place of the one with the same key; `ofRecords` refuses a list in which a key repeats and
names the first that does.
-/
namespace TableAccess

namespace Acl

/-- The listing order: by table, then by the text of the scope, both by code point. -/
def Precedes (a b : Acl) : Prop :=
  a.table.text < b.table.text ∨ (a.table.text = b.table.text ∧ a.scope.text < b.scope.text)

instance (a b : Acl) : Decidable (a.Precedes b) := by unfold Precedes; infer_instance

theorem Precedes.trans {a b c : Acl} (h : a.Precedes b) (k : b.Precedes c) : a.Precedes c := by
  rcases h with h | ⟨h, h'⟩ <;> rcases k with k | ⟨k, k'⟩
  · exact .inl (String.lt_trans h k)
  · exact .inl (k ▸ h)
  · exact .inl (h ▸ k)
  · exact .inr ⟨h.trans k, String.lt_trans h' k'⟩

theorem Precedes.key_ne {a b : Acl} (h : a.Precedes b) : a.key ≠ b.key := by
  intro e
  simp only [key, Prod.mk.injEq] at e
  rcases h with h | ⟨_, h⟩
  · exact String.lt_irrefl _ (e.1 ▸ h)
  · exact String.lt_irrefl _ (e.2 ▸ h)

theorem precedes_of_not {a b : Acl} (hk : a.key ≠ b.key) (h : ¬ a.Precedes b) : b.Precedes a := by
  have tri (s t : String) (h : ¬ s < t) : t < s ∨ s = t := by
    by_cases h' : t < s
    · exact .inl h'
    · exact .inr (String.le_antisymm (String.not_lt.1 h') (String.not_lt.1 h))
  simp only [Precedes, not_or, not_and] at h
  rcases tri _ _ h.1 with ht | ht
  · exact .inl ht
  · rcases tri _ _ (h.2 ht) with hs | hs
    · exact .inr ⟨ht.symm, hs⟩
    · exact absurd (by simp [key, Scope.text_injective hs, (show a.table = b.table by
        cases ha : a.table; cases hb : b.table; simp_all)]) hk

/-- How records compare in a listing: by their tables, and for one table by the texts of their scopes. -/
def compareListed (a b : Acl) : Ordering := (compare a.table b.table).then (compare a.scope.text b.scope.text)

/-- Records sorted for a listing.  Those that compare equal stay in the order in which they come. -/
def listing (acls : List Acl) : List Acl := acls.mergeSort fun a b => (a.compareListed b).isLE

end Acl

/-- The records of a list in listing order with one added, in the place of a record with the same key. -/
def placeRecord (acl : Acl) : List Acl → List Acl
  | [] => [acl]
  | b :: rest =>
    if acl.key = b.key then acl :: rest
    else if acl.Precedes b then acl :: b :: rest
    else b :: placeRecord acl rest

theorem mem_placeRecord_of {acl c : Acl} {l : List Acl} (h : c ∈ placeRecord acl l) : c = acl ∨ c ∈ l := by
  induction l with
  | nil => simpa [placeRecord] using h
  | cons b rest ih =>
    unfold placeRecord at h
    split at h
    · rcases List.mem_cons.1 h with h | h
      · exact .inl h
      · exact .inr (List.mem_cons_of_mem _ h)
    · split at h
      · simpa using h
      · rcases List.mem_cons.1 h with h | h
        · exact .inr (h ▸ List.mem_cons_self)
        · rcases ih h with h | h
          · exact .inl h
          · exact .inr (List.mem_cons_of_mem _ h)

/-- Adding a record keeps the listing order. -/
theorem pairwise_placeRecord (acl : Acl) (l : List Acl) (h : l.Pairwise Acl.Precedes) :
    (placeRecord acl l).Pairwise Acl.Precedes := by
  induction l with
  | nil => simp [placeRecord]
  | cons b rest ih =>
    obtain ⟨hb, hrest⟩ := List.pairwise_cons.1 h
    unfold placeRecord
    split
    · rename_i hk
      refine List.pairwise_cons.2 ⟨fun c hc => ?_, hrest⟩
      have := hb c hc
      simp only [Acl.key, Prod.mk.injEq] at hk
      simpa [Acl.Precedes, hk.1, hk.2] using this
    · rename_i hk
      split
      · rename_i hp
        exact List.pairwise_cons.2 ⟨fun c hc => by
          rcases List.mem_cons.1 hc with rfl | hc
          · exact hp
          · exact hp.trans (hb c hc), h⟩
      · rename_i hp
        refine List.pairwise_cons.2 ⟨fun c hc => ?_, ih hrest⟩
        rcases mem_placeRecord_of hc with rfl | hc
        · exact Acl.precedes_of_not hk hp
        · exact hb c hc

/-- Records in listing order, at most one for each table and scope. -/
structure AclStore where
  records : List Acl
  ordered : records.Pairwise Acl.Precedes
  deriving DecidableEq

namespace AclStore

def empty : AclStore := ⟨[], List.Pairwise.nil⟩

def get? (store : AclStore) (table : TableId) (scope : Scope) : Option Acl :=
  store.records.find? fun acl => acl.key = (table, scope)

def grant (store : AclStore) (acl : Acl) : AclStore :=
  ⟨placeRecord acl store.records, pairwise_placeRecord acl _ store.ordered⟩

def size (store : AclStore) : Nat := store.records.length

def isEmpty (store : AclStore) : Bool := store.records.isEmpty

/-- The store with a record added, unless it already has one for the same table and scope. -/
def insert (store : AclStore) (acl : Acl) : Except ConfigError AclStore :=
  match store.get? acl.table acl.scope with
  | some _ => .error (.duplicateAcl acl.table acl.scope)
  | none => .ok (store.grant acl)

/-- The store of a list of records, or the first key that repeats. -/
def ofRecords (acls : List Acl) : Except ConfigError AclStore := acls.foldlM insert empty

end AclStore
end TableAccess
