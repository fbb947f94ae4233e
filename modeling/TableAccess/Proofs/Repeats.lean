import Mathlib.Data.List.Nodup
import TableAccess.Proofs.StoreMap
import TableAccess.Proofs.Validity
/-!
# Repeated keys

That no two records are for the same table and scope is looked at twice: by validation, and again when the store is
made.  Both go through the records in order and stop at the first that repeats the key of an earlier one
(`FirstRepeat`), so they refuse the same lists and name the same record.  What validation lets through is what the store
holds, record for record (`Config.validate_agrees_store`).
-/
namespace TableAccess

/-- **The first record that repeats a key**: the records before it have different keys, and one of them has its own. -/
def FirstRepeat (l : List Acl) (acl : Acl) : Prop :=
  ∃ before after, l = before ++ acl :: after ∧ (before.map Acl.key).Nodup ∧ acl.key ∈ before.map Acl.key

theorem nodup_or_firstRepeat_append : ∀ (rest before : List Acl), (before.map Acl.key).Nodup →
    ((before ++ rest).map Acl.key).Nodup ∨ ∃ acl, FirstRepeat (before ++ rest) acl
  | [], before, hb => .inl (by rwa [List.append_nil])
  | acl :: rest, before, hb => by
    by_cases hr : acl.key ∈ before.map Acl.key
    · exact .inr ⟨acl, before, rest, rfl, hb, hr⟩
    -- the records read so far are longer by this one, and those left are fewer
    · have hb' : ((before ++ [acl]).map Acl.key).Nodup := by
        rw [List.map_append, List.map_singleton, List.nodup_append]
        refine ⟨hb, List.nodup_singleton _, fun k hk k' hk' he => hr ?_⟩
        rw [← List.mem_singleton.1 hk', ← he]
        exact hk
      have ih := nodup_or_firstRepeat_append rest (before ++ [acl]) hb'
      rwa [List.append_assoc, List.singleton_append] at ih

/-- **A list of records repeats no key, or one record is the first to do so.** -/
theorem nodup_or_firstRepeat (l : List Acl) : (l.map Acl.key).Nodup ∨ ∃ acl, FirstRepeat l acl :=
  nodup_or_firstRepeat_append l [] List.nodup_nil

/-! ## The store -/

namespace AclStore

theorem nodup_keys (store : AclStore) : (store.records.map Acl.key).Nodup :=
  List.pairwise_map.2 (store.ordered.imp Acl.Precedes.key_ne)

theorem nodup_records (store : AclStore) : store.records.Nodup := .of_map Acl.key store.nodup_keys

/-- **A list in which no key repeats makes a store that lists the same records**, none lost and none merged. -/
theorem ofRecords_perm {l : List Acl} (h : (l.map Acl.key).Nodup) :
    ∃ store, ofRecords l = .ok store ∧ store.size = l.length ∧ store.records.Perm l := by
  obtain ⟨store, hs, hm⟩ := ofRecords_of_nodup h
  have hp : store.records.Perm l := (List.perm_ext_iff_of_nodup store.nodup_records (.of_map Acl.key h)).2 hm
  exact ⟨store, hs, hp.length_eq, hp⟩

theorem insert_of_taken {store : AclStore} {acl b : Acl} (hb : b ∈ store.records) (hk : b.key = acl.key) :
    store.insert acl = .error (.duplicateAcl acl.table acl.scope) := by
  have hg : store.get? acl.table acl.scope = some b := get?_eq_some_iff.2 ⟨hb, hk⟩
  rw [insert, hg]

/-- **The store refuses the first repeat.** -/
theorem ofRecords_of_firstRepeat {l : List Acl} {acl : Acl} (h : FirstRepeat l acl) :
    ofRecords l = .error (.duplicateAcl acl.table acl.scope) := by
  obtain ⟨before, after, rfl, hn, hr⟩ := h
  obtain ⟨store, hs, hm⟩ := ofRecords_of_nodup hn
  obtain ⟨b, hb, hk⟩ := List.mem_map.1 hr
  rw [ofRecords] at hs ⊢
  rw [List.foldlM_append, hs]
  show (acl :: after).foldlM insert store = _
  rw [List.foldlM_cons, insert_of_taken ((hm b).2 hb) hk]
  rfl

end AclStore

/-! ## Validation -/

namespace Config

theorem checkRecords_append : ∀ (earlier l l' : List Acl), checkRecords earlier (l ++ l') =
    (do checkRecords earlier l; checkRecords (earlier ++ l) l')
  | earlier, [], l' => by rw [List.append_nil]; rfl
  | earlier, acl :: l, l' => by
    rw [List.cons_append, checkRecords, checkRecords]
    cases checkRecord earlier acl with
    | error e => rfl
    | ok u =>
      show checkRecords (earlier ++ [acl]) (l ++ l') = _
      rw [checkRecords_append, List.append_assoc]
      rfl

theorem checkRecord_of_taken {earlier : List Acl} {acl : Acl} (hg : acl.Grantable)
    (hr : acl.key ∈ earlier.map Acl.key) :
    checkRecord earlier acl = .error (.duplicateAcl acl.table acl.scope) := by
  have hn : checkNew earlier acl = .error (.duplicateAcl acl.table acl.scope) := by
    obtain ⟨b, hb, hk⟩ := List.mem_map.1 hr
    simp only [Acl.key, Prod.mk.injEq] at hk
    rw [checkNew, if_pos (List.any_eq_true.2 ⟨b, hb, by simp [hk]⟩)]
  rw [checkRecord, checkTable_eq_ok.2 hg.table, checkScope_eq_ok.2 ⟨hg.notEmpty, hg.owned, hg.named⟩]
  exact hn

/-- **Validation refuses the first repeat**, if the records before it can be granted. -/
theorem checkRecords_of_firstRepeat {l : List Acl} {acl : Acl} (hg : ∀ a ∈ l, a.Grantable)
    (h : FirstRepeat l acl) : checkRecords [] l = .error (.duplicateAcl acl.table acl.scope) := by
  obtain ⟨before, after, rfl, hn, hr⟩ := h
  have hb : checkRecords [] before = .ok () :=
    checkRecords_eq_ok.2 ⟨fun a ha => hg a (List.mem_append_left _ ha), hn, fun _ _ _ hm => nomatch hm⟩
  rw [checkRecords_append, hb]
  show checkRecords before (acl :: after) = _
  rw [checkRecords, checkRecord_of_taken (hg acl (by simp)) hr]
  rfl

theorem validate_of_firstRepeat {c : Config} {acl : Acl} (hl : isLogLevel c.logging.level = true)
    (hg : ∀ a ∈ c.acls, a.Grantable) (h : FirstRepeat c.acls acl) :
    validate c = .error (.duplicateAcl acl.table acl.scope) := by
  rw [validate, checkLevel_eq_ok.2 hl]
  exact checkRecords_of_firstRepeat hg h

theorem store_of_validate {c : Config} (h : validate c = .ok ()) :
    ∃ store, c.store = .ok store ∧ store.size = c.acls.length ∧ store.records.Perm c.acls := by
  obtain ⟨-, -, hn⟩ := validate_eq_ok_iff.1 h
  exact AclStore.ofRecords_perm hn

/-- **Validation and the store agree.**  A valid configuration makes a store of as many records, which lists the same
ones.  Where the level is known and every record can be granted, the two look at nothing but the keys: both succeed, or
both name the table and scope of the first record that repeats those of an earlier one. -/
theorem validate_agrees_store (c : Config) :
    (validate c = .ok () →
      ∃ store, c.store = .ok store ∧ store.size = c.acls.length ∧ store.records.Perm c.acls) ∧
    (isLogLevel c.logging.level = true → (∀ a ∈ c.acls, a.Grantable) →
      (validate c = .ok () ∧ ∃ store, c.store = .ok store) ∨
      ∃ acl, FirstRepeat c.acls acl ∧ validate c = .error (.duplicateAcl acl.table acl.scope) ∧
        c.store = .error (.duplicateAcl acl.table acl.scope)) := by
  refine ⟨store_of_validate, fun hl hg => ?_⟩
  rcases nodup_or_firstRepeat c.acls with hn | ⟨acl, hr⟩
  · have hv : validate c = .ok () := validate_eq_ok_iff.2 ⟨hl, hg, hn⟩
    obtain ⟨store, hs, -⟩ := store_of_validate hv
    exact .inl ⟨hv, store, hs⟩
  · exact .inr ⟨acl, hr, validate_of_firstRepeat hl hg hr, AclStore.ofRecords_of_firstRepeat hr⟩

/-- Records of which two repeat an earlier one: the fourth is for the staff again, and the last for everyone. -/
def repeatedVisits : List Acl :=
  [⟨⟨"visits"⟩, .default, .filteredReader⟩, ⟨⟨"visits"⟩, .group "staff", .owner⟩, ⟨⟨"trips"⟩, .default, .owner⟩,
    ⟨⟨"visits"⟩, .group "staff", .none⟩, ⟨⟨"visits"⟩, .default, .owner⟩]

/-- The first three of these make a store of three, and of all five both name the staff. -/
theorem validate_agrees_store_of_visits :
    validate ⟨{}, repeatedVisits.take 3⟩ = .ok () ∧
    (∃ store, Config.store ⟨{}, repeatedVisits.take 3⟩ = .ok store ∧ store.size = 3 ∧
      store.records.Perm (repeatedVisits.take 3)) ∧
    isLogLevel "info" = true ∧ (∀ a ∈ repeatedVisits, a.Grantable) ∧
    validate ⟨{}, repeatedVisits⟩ = .error (.duplicateAcl ⟨"visits"⟩ (.group "staff")) ∧
    Config.store ⟨{}, repeatedVisits⟩ = .error (.duplicateAcl ⟨"visits"⟩ (.group "staff")) := by
  have hv : validate ⟨{}, repeatedVisits.take 3⟩ = .ok () := by decide
  have hl : isLogLevel "info" = true := by decide
  have hg : ∀ a ∈ repeatedVisits, a.Grantable := by decide
  obtain ⟨hvalid, -⟩ := validate_agrees_store ⟨{}, repeatedVisits.take 3⟩
  obtain ⟨-, hagree⟩ := validate_agrees_store ⟨{}, repeatedVisits⟩
  have hs : Config.store ⟨{}, repeatedVisits⟩ = .error (.duplicateAcl ⟨"visits"⟩ (.group "staff")) := by decide
  refine ⟨hv, hvalid hv, hl, hg, ?_, hs⟩
  rcases hagree hl hg with ⟨-, store, hok⟩ | ⟨acl, -, hev, hes⟩
  · rw [hs] at hok
    cases hok
  · have he : ConfigError.duplicateAcl acl.table acl.scope = _ := Except.error.inj (hes.symm.trans hs)
    rw [hev, he]

end Config
end TableAccess
