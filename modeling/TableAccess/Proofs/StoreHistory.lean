import Mathlib
import TableAccess.Proofs.Repeats
/-!
# What a history leaves in a store

A store comes from a list of records in which no key repeats, and from the grants after it.  It then holds, for each key
that was ever given, the record that was given last (`AclStore.Holds`).  A grant keeps this (`AclStore.Holds.grant`), so a
history of any length does (`AclStore.Holds.grants`), and what the store answers and how many records it has follow
(`AclStore.history_map`).
-/
namespace TableAccess

/-- **The last record for its key**: it was given, and no record after it has its key. -/
def LastGiven (history : List Acl) (acl : Acl) : Prop :=
  ∃ before after, history = before ++ acl :: after ∧ ∀ b ∈ after, b.key ≠ acl.key

theorem LastGiven.mem {history : List Acl} {acl : Acl} (h : LastGiven history acl) : acl ∈ history := by
  obtain ⟨before, after, rfl, -⟩ := h
  simp

/-- **One record more**: it is the last one for its key, and the last ones for other keys stay so. -/
theorem lastGiven_concat {history : List Acl} {a acl : Acl} :
    LastGiven (history ++ [a]) acl ↔ acl = a ∨ (LastGiven history acl ∧ acl.key ≠ a.key) := by
  constructor
  · rintro ⟨before, after, hs, hk⟩
    rcases List.eq_nil_or_concat after with rfl | ⟨middle, last, rfl⟩
    · obtain ⟨-, ha⟩ := List.append_inj' hs rfl
      exact .inl (List.cons.inj ha).1.symm
    · rw [List.concat_eq_append, ← List.cons_append, ← List.append_assoc] at hs
      obtain ⟨rfl, ha⟩ := List.append_inj' hs rfl
      obtain rfl : a = last := (List.cons.inj ha).1
      exact .inr ⟨⟨before, middle, rfl, fun b hb => hk b (by simp [hb])⟩, (hk a (by simp)).symm⟩
  · rintro (rfl | ⟨⟨before, after, rfl, hk⟩, hn⟩)
    · exact ⟨history, [], rfl, fun _ hb => nomatch hb⟩
    · refine ⟨before, after ++ [a], by simp, fun b hb => ?_⟩
      rcases List.mem_append.1 hb with hb | hb
      · exact hk b hb
      · rw [List.mem_singleton.1 hb]
        exact hn.symm

/-- Every key that is given is given a last time. -/
theorem exists_lastGiven {history : List Acl} {a : Acl} (h : a ∈ history) :
    ∃ acl, LastGiven history acl ∧ acl.key = a.key := by
  induction history using List.reverseRecOn with
  | nil => cases h
  | append_singleton history last ih =>
    by_cases hk : last.key = a.key
    · exact ⟨last, lastGiven_concat.2 (.inl rfl), hk⟩
    · have ha : a ∈ history := by
        rcases List.mem_append.1 h with ha | ha
        · exact ha
        · exact absurd (congrArg Acl.key (List.mem_singleton.1 ha).symm) hk
      obtain ⟨acl, hl, he⟩ := ih ha
      exact ⟨acl, lastGiven_concat.2 (.inr ⟨hl, fun hn => hk (hn.symm.trans he)⟩), he⟩

/-- Where no key repeats, every record is the last one for its key. -/
theorem lastGiven_of_nodup {l : List Acl} {acl : Acl} (h : (l.map Acl.key).Nodup) : LastGiven l acl ↔ acl ∈ l := by
  refine ⟨LastGiven.mem, fun hm => ?_⟩
  obtain ⟨before, after, rfl⟩ := List.append_of_mem hm
  refine ⟨before, after, rfl, fun b hb he => ?_⟩
  rw [List.map_append, List.map_cons] at h
  obtain ⟨hn, -⟩ := List.nodup_cons.1 h.of_append_right
  exact hn (he ▸ List.mem_map_of_mem hb)

namespace AclStore

/-- The store after grants, from the first to the last. -/
def grants (store : AclStore) (acls : List Acl) : AclStore := acls.foldl grant store

/-- **A store holds what a history left**: for each key the record that was given last, and nothing else. -/
def Holds (store : AclStore) (history : List Acl) : Prop := ∀ acl, acl ∈ store.records ↔ LastGiven history acl

variable {store : AclStore} {history : List Acl}

theorem Holds.grant (h : store.Holds history) (acl : Acl) : (store.grant acl).Holds (history ++ [acl]) := by
  intro c
  rw [mem_grant, lastGiven_concat, h c]

/-- **A store holds what a history left, whatever the grants.** -/
theorem Holds.grants : ∀ {store : AclStore} {history : List Acl}, store.Holds history → ∀ acls : List Acl,
    (store.grants acls).Holds (history ++ acls)
  | store, history, h, [] => by
    rw [List.append_nil]
    exact h
  | store, history, h, acl :: acls => by
    have hs := (h.grant acl).grants acls
    rw [List.append_assoc] at hs
    exact hs

/-- A store that is made holds the records that it is made of. -/
theorem holds_of_ofRecords {l : List Acl} (hn : (l.map Acl.key).Nodup) (h : ofRecords l = .ok store) :
    store.Holds l := by
  obtain ⟨made, hm, hr⟩ := ofRecords_of_nodup hn
  obtain rfl : made = store := Except.ok.inj (hm.symm.trans h)
  intro acl
  rw [hr, lastGiven_of_nodup hn]

/-- **A list makes a store exactly if no key repeats in it.** -/
theorem ofRecords_isOk_iff {l : List Acl} : (∃ store, ofRecords l = .ok store) ↔ (l.map Acl.key).Nodup := by
  constructor
  · rintro ⟨store, hs⟩
    rcases nodup_or_firstRepeat l with hn | ⟨acl, hr⟩
    · exact hn
    · rw [ofRecords_of_firstRepeat hr] at hs
      cases hs
  · intro hn
    obtain ⟨store, hs, -⟩ := ofRecords_of_nodup hn
    exact ⟨store, hs⟩

/-- A list that makes no store has a first repeat, and that is the answer. -/
theorem ofRecords_eq_error_iff {l : List Acl} {e : ConfigError} :
    ofRecords l = .error e ↔ ∃ acl, FirstRepeat l acl ∧ e = .duplicateAcl acl.table acl.scope := by
  constructor
  · intro h
    rcases nodup_or_firstRepeat l with hn | ⟨acl, hr⟩
    · obtain ⟨store, hs⟩ := ofRecords_isOk_iff.2 hn
      rw [hs] at h
      cases h
    · rw [ofRecords_of_firstRepeat hr] at h
      exact ⟨acl, hr, (Except.error.inj h).symm⟩
  · rintro ⟨acl, hr, rfl⟩
    exact ofRecords_of_firstRepeat hr

/-! ## What it answers -/

variable {table : TableId} {scope : Scope}

theorem Holds.get?_eq_some_iff (h : store.Holds history) {acl : Acl} :
    store.get? table scope = some acl ↔ acl.key = (table, scope) ∧ LastGiven history acl := by
  rw [AclStore.get?_eq_some_iff, h acl, and_comm]

theorem Holds.get?_eq_none_iff (h : store.Holds history) :
    store.get? table scope = none ↔ ∀ a ∈ history, a.key ≠ (table, scope) := by
  rw [AclStore.get?_eq_none_iff]
  constructor
  · intro hn a ha he
    obtain ⟨acl, hl, hk⟩ := exists_lastGiven ha
    exact hn acl ((h acl).2 hl) (hk.trans he)
  · intro hn a ha
    exact hn a ((h a).1 ha).mem

/-- **A store has one record for each key that was given.** -/
theorem Holds.size_eq (h : store.Holds history) : store.size = (history.map Acl.key).toFinset.card := by
  have hk : (store.records.map Acl.key).toFinset = (history.map Acl.key).toFinset := by
    ext key
    simp only [List.mem_toFinset, List.mem_map]
    constructor
    · rintro ⟨acl, ha, rfl⟩
      exact ⟨acl, ((h acl).1 ha).mem, rfl⟩
    · rintro ⟨a, ha, rfl⟩
      obtain ⟨acl, hl, hk⟩ := exists_lastGiven ha
      exact ⟨acl, (h acl).2 hl, hk⟩
  rw [← hk, List.toFinset_card_of_nodup store.nodup_keys, List.length_map]
  rfl

theorem Holds.isEmpty_iff (h : store.Holds history) : store.isEmpty = true ↔ history = [] := by
  rw [isEmpty, List.isEmpty_iff]
  constructor
  · intro hr
    refine List.eq_nil_iff_forall_not_mem.2 fun a ha => ?_
    obtain ⟨acl, hl, -⟩ := exists_lastGiven ha
    have hm := (h acl).2 hl
    rw [hr] at hm
    cases hm
  · rintro rfl
    exact List.eq_nil_iff_forall_not_mem.2 fun a ha => nomatch ((h a).1 ha).mem

/-- **A store is a finite map, whatever its history.**  A list makes a store exactly if no key repeats in it, and otherwise
the answer names the key of the first record that repeats one.  A store that was made, and has had any grants since,
answers for each key with the record that was given last for it, among those that it was made of and those that were
granted, and with none where the key was never given.  It has as many records as keys were given, and is empty where none
was.  One grant more changes the answer for no other key. -/
theorem history_map (made granted : List Acl) :
    ((∃ store, ofRecords made = .ok store) ↔ (made.map Acl.key).Nodup) ∧
    (∀ e, ofRecords made = .error e ↔ ∃ acl, FirstRepeat made acl ∧ e = .duplicateAcl acl.table acl.scope) ∧
    ∀ store, ofRecords made = .ok store →
      (∀ table scope, (store.grants granted).get? table scope = none ↔
        ∀ a ∈ made ++ granted, a.key ≠ (table, scope)) ∧
      (∀ table scope acl, (store.grants granted).get? table scope = some acl ↔
        acl.key = (table, scope) ∧ LastGiven (made ++ granted) acl) ∧
      (store.grants granted).size = ((made ++ granted).map Acl.key).toFinset.card ∧
      ((store.grants granted).isEmpty = true ↔ made ++ granted = []) ∧
      ∀ acl table scope, acl.key ≠ (table, scope) →
        (store.grants (granted ++ [acl])).get? table scope = (store.grants granted).get? table scope := by
  refine ⟨ofRecords_isOk_iff, fun e => ofRecords_eq_error_iff, fun store hs => ?_⟩
  have hn : (made.map Acl.key).Nodup := ofRecords_isOk_iff.1 ⟨store, hs⟩
  have h : (store.grants granted).Holds (made ++ granted) := (holds_of_ofRecords hn hs).grants granted
  refine ⟨fun _ _ => h.get?_eq_none_iff, fun _ _ _ => h.get?_eq_some_iff, h.size_eq, h.isEmpty_iff, ?_⟩
  intro acl table scope hk
  rw [grants, List.foldl_append]
  show ((store.grants granted).grant acl).get? table scope = _
  rw [get?_grant, if_neg hk]

end AclStore
end TableAccess
