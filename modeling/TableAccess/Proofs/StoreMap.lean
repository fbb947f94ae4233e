import TableAccess.Store
/-!
# A store as a map

A store has at most one record for a table and a scope, so the records it holds and the answers it gives are the same
thing (`AclStore.get?_eq_some_iff`).  A grant changes the record of its own key only (`AclStore.mem_grant`), and a
list in which no key repeats makes a store of exactly its records (`AclStore.ofRecords_of_nodup`).
-/
namespace TableAccess

theorem Acl.eq_of_key_role {a b : Acl} (hk : a.key = b.key) (hr : a.role = b.role) : a = b := by
  simp only [key, Prod.mk.injEq] at hk
  cases a
  cases b
  simp_all

theorem key_ne_of_pairwise {b : Acl} {rest : List Acl} (h : (b :: rest).Pairwise Acl.Precedes) :
    ∀ c ∈ rest, c.key ≠ b.key :=
  fun c hc => ((List.pairwise_cons.1 h).1 c hc).key_ne.symm

theorem eq_of_key_eq : ∀ {l : List Acl}, l.Pairwise Acl.Precedes → ∀ a ∈ l, ∀ b ∈ l, a.key = b.key → a = b
  | [], _, _, ha, _, _, _ => nomatch ha
  | c :: rest, h, a, ha, b, hb, hk => by
    have hc := key_ne_of_pairwise h
    rcases List.mem_cons.1 ha with rfl | ha' <;> rcases List.mem_cons.1 hb with rfl | hb'
    · rfl
    · exact absurd hk.symm (hc b hb')
    · exact absurd hk (hc a ha')
    · exact eq_of_key_eq h.of_cons a ha' b hb' hk

/-- **A record that is added stands beside the records of all other keys.** -/
theorem mem_placeRecord {acl c : Acl} : ∀ {l : List Acl}, l.Pairwise Acl.Precedes →
    (c ∈ placeRecord acl l ↔ c = acl ∨ (c ∈ l ∧ c.key ≠ acl.key))
  | [], _ => by simp [placeRecord]
  | b :: rest, h => by
    have hb := key_ne_of_pairwise h
    unfold placeRecord
    split
    · rename_i hk
      rw [List.mem_cons, List.mem_cons]
      refine or_congr_right ⟨fun hc => ⟨.inr hc, hk ▸ hb c hc⟩, ?_⟩
      rintro ⟨rfl | hc, hn⟩
      · exact absurd hk.symm hn
      · exact hc
    · rename_i hk
      split
      · rename_i hp
        -- every record from here on comes after the new one, so none has its key
        have hrest : ∀ c ∈ b :: rest, c.key ≠ acl.key := by
          intro c hc
          rcases List.mem_cons.1 hc with rfl | hc
          · exact hp.key_ne.symm
          · exact (hp.trans ((List.pairwise_cons.1 h).1 c hc)).key_ne.symm
        rw [List.mem_cons]
        exact or_congr_right ⟨fun hc => ⟨hc, hrest c hc⟩, fun hc => hc.1⟩
      · rw [List.mem_cons, mem_placeRecord h.of_cons, List.mem_cons]
        constructor
        · rintro (rfl | rfl | ⟨hc, hn⟩)
          · exact .inr ⟨.inl rfl, fun he => hk he.symm⟩
          · exact .inl rfl
          · exact .inr ⟨.inr hc, hn⟩
        · rintro (rfl | ⟨rfl | hc, hn⟩)
          · exact .inr (.inl rfl)
          · exact .inl rfl
          · exact .inr (.inr ⟨hc, hn⟩)

namespace AclStore

variable {store : AclStore} {acl : Acl} {table : TableId} {scope : Scope}

/-- **A store answers with the records it holds.** -/
theorem get?_eq_some_iff : store.get? table scope = some acl ↔ acl ∈ store.records ∧ acl.key = (table, scope) := by
  unfold get?
  constructor
  · intro h
    exact ⟨List.mem_of_find?_eq_some h, by simpa using List.find?_some h⟩
  · rintro ⟨hm, hk⟩
    cases h : store.records.find? fun acl => acl.key = (table, scope) with
    | none => exact absurd (decide_eq_true hk) (List.find?_eq_none.1 h acl hm)
    | some found =>
      have hf : found.key = (table, scope) := by simpa using List.find?_some h
      rw [eq_of_key_eq store.ordered found (List.mem_of_find?_eq_some h) acl hm (hf.trans hk.symm)]

theorem get?_eq_none_iff : store.get? table scope = none ↔ ∀ a ∈ store.records, a.key ≠ (table, scope) := by
  unfold get?
  rw [List.find?_eq_none]
  simp only [decide_eq_true_iff, ne_eq]

/-- **A grant is kept, and so is every record of another key.** -/
theorem mem_grant {c : Acl} : c ∈ (store.grant acl).records ↔ c = acl ∨ (c ∈ store.records ∧ c.key ≠ acl.key) :=
  mem_placeRecord store.ordered

/-- **A grant changes the answer for its own key only.** -/
theorem get?_grant : (store.grant acl).get? table scope =
    if acl.key = (table, scope) then some acl else store.get? table scope := by
  ext c
  rw [get?_eq_some_iff, mem_grant]
  split
  · rename_i hk
    rw [Option.some.injEq]
    constructor
    · rintro ⟨rfl | ⟨-, hn⟩, hc⟩
      · rfl
      · exact absurd (hc.trans hk.symm) hn
    · rintro rfl
      exact ⟨.inl rfl, hk⟩
  · rename_i hk
    rw [get?_eq_some_iff]
    constructor
    · rintro ⟨rfl | ⟨hm, -⟩, hc⟩
      · exact absurd hc hk
      · exact ⟨hm, hc⟩
    · rintro ⟨hm, hc⟩
      exact ⟨.inr ⟨hm, fun he => hk (he.symm.trans hc)⟩, hc⟩

/-- Stores that have the same role for a key have the same record for it. -/
theorem get?_eq_of_role_eq {store' : AclStore}
    (h : (store.get? table scope).map Acl.role = (store'.get? table scope).map Acl.role) :
    store.get? table scope = store'.get? table scope := by
  rcases hs : store.get? table scope with _ | a <;> rcases ht : store'.get? table scope with _ | b <;> rw [hs, ht] at h
  · cases h
  · cases h
  · have ha := (get?_eq_some_iff.1 hs).2
    have hb := (get?_eq_some_iff.1 ht).2
    rw [Acl.eq_of_key_role (ha.trans hb.symm) (Option.some.inj h)]

theorem insert_of_fresh (h : ∀ a ∈ store.records, a.key ≠ acl.key) : store.insert acl = .ok (store.grant acl) := by
  have hn : store.get? acl.table acl.scope = none := get?_eq_none_iff.2 h
  rw [insert, hn]

theorem foldlM_insert : ∀ (l : List Acl) (store : AclStore), (l.map Acl.key).Nodup →
    (∀ a ∈ l, ∀ b ∈ store.records, b.key ≠ a.key) →
      ∃ full, l.foldlM insert store = .ok full ∧ ∀ c, c ∈ full.records ↔ c ∈ store.records ∨ c ∈ l
  | [], store, _, _ => ⟨store, rfl, fun c => by simp⟩
  | a :: l, store, hl, hs => by
    obtain ⟨ha, hl⟩ := List.nodup_cons.1 hl
    have hfresh := hs a List.mem_cons_self
    have hrest : ∀ b ∈ l, ∀ c ∈ (store.grant a).records, c.key ≠ b.key := by
      intro b hb c hc
      rcases mem_grant.1 hc with rfl | ⟨hc, -⟩
      · exact fun he => ha (he ▸ List.mem_map_of_mem hb)
      · exact hs b (List.mem_cons_of_mem _ hb) c hc
    obtain ⟨full, hf, hm⟩ := foldlM_insert l (store.grant a) hl hrest
    refine ⟨full, ?_, fun c => ?_⟩
    · rw [List.foldlM_cons, insert_of_fresh hfresh]
      exact hf
    · have hk : (c ∈ store.records ∧ c.key ≠ a.key) ↔ c ∈ store.records := and_iff_left_of_imp (hfresh c)
      rw [hm, mem_grant, hk, or_comm (a := c = a), or_assoc, List.mem_cons]

/-- **A list in which no key repeats makes a store of its records.** -/
theorem ofRecords_of_nodup {l : List Acl} (h : (l.map Acl.key).Nodup) :
    ∃ store, ofRecords l = .ok store ∧ ∀ c, c ∈ store.records ↔ c ∈ l := by
  obtain ⟨store, hs, hm⟩ := foldlM_insert l empty h fun _ _ _ hb => nomatch hb
  exact ⟨store, hs, fun c => (hm c).trans (or_iff_right List.not_mem_nil)⟩

end AclStore
end TableAccess
