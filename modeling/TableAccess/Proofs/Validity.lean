import TableAccess.Config.Load
/-!
# What validation lets through

A configuration is valid exactly when its level is known, each of its records can be granted, and no two of them are
for the same table and scope (`Config.validate_eq_ok_iff`).  Whatever is read from a text or loaded from a host has
been validated.
-/
namespace TableAccess

/-- A record that can be granted: it names its table, and its scope is one that someone can take part in. -/
structure Acl.Grantable (a : Acl) : Prop where
  table : a.table.isEmpty = false
  notEmpty : a.scope ≠ .empty
  owned : a.scope ≠ .user none
  named : a.scope ≠ .group ""

instance (a : Acl) : Decidable a.Grantable :=
  decidable_of_iff (a.table.isEmpty = false ∧ a.scope ≠ .empty ∧ a.scope ≠ .user none ∧ a.scope ≠ .group "")
    ⟨fun ⟨ht, he, ho, hn⟩ => ⟨ht, he, ho, hn⟩, fun ⟨ht, he, ho, hn⟩ => ⟨ht, he, ho, hn⟩⟩

namespace Config

theorem checkTable_eq_ok {index : Nat} {table : TableId} : checkTable index table = .ok () ↔ table.isEmpty = false := by
  unfold checkTable
  cases table.isEmpty <;> simp

theorem checkScope_eq_ok {index : Nat} {table : TableId} {scope : Scope} :
    checkScope index table scope = .ok () ↔ scope ≠ .empty ∧ scope ≠ .user none ∧ scope ≠ .group "" := by
  rcases scope with _ | (_ | id) | name | _
  · simp [checkScope]
  · simp [checkScope]
  · simp [checkScope]
  · by_cases h : name = "" <;> simp [checkScope, h]
  · simp [checkScope]

theorem checkNew_eq_ok {earlier : List Acl} {acl : Acl} :
    checkNew earlier acl = .ok () ↔ ∀ a ∈ earlier, a.key ≠ acl.key := by
  have ha : (earlier.any fun a => a.table == acl.table && a.scope == acl.scope) = false ↔
      ∀ a ∈ earlier, a.key ≠ acl.key := by
    rw [List.any_eq_false]
    simp [Acl.key]
  unfold checkNew
  rw [← ha]
  cases earlier.any fun a => a.table == acl.table && a.scope == acl.scope <;> simp

theorem checkRecord_eq_ok {earlier : List Acl} {acl : Acl} :
    checkRecord earlier acl = .ok () ↔ acl.Grantable ∧ ∀ a ∈ earlier, a.key ≠ acl.key := by
  unfold checkRecord
  rw [andThen_eq_ok, andThen_eq_ok, checkTable_eq_ok, checkScope_eq_ok, checkNew_eq_ok]
  constructor
  · rintro ⟨ht, ⟨he, ho, hn⟩, hk⟩
    exact ⟨⟨ht, he, ho, hn⟩, hk⟩
  · rintro ⟨⟨ht, he, ho, hn⟩, hk⟩
    exact ⟨ht, ⟨he, ho, hn⟩, hk⟩

/-- **The records are let through when each can be granted and each key is new.** -/
theorem checkRecords_eq_ok : ∀ {l earlier : List Acl}, checkRecords earlier l = .ok () ↔
    (∀ a ∈ l, a.Grantable) ∧ (l.map Acl.key).Nodup ∧ ∀ a ∈ l, ∀ b ∈ earlier, b.key ≠ a.key
  | [], earlier => by simp [checkRecords]
  | acl :: rest, earlier => by
    unfold checkRecords
    rw [andThen_eq_ok, checkRecord_eq_ok, checkRecords_eq_ok, List.map_cons, List.nodup_cons]
    constructor
    · rintro ⟨⟨hg, hk⟩, hr, hn, he⟩
      refine ⟨fun a ha => ?_, ⟨fun hm => ?_, hn⟩, fun a ha b hb => ?_⟩
      · rcases List.mem_cons.1 ha with rfl | ha
        · exact hg
        · exact hr a ha
      · obtain ⟨b, hb, hs⟩ := List.mem_map.1 hm
        exact he b hb acl (List.mem_append_right _ (List.mem_singleton_self _)) hs.symm
      · rcases List.mem_cons.1 ha with rfl | ha
        · exact hk b hb
        · exact he a ha b (List.mem_append_left _ hb)
    · rintro ⟨hg, ⟨hm, hn⟩, he⟩
      refine ⟨⟨hg acl List.mem_cons_self, he acl List.mem_cons_self⟩,
        fun a ha => hg a (List.mem_cons_of_mem _ ha), hn, fun a ha b hb => ?_⟩
      rcases List.mem_append.1 hb with hb | hb
      · exact he a (List.mem_cons_of_mem _ ha) b hb
      · rw [List.mem_singleton.1 hb]
        exact fun hk => hm (hk ▸ List.mem_map_of_mem ha)

theorem checkLevel_eq_ok {level : String} : checkLevel level = .ok () ↔ isLogLevel level = true := by
  unfold checkLevel
  cases isLogLevel level <;> simp

/-- **The verdict of validation.** -/
theorem validate_eq_ok_iff {c : Config} : validate c = .ok () ↔
    isLogLevel c.logging.level = true ∧ (∀ a ∈ c.acls, a.Grantable) ∧ (c.acls.map Acl.key).Nodup := by
  unfold validate
  rw [andThen_eq_ok, checkLevel_eq_ok, checkRecords_eq_ok]
  refine and_congr_right fun _ => and_congr_right fun _ => and_iff_left fun a _ b hb => ?_
  cases hb

theorem ofDatum_eq_ok {d : Datum} {c : Config} :
    ofDatum d = .ok c ↔ Reading.lenient.config d = some c ∧ validate c = .ok () := by
  unfold ofDatum
  cases Reading.lenient.config d with
  | none => exact ⟨fun h => (nomatch h), fun h => (nomatch h.1)⟩
  | some read =>
    refine map_eq_ok.trans ⟨?_, ?_⟩
    · rintro ⟨u, hv, rfl⟩
      exact ⟨rfl, hv⟩
    · rintro ⟨h, hv⟩
      obtain rfl := Option.some.inj h
      exact ⟨(), hv, rfl⟩

/-- **A configuration that was read from a text is valid.** -/
theorem validate_of_ofText {text : String} {order : TableOrder} {c : Config} (h : ofText text order = .ok c) :
    validate c = .ok () := by
  obtain ⟨settings, -, h⟩ := bind_eq_ok.1 h
  exact (ofDatum_eq_ok.1 h).2

/-- **A configuration that was loaded is valid.** -/
theorem validate_of_load {host : Host} {path : Option String} {c : Config} (h : load host path = .ok c) :
    validate c = .ok () := by
  obtain ⟨file, -, h⟩ := bind_eq_ok.1 h
  obtain ⟨added, -, h⟩ := bind_eq_ok.1 h
  exact (ofDatum_eq_ok.1 h).2

end Config
end TableAccess
