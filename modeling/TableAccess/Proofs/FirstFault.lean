import Mathlib
import TableAccess.Proofs.Repeats
/-!
# The first fault

Records break a rule together: one of them cannot be granted, or one repeats the table and scope of another.  The first
record with which they do so is the one that validation complains of (`Config.checkRecords_fault`), and what is said of
it rests on that record and its place alone (`Acl.fault`).  The records after it are not looked at.
-/
namespace TableAccess

/-- **Records that can stand together**: each can be granted, and no two are for the same table and scope. -/
def ValidRecords (l : List Acl) : Prop := (∀ a ∈ l, a.Grantable) ∧ (l.map Acl.key).Nodup

instance (l : List Acl) : Decidable (ValidRecords l) :=
  inferInstanceAs (Decidable ((∀ a ∈ l, a.Grantable) ∧ (l.map Acl.key).Nodup))

/-- **The fault of a record** with which the records up to it break a rule: that it names no table, else that its scope
cannot be granted, else that its key is taken. -/
def Acl.fault (index : Nat) (a : Acl) : ConfigError :=
  if a.table = ⟨""⟩ then .missing (Config.recordName index ++ ".table_id")
  else if a.scope = .empty then .invalid
    (Config.recordName index ++ ": the EMPTY scope cannot be granted a role on table '" ++ a.table.text ++ "'")
  else if a.scope = .user none ∨ a.scope = .group "" then .missing (Config.recordName index ++ ".scope.value")
  else .duplicateAcl a.table a.scope

theorem validRecords_concat {l : List Acl} {a : Acl} :
    ValidRecords (l ++ [a]) ↔ ValidRecords l ∧ a.Grantable ∧ ∀ b ∈ l, b.key ≠ a.key := by
  unfold ValidRecords
  have hk : ((l ++ [a]).map Acl.key).Nodup ↔ (∀ b ∈ l, b.key ≠ a.key) ∧ (l.map Acl.key).Nodup := by
    rw [List.map_append, List.map_singleton, ← List.concat_eq_append, List.nodup_concat, List.mem_map]
    simp only [not_exists, not_and, ne_eq]
  rw [hk, List.forall_mem_append, List.forall_mem_singleton]
  tauto

theorem take_succ_of_getElem? {l : List Acl} {i : Nat} {a : Acl} (h : l[i]? = some a) :
    l.take (i + 1) = l.take i ++ [a] := by
  rw [List.take_add_one, h]
  rfl

/-- **Where records first break a rule**: at a record, and the records before it break none. -/
theorem exists_first_fault {l : List Acl} (h : ¬ ValidRecords l) :
    ∃ i a, IsLeast {i | ¬ ValidRecords (l.take (i + 1))} i ∧ l[i]? = some a ∧ ValidRecords (l.take i) := by
  have hex : ∃ i, ¬ ValidRecords (l.take (i + 1)) := by
    refine ⟨l.length, ?_⟩
    rwa [List.take_of_length_le (Nat.le_succ _)]
  have hleast : IsLeast {i | ¬ ValidRecords (l.take (i + 1))} (Nat.find hex) := Nat.isLeast_find hex
  generalize Nat.find hex = i at hleast
  have hbefore : ValidRecords (l.take i) := by
    cases i with
    | zero => exact ⟨fun _ hm => (nomatch hm), List.nodup_nil⟩
    | succ i =>
      have hlt : i ∉ {i | ¬ ValidRecords (l.take (i + 1))} := fun hm => absurd (hleast.2 hm) (Nat.not_succ_le_self i)
      exact not_not.1 hlt
  have hi : i < l.length := by
    refine not_le.1 fun hle => hleast.1 ?_
    rw [List.take_of_length_le (hle.trans (Nat.le_succ i))]
    rwa [List.take_of_length_le hle] at hbefore
  exact ⟨i, l[i], hleast, List.getElem?_eq_getElem hi, hbefore⟩

namespace Config

theorem isLogLevel_iff {level : String} : isLogLevel level = true ↔ Text.lower level ∈ logLevels := List.contains_iff_mem

/-- **A record that breaks a rule is refused for its fault**, when those before it break none. -/
theorem checkRecord_fault {earlier : List Acl} {a : Acl} (h : ¬ (a.Grantable ∧ ∀ b ∈ earlier, b.key ≠ a.key)) :
    checkRecord earlier a = .error (a.fault earlier.length) := by
  obtain ⟨⟨table⟩, scope, role⟩ := a
  by_cases ht : table = ""
  · simp [checkRecord, checkTable, TableId.isEmpty, Acl.fault, ht, bind, Except.bind]
  have hc : checkTable earlier.length ⟨table⟩ = .ok () := checkTable_eq_ok.2 (by simpa [TableId.isEmpty] using ht)
  by_cases hs : scope ≠ .empty ∧ scope ≠ .user none ∧ scope ≠ .group ""
  -- the table and the scope are as they must be, so the key is taken
  · obtain ⟨he, ho, hn⟩ := hs
    have hg : Acl.Grantable ⟨⟨table⟩, scope, role⟩ := ⟨checkTable_eq_ok.1 hc, he, ho, hn⟩
    have hk : Acl.key ⟨⟨table⟩, scope, role⟩ ∈ earlier.map Acl.key := by
      refine Classical.byContradiction fun hn => h ⟨hg, fun b hb he => hn ?_⟩
      exact List.mem_map.2 ⟨b, hb, he⟩
    rw [checkRecord_of_taken hg hk]
    simp [Acl.fault, ht, he, ho, hn]
  · rw [checkRecord, hc]
    show (checkScope earlier.length ⟨table⟩ scope >>= fun _ => checkNew earlier ⟨⟨table⟩, scope, role⟩) = _
    rcases scope with _ | (_ | id) | name | _
    · simp at hs
    · simp [checkScope, Acl.fault, ht, bind, Except.bind]
    · simp at hs
    · obtain rfl : name = "" := by simpa using hs
      simp [checkScope, Acl.fault, ht, bind, Except.bind]
    · simp [checkScope, Acl.fault, ht, bind, Except.bind]

/-- **Records are refused for the first fault**, whatever comes after it. -/
theorem checkRecords_fault {before : List Acl} {a : Acl} (hb : ValidRecords before) (ha : ¬ ValidRecords (before ++ [a]))
    (after : List Acl) : checkRecords [] (before ++ a :: after) = .error (a.fault before.length) := by
  have hv : checkRecords [] before = .ok () := checkRecords_eq_ok.2 ⟨hb.1, hb.2, fun _ _ _ hm => nomatch hm⟩
  have hf : checkRecord before a = .error (a.fault before.length) :=
    checkRecord_fault fun hk => ha (validRecords_concat.2 ⟨hb, hk⟩)
  rw [checkRecords_append, hv]
  show checkRecords before (a :: after) = _
  rw [checkRecords, hf]
  rfl

theorem checkLevel_eq_error {level : String} (h : Text.lower level ∉ logLevels) :
    checkLevel level = .error
      (.invalid ("logging.level must be one of trace, debug, info, warn, error, got: " ++ level)) := by
  rw [checkLevel, if_neg fun hl => h (isLogLevel_iff.1 hl)]
  rfl

/-- **Under a known level the first fault of the records is the error**, whatever records come after it. -/
theorem validate_first_fault {c : Config} (hl : Text.lower c.logging.level ∈ logLevels) (hn : ¬ ValidRecords c.acls) :
    ∃ i a, IsLeast {i | ¬ ValidRecords (c.acls.take (i + 1))} i ∧ c.acls[i]? = some a ∧ ValidRecords (c.acls.take i) ∧
      ∀ after, validate ⟨c.logging, c.acls.take (i + 1) ++ after⟩ = .error (a.fault i) := by
  obtain ⟨i, a, hleast, ha, hb⟩ := exists_first_fault hn
  refine ⟨i, a, hleast, ha, hb, fun after => ?_⟩
  have htake : c.acls.take (i + 1) = c.acls.take i ++ [a] := take_succ_of_getElem? ha
  have hlen : (c.acls.take i).length = i := by
    obtain ⟨hi, -⟩ := List.getElem?_eq_some_iff.1 ha
    exact List.length_take_of_le hi.le
  have hbad : ¬ ValidRecords (c.acls.take i ++ [a]) := htake ▸ hleast.1
  have hr := checkRecords_fault hb hbad after
  rw [hlen] at hr
  rw [validate, checkLevel_eq_ok.2 (isLogLevel_iff.2 hl), htake, List.append_assoc]
  exact hr

/-- **Where every scope can be granted** a refused record names no table, or has the key of one before it. -/
theorem refused_of_scopes {c : Config} {e : ConfigError} (hl : Text.lower c.logging.level ∈ logLevels)
    (hs : ∀ a ∈ c.acls, a.scope ≠ .empty ∧ a.scope ≠ .user none ∧ a.scope ≠ .group "") (he : validate c = .error e) :
    ∃ (i : Nat) (a : Acl), c.acls[i]? = some a ∧
      (a.table = ⟨""⟩ ∧ e = .missing (recordName i ++ ".table_id") ∨
        e = .duplicateAcl a.table a.scope ∧ ∃ b ∈ c.acls.take i, b.key = a.key) := by
  have hn : ¬ ValidRecords c.acls := fun hv => by
    rw [validate_eq_ok_iff.2 ⟨isLogLevel_iff.2 hl, hv⟩] at he
    cases he
  obtain ⟨i, a, hleast, ha, hb, hfault⟩ := validate_first_fault hl hn
  have hall := hfault (c.acls.drop (i + 1))
  rw [List.take_append_drop] at hall
  obtain rfl : a.fault i = e := Except.error.inj (hall.symm.trans he)
  obtain ⟨hempty, howned, hnamed⟩ := hs a (List.mem_of_getElem? ha)
  refine ⟨i, a, ha, ?_⟩
  by_cases ht : a.table = ⟨""⟩
  · exact .inl ⟨ht, by rw [Acl.fault, if_pos ht]⟩
  · refine .inr ⟨by simp [Acl.fault, ht, hempty, howned, hnamed], Classical.byContradiction fun hnone => hleast.1 ?_⟩
    have hg : a.Grantable := by
      refine ⟨?_, hempty, howned, hnamed⟩
      rw [TableId.isEmpty, String.isEmpty_eq_false_iff]
      exact fun he => ht (congrArg TableId.mk he)
    show ValidRecords (c.acls.take (i + 1))
    rw [take_succ_of_getElem? ha]
    exact validRecords_concat.2 ⟨hb, hg, fun b hb he => hnone ⟨b, hb, he⟩⟩

/-- **The verdict of validation, and its first error.**  A configuration is valid exactly if its level is known, the
case of letters aside, and its records can stand together.  An unknown level is the error whatever the records are.
Under a known level it is the fault of the first record with which the records break a rule; other records after it
change nothing. -/
theorem validate_verdict (c : Config) :
    (validate c = .ok () ↔
      Text.lower c.logging.level ∈ ["trace", "debug", "info", "warn", "error"] ∧ ValidRecords c.acls) ∧
    (Text.lower c.logging.level ∉ ["trace", "debug", "info", "warn", "error"] → ∀ acls,
      validate ⟨c.logging, acls⟩ = .error (.invalid
        ("logging.level must be one of trace, debug, info, warn, error, got: " ++ c.logging.level))) ∧
    (Text.lower c.logging.level ∈ ["trace", "debug", "info", "warn", "error"] → ¬ ValidRecords c.acls →
      ∃ i a, IsLeast {i | ¬ ValidRecords (c.acls.take (i + 1))} i ∧ c.acls[i]? = some a ∧
        validate c = .error (a.fault i) ∧
        ∀ after, validate ⟨c.logging, c.acls.take (i + 1) ++ after⟩ = .error (a.fault i)) := by
  refine ⟨?_, fun hl acls => ?_, fun hl hn => ?_⟩
  · rw [validate_eq_ok_iff, isLogLevel_iff]
    rfl
  · rw [validate, checkLevel_eq_error hl]
    rfl
  · obtain ⟨i, a, hleast, ha, -, hfault⟩ := validate_first_fault hl hn
    have hall := hfault (c.acls.drop (i + 1))
    rw [List.take_append_drop] at hall
    exact ⟨i, a, hleast, ha, hall, hfault⟩

/-- Records of which all but the first are at fault: one is for no user, one names no table and is for nobody, and one
repeats the first. -/
def faultyVisits : List Acl :=
  [⟨⟨"visits"⟩, .default, .owner⟩, ⟨⟨"trips"⟩, .user none, .owner⟩, ⟨⟨""⟩, .empty, .none⟩,
    ⟨⟨"visits"⟩, .default, .none⟩]

/-- Under a known level the second record is complained of, however the list goes on; under an unknown one the level
is. -/
theorem validate_verdict_of_visits :
    Text.lower "Warn" ∈ ["trace", "debug", "info", "warn", "error"] ∧ ¬ ValidRecords faultyVisits ∧
    validate ⟨⟨"Warn", .pretty⟩, faultyVisits⟩ = .error (.missing "acls[1].scope.value") ∧
    validate ⟨⟨"Warn", .pretty⟩, faultyVisits.take 2 ++ faultyVisits⟩ = .error (.missing "acls[1].scope.value") ∧
    Text.lower "loud" ∉ ["trace", "debug", "info", "warn", "error"] ∧
    validate ⟨⟨"loud", .pretty⟩, faultyVisits⟩ = .error
      (.invalid "logging.level must be one of trace, debug, info, warn, error, got: loud") := by
  have hk : Text.lower "Warn" ∈ ["trace", "debug", "info", "warn", "error"] := by decide
  have hu : Text.lower "loud" ∉ ["trace", "debug", "info", "warn", "error"] := by decide
  have hn : ¬ ValidRecords faultyVisits := by decide
  obtain ⟨-, -, hfault⟩ := validate_verdict ⟨⟨"Warn", .pretty⟩, faultyVisits⟩
  obtain ⟨-, hlevel, -⟩ := validate_verdict ⟨⟨"loud", .pretty⟩, faultyVisits⟩
  obtain ⟨i, a, hleast, ha, hv, hafter⟩ := hfault hk hn
  have hi : i = 1 := by
    have h1 : i ≤ 1 := hleast.2 (show ¬ ValidRecords (faultyVisits.take 2) by decide)
    have h0 : i ≠ 0 := fun h0 => hleast.1 (h0 ▸ show ValidRecords (faultyVisits.take 1) by decide)
    omega
  subst hi
  obtain rfl : a = ⟨⟨"trips"⟩, .user none, .owner⟩ := (Option.some.inj ha).symm
  exact ⟨hk, hn, hv, hafter faultyVisits, hu, hlevel hu faultyVisits⟩

end Config
end TableAccess
