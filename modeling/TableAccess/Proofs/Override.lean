import Mathlib
import TableAccess.Proofs.FirstFault
import TableAccess.Proofs.OneSetting
/-!
# The level and the tables from the environment

A variable that is a setting changes what the file says at one place and nowhere else, if the file writes what is around
that place in the usual way.  The level becomes what the variable says, and is judged in place of the file's
(`Config.load_level`).  The table of a record becomes the text that the variable stands for (`Config.load_table`), which
is not the variable as written where that can be taken for a number (`Config.load_table_ne_written`).
-/
namespace TableAccess
namespace Config

/-! ## The level -/

theorem logging_members {r : Reading} {x : Option Datum} {l : Logging} (h : Reading.withDefault r.logging {} x = some l)
    (hx : ∀ d ∈ x, IsTable d) : r.logging (.table (x.getD .nil).members) = some l := by
  cases x with
  | none => exact h
  | some d =>
    obtain ⟨members, rfl⟩ := hx d rfl
    exact h

theorem applySetting_level {d : Datum} {c : Config} {value : String} (hd : HasShaped "logging" IsTable d)
    (hc : Reading.lenient.config d = some c) (hs : Reading.Steady Reading.lenient.config d) :
    Reading.lenient.config (applySetting d ("logging.level", variableDatum value)) =
        some ⟨⟨settingText value, c.logging.format⟩, c.acls⟩ ∧
      Reading.Steady Reading.lenient.config (applySetting d ("logging.level", variableDatum value)) := by
  obtain ⟨members, rfl, hx⟩ := hd
  obtain ⟨l, hf, hl⟩ := Option.bind_eq_some_iff.1 (Reading.config_eq_some.1 hc).1
  rw [Reading.field_eq_memberOf? hf] at hx
  have he : applySetting (.table members) ("logging.level", variableDatum value) =
      .table (setMember "logging" (.table (setMember "level" (variableDatum value) (l.getD .nil).members)) members) := by
    rw [applySetting, address_level, merge_variableDatum, ← Reading.field_eq_memberOf? hf]
    rfl
  rw [he]
  refine ⟨Reading.config_logging hc (Reading.logging_level (logging_members hl hx) (text_variableDatum value)),
    Reading.config_steady fun x ha => ?_⟩
  rw [Reading.field_setMember_of_ne (by decide)] at ha
  exact Reading.acls_of_config_steady hc hs x ha

/-- **The level is what the variable says, and nothing else of the file counts for it.**  Where one variable is the level,
in any letter case of its name, a file that describes a configuration, in whatever order, is loaded exactly if the
variable is a level; the configuration then has that level, as it is written, and everything else from the file.  Any
other value is refused. -/
theorem load_level {host : Host} {choice : Option String} {text name value : String} {c : Config}
    (h : OneSetting host choice text name value) (hn : Text.sameFolded name "TABLES_AUTHZ__LOGGING__LEVEL" = true)
    (hc : ∀ order, ofText text order = .ok c) (hw : Writes text "logging" IsTable) :
    load host choice =
      if Text.lower value ∈ ["trace", "debug", "info", "warn", "error"] then
        .ok ⟨⟨value, c.logging.format⟩, c.acls⟩
      else .error (.invalid
        ("logging.level must be one of trace, debug, info, warn, error, got: " ++ settingText value)) := by
  obtain ⟨settings, ht, -⟩ := bind_eq_ok.1 (hc .listed)
  obtain ⟨-, hg, hk⟩ := validate_eq_ok_iff.1 (validate_of_ofText (hc .listed))
  obtain ⟨hread, hsteady⟩ := steady_of_ofText hc ht host.order
  obtain ⟨hr, hs⟩ := applySetting_level (hasShaped_of_writes host.order merge_isTable (by decide) hw ht) hread hsteady
  rw [load_of_oneSetting h (variableKey?_level hn) ht hr hs]
  split
  · rename_i hl
    have hv : settingText value = value := settingText_of_plain (plain_of_level hl)
    have hok : validate ⟨⟨value, c.logging.format⟩, c.acls⟩ = .ok () :=
      validate_eq_ok_iff.2 ⟨isLogLevel_iff.2 hl, hg, hk⟩
    rw [hv, hok]
    rfl
  · rename_i hl
    rw [validate, checkLevel_eq_error (level_settingText_iff.not.2 hl)]
    rfl

/-- A level in a case of its own is taken as it is written, and a number is refused as the number that it is. -/
theorem load_level_of_trace :
    OneSetting (variableHost "tables_authz__Logging__LEVEL" "Trace") (some "acls.toml") warnFile
      "tables_authz__Logging__LEVEL" "Trace" ∧
    Text.sameFolded "tables_authz__Logging__LEVEL" "TABLES_AUTHZ__LOGGING__LEVEL" = true ∧
    (∀ order, ofText warnFile order = .ok warnConfig) ∧ Writes warnFile "logging" IsTable ∧
    load (variableHost "tables_authz__Logging__LEVEL" "Trace") (some "acls.toml") =
      .ok ⟨⟨"Trace", .pretty⟩, warnConfig.acls⟩ ∧
    load (variableHost "tables_authz__Logging__LEVEL" "007") (some "acls.toml") =
      .error (.invalid "logging.level must be one of trace, debug, info, warn, error, got: 7") := by
  have hn : NamesSetting "tables_authz__Logging__LEVEL" := by decide
  have hf : Text.sameFolded "tables_authz__Logging__LEVEL" "TABLES_AUTHZ__LOGGING__LEVEL" = true := by decide
  have hone (value : String) := oneSetting_variableHost value hn
  have ht := load_level (hone "Trace") hf ofText_warnFile writes_logging_warnFile
  have hz := load_level (hone "007") hf ofText_warnFile writes_logging_warnFile
  rw [if_pos (by decide)] at ht
  rw [if_neg (by decide), settingText_zeros] at hz
  exact ⟨hone "Trace", hf, ofText_warnFile, writes_logging_warnFile, ht, hz⟩

/-- A host with one variable, and with a file that says two things. -/
def numberLevelHost : Host :=
  { variableHost "TABLES_AUTHZ__LOGGING__LEVEL" "debug" with
    entry := fun path => if path = "acls.toml" then .file numberFile else .missing }

/-- **A level is no good to a file that one order understands and another does not.** -/
theorem load_level_of_number :
    OneSetting numberLevelHost (some "acls.toml") numberFile "TABLES_AUTHZ__LOGGING__LEVEL" "debug" ∧
    Text.lower "debug" ∈ ["trace", "debug", "info", "warn", "error"] ∧ Writes numberFile "logging" IsTable ∧
    ofText numberFile .backwards = .ok numberConfig ∧ ∀ c, load numberLevelHost (some "acls.toml") ≠ .ok c := by
  have hn : NamesSetting "TABLES_AUTHZ__LOGGING__LEVEL" := by decide
  have hf : numberLevelHost.entry "acls.toml" = .file numberFile := by rfl
  have hone : OneSetting numberLevelHost (some "acls.toml") numberFile "TABLES_AUTHZ__LOGGING__LEVEL" "debug" :=
    ⟨⟨_, filePath?_of_file hf, hf⟩, (oneSetting_variableHost "debug" hn).only⟩
  have hw : Writes numberFile "logging" IsTable := by
    intro settings hs s hm ht
    obtain rfl := Except.ok.inj (hs.symm.trans textSettings_numberFile)
    obtain rfl := List.mem_singleton.1 hm
    exact absurd ht (by decide)
  refine ⟨hone, by decide, hw, ofText_numberFile.1, fun c hc => ?_⟩
  have hv : variableSettings numberLevelHost.environment = .ok [("logging.level", .text "debug")] := by
    rw [variableSettings_of_oneSetting hone (variableKey?_level (by decide)),
      variableDatum_of_plain (plain_of_level (by decide))]
  have hdatum : applySettings (.table []) (numberSettings ++ [("logging.level", .text "debug")]) =
      .table (numberSettings ++ [("logging", .table [("level", .text "debug")])]) := by
    rw [applySettings, List.foldl_append, List.foldl_cons, List.foldl_nil, applySetting, address_level]
    rfl
  have hnone : ofSettings .listed numberSettings [("logging.level", .text "debug")] =
      .error (.load (.unreadable "the settings do not describe a configuration")) := by
    rw [ofSettings]
    exact (congrArg ofDatum hdatum).trans (by decide)
  have hload : load numberLevelHost (some "acls.toml") =
      ofSettings .listed numberSettings [("logging.level", .text "debug")] := by
    rw [load_eq ((fileSettings_of_chosen (filePath?_of_file hf) hf).trans textSettings_numberFile) hv]
    rfl
  rw [hload, hnone] at hc
  cases hc

/-! ## The table of a record -/

/-- A configuration with another table in one of its records. -/
def withTable (c : Config) (index : Nat) (table : String) : Config :=
  ⟨c.logging, c.acls.modify index fun a => ⟨⟨table⟩, a.scope, a.role⟩⟩

/-- An index within a list changes one of its elements and makes the list no longer. -/
theorem alterElement_of_lt {f : Datum → Datum} {items : List Datum} {index : Nat} (hi : index < items.length) :
    alterElement f items index = items.modify index f := by
  show (items ++ List.replicate (index + 1 - items.length) Datum.nil).modify index f = _
  rw [Nat.sub_eq_zero_of_le hi, List.replicate_zero, List.append_nil]

theorem acls_table {items : List Datum} {l : List Acl} {index : Nat} {value : String}
    (hl : items.mapM Reading.lenient.acl = some l) (ht : ∀ d ∈ items, IsTable d) :
    (items.modify index (alter (fun _ => variableDatum value) [.member "table_id"])).mapM Reading.lenient.acl =
      some (l.modify index fun a => ⟨⟨settingText value⟩, a.scope, a.role⟩) := by
  refine Reading.mapM_modify hl fun d a hd ha => ?_
  obtain ⟨members, rfl⟩ := ht d (List.mem_of_getElem? hd)
  exact Reading.acl_table ha (text_variableDatum value)

theorem forall_modify {α : Type} {p : α → Prop} {f : α → α} {items : List α} {index : Nat} (h : ∀ x ∈ items, p x)
    (hf : ∀ x, items[index]? = some x → p (f x)) : ∀ x ∈ items.modify index f, p x := by
  intro x hx
  obtain ⟨k, hk⟩ := List.mem_iff_getElem?.1 hx
  rw [List.getElem?_modify] at hk
  obtain ⟨y, hy, rfl⟩ := Option.map_eq_some_iff.1 hk
  by_cases he : index = k
  · subst he
    simpa using hf y hy
  · simpa [he] using h y (List.mem_of_getElem? hy)

/-- The record that is changed keeps its scope. -/
theorem acls_table_steady {items : List Datum} {l : List Acl} {index : Nat} {value : String}
    (hl : Reading.lenient.acls (.list items) = some l) (ht : ∀ d ∈ items, IsTable d)
    (hs : Reading.Steady Reading.lenient.acls (.list items)) :
    Reading.Steady Reading.lenient.acls
      (.list (items.modify index (alter (fun _ => variableDatum value) [.member "table_id"]))) := by
  have hitems : ∀ x ∈ items, Reading.Steady Reading.lenient.acl x := Reading.acl_steady_of_acls_steady hl hs
  refine Reading.acls_steady (forall_modify hitems fun x hx => Reading.acl_steady fun s hscope => ?_)
  have hmem : x ∈ items := List.mem_of_getElem? hx
  obtain ⟨members, rfl⟩ := ht x hmem
  obtain ⟨a, ha⟩ := Reading.exists_of_mapM hl _ hmem
  have hk : Reading.scopeDatum? (.table (setMember "table_id" (variableDatum value) members)) =
      Reading.scopeDatum? (.table members) := by
    rw [Reading.scopeDatum?, Reading.scopeDatum?, Reading.required, Reading.required,
      Reading.field_setMember_of_ne (by decide)]
  replace hscope : s ∈ Reading.scopeDatum? (.table (setMember "table_id" (variableDatum value) members)) := hscope
  rw [hk] at hscope
  exact Reading.scope_steady_of_acl_steady ha (hitems _ hmem) s hscope

theorem applySetting_recordTable {d : Datum} {c : Config} {index : Nat} {value : String}
    (hd : HasShaped "acls" IsTables d) (hc : Reading.lenient.config d = some c)
    (hs : Reading.Steady Reading.lenient.config d) (hi : index < c.acls.length) (hf : Decimal.fits index = true) :
    Reading.lenient.config
        (applySetting d (String.ofList (recordKey index ++ ".table_id".toList), variableDatum value)) =
          some (c.withTable index (settingText value)) ∧
      Reading.Steady Reading.lenient.config
        (applySetting d (String.ofList (recordKey index ++ ".table_id".toList), variableDatum value)) := by
  obtain ⟨members, rfl, hx⟩ := hd
  obtain ⟨x, hm, ha⟩ := Option.bind_eq_some_iff.1 (Reading.config_eq_some.1 hc).2
  rw [Reading.field_eq_memberOf? hm] at hx
  cases x with
  | none =>
    -- without the member there are no records
    rw [← Option.some.inj ha] at hi
    cases hi
  | some d =>
    obtain ⟨items, rfl, ht⟩ := hx d rfl
    replace ha : items.mapM Reading.lenient.acl = some c.acls := ha
    have hlt : index < items.length := by
      have hg := Reading.getElem?_of_mapM ha index
      rw [List.getElem?_eq_getElem hi] at hg
      obtain ⟨d, hd, -⟩ := Option.bind_eq_some_iff.1 hg.symm
      exact (List.getElem?_eq_some_iff.1 hd).1
    have he : applySetting (.table members) (String.ofList (recordKey index ++ ".table_id".toList), variableDatum value) =
        .table (setMember "acls"
          (.list (items.modify index (alter (fun _ => variableDatum value) [.member "table_id"]))) members) := by
      rw [applySetting, address_table hf, merge_variableDatum, ← alterElement_of_lt hlt]
      show Datum.table (setMember "acls" (alter _ _ ((memberOf? "acls" members).getD .nil)) members) = _
      rw [Reading.field_eq_memberOf? hm]
      rfl
    rw [he]
    refine ⟨Reading.config_acls hc (acls_table ha ht), Reading.config_steady fun y hy => ?_⟩
    rw [Reading.field_setMember_self (by rw [hm]; rfl)] at hy
    obtain rfl := Option.some.inj (Option.some.inj hy)
    exact acls_table_steady ha ht (Reading.acls_of_config_steady hc hs _ hm)

theorem withTable_getElem? {c : Config} {index k : Nat} {table : String} {a : Acl}
    (h : (c.withTable index table).acls[k]? = some a) :
    ∃ old, c.acls[k]? = some old ∧ a.scope = old.scope ∧ (k = index ∧ a.table = ⟨table⟩ ∨ k ≠ index ∧ a = old) := by
  rw [withTable, List.getElem?_modify] at h
  obtain ⟨old, hold, rfl⟩ := Option.map_eq_some_iff.1 h
  refine ⟨old, hold, ?_⟩
  by_cases hk : index = k
  · subst hk
    simp
  · simp [hk, Ne.symm hk]

/-- **A configuration with another table in one record can be at fault only for that table**: it is empty, or the record
has now the key of another. -/
theorem validate_withTable {c : Config} {index : Nat} {table : String} {e : ConfigError} (hc : validate c = .ok ())
    (he : validate (c.withTable index table) = .error e) :
    e = .missing (recordName index ++ ".table_id") ∨ ∃ scope, e = .duplicateAcl ⟨table⟩ scope := by
  obtain ⟨hl, hg, hk⟩ := validate_eq_ok_iff.1 hc
  have hs : ∀ a ∈ (c.withTable index table).acls, a.scope ≠ .empty ∧ a.scope ≠ .user none ∧ a.scope ≠ .group "" := by
    intro a ha
    obtain ⟨k, hka⟩ := List.mem_iff_getElem?.1 ha
    obtain ⟨old, hold, hscope, -⟩ := withTable_getElem? hka
    obtain ⟨-, he, ho, hn⟩ := hg old (List.mem_of_getElem? hold)
    rw [hscope]
    exact ⟨he, ho, hn⟩
  have hlw : Text.lower (c.withTable index table).logging.level ∈ logLevels := isLogLevel_iff.1 hl
  obtain ⟨i, a, ha, hfault⟩ := refused_of_scopes hlw hs he
  obtain ⟨old, hold, -, ⟨rfl, ht⟩ | ⟨hi, rfl⟩⟩ := withTable_getElem? ha
  · rcases hfault with ⟨-, rfl⟩ | ⟨rfl, -⟩
    · exact .inl rfl
    · exact .inr ⟨a.scope, by rw [ht]⟩
  -- another record is refused, and it names its table; so its key is taken, and by the changed record
  · have hne : a.table ≠ ⟨""⟩ := fun ht => by
      have hempty := (hg a (List.mem_of_getElem? hold)).table
      rw [ht] at hempty
      cases hempty
    obtain ⟨rfl, b, hb, hkey⟩ := hfault.resolve_left fun h => hne h.1
    obtain ⟨k, hki, hbk⟩ := List.mem_take_iff_getElem.1 hb
    obtain ⟨old', hold', -, ⟨-, ht⟩ | ⟨-, rfl⟩⟩ := withTable_getElem? (List.getElem?_eq_some_iff.2 ⟨_, hbk⟩)
    · have hab : b.table = a.table := congrArg Prod.fst hkey
      exact .inr ⟨a.scope, by rw [← ht, hab]⟩
    · have hlt : i < (c.acls.map Acl.key).length := by
        rw [List.length_map]
        exact (List.getElem?_eq_some_iff.1 hold).1
      refine absurd ?_ (List.nodup_iff_getElem?_ne_getElem?.1 hk k i (lt_min_iff.1 hki).1 hlt)
      rw [List.getElem?_map, List.getElem?_map, hold, hold']
      exact congrArg some hkey

theorem load_withTable {host : Host} {choice : Option String} {text name value : String} {c : Config} {index : Nat}
    (h : OneSetting host choice text name value) (hn : Text.sameFolded name (tableVariable index) = true)
    (hc : ∀ order, ofText text order = .ok c) (hw : Writes text "acls" IsTables) (hi : index < c.acls.length)
    (hf : Decimal.fits index = true) :
    load host choice =
      (validate (c.withTable index (settingText value))).map fun _ => c.withTable index (settingText value) := by
  obtain ⟨settings, ht, -⟩ := bind_eq_ok.1 (hc .listed)
  obtain ⟨hread, hsteady⟩ := steady_of_ofText hc ht host.order
  obtain ⟨hr, hs⟩ :=
    applySetting_recordTable (hasShaped_of_writes host.order merge_isTables (by decide) hw ht) hread hsteady hi hf
  exact load_of_oneSetting h (variableKey?_table hn) ht hr hs

/-- **The table of a record is what the variable stands for, and nothing else changes.**  Where one variable is the table
of the record at an index, what is loaded is what validation makes of the configuration that the file describes, in
whatever order, with that table in that record: it, or the error that the table is missing or that its record has now
the key of another.  A variable that cannot be taken for a number or a truth value stands for itself.  A list has an
end that 64 bits can count to. -/
theorem load_table {host : Host} {choice : Option String} {text name value : String} {c : Config} {index : Nat}
    (h : OneSetting host choice text name value) (hn : Text.sameFolded name (tableVariable index) = true)
    (hc : ∀ order, ofText text order = .ok c) (hw : Writes text "acls" IsTables) (hi : index < c.acls.length)
    (hcap : c.acls.length ≤ 0x8000000000000000) :
    load host choice =
      ((validate (c.withTable index (settingText value))).map fun _ => c.withTable index (settingText value)) ∧
    (∀ e, load host choice = .error e →
      e = .missing (recordName index ++ ".table_id") ∨ ∃ scope, e = .duplicateAcl ⟨settingText value⟩ scope) ∧
    (Plain value → load host choice = (validate (c.withTable index value)).map fun _ => c.withTable index value) := by
  have hf : Decimal.fits index = true := by
    simp only [Decimal.fits, Bool.and_eq_true, decide_eq_true_eq]
    omega
  have hload := load_withTable h hn hc hw hi hf
  refine ⟨hload, fun e he => ?_, fun hp => ?_⟩
  · rw [hload] at he
    cases hv : validate (c.withTable index (settingText value)) with
    | ok u =>
      rw [hv] at he
      cases he
    | error e' =>
      rw [hv] at he
      obtain rfl : e' = e := Except.error.inj he
      exact validate_withTable (validate_of_ofText (hc .listed)) hv
  · rw [hload, settingText_of_plain hp]

/-- An empty variable makes the table missing, and a plain one is the table as it is written. -/
theorem load_table_of_nothing :
    OneSetting (variableHost "TABLES_AUTHZ__ACLS[0]__TABLE_ID" "") (some "acls.toml") warnFile
      "TABLES_AUTHZ__ACLS[0]__TABLE_ID" "" ∧
    Text.sameFolded "TABLES_AUTHZ__ACLS[0]__TABLE_ID" (tableVariable 0) = true ∧
    (∀ order, ofText warnFile order = .ok warnConfig) ∧
    Writes warnFile "acls" IsTables ∧ 0 < warnConfig.acls.length ∧ warnConfig.acls.length ≤ 0x8000000000000000 ∧
    load (variableHost "TABLES_AUTHZ__ACLS[0]__TABLE_ID" "") (some "acls.toml") =
      .error (.missing "acls[0].table_id") ∧
    load (variableHost "TABLES_AUTHZ__ACLS[0]__TABLE_ID" "Trips 2") (some "acls.toml") =
      .ok ⟨warnConfig.logging, [⟨⟨"Trips 2"⟩, .default, .owner⟩]⟩ := by
  have hn : NamesSetting "TABLES_AUTHZ__ACLS[0]__TABLE_ID" := by decide
  have hf : Text.sameFolded "TABLES_AUTHZ__ACLS[0]__TABLE_ID" (tableVariable 0) = true := by decide
  have hi : 0 < warnConfig.acls.length := by decide
  have hc : warnConfig.acls.length ≤ 0x8000000000000000 := by decide
  have hone (value : String) := oneSetting_variableHost value hn
  have hp : Plain "" := ⟨fun _ hc => (nomatch hc), by decide⟩
  have hq : Plain "Trips 2" := by
    refine ⟨fun c hc => ?_, by decide⟩
    obtain rfl : 'T' = c := Option.some.inj hc
    decide
  obtain ⟨-, -, hload⟩ := load_table (hone "") hf ofText_warnFile writes_acls_warnFile hi hc
  obtain ⟨-, -, hload'⟩ := load_table (hone "Trips 2") hf ofText_warnFile writes_acls_warnFile hi hc
  exact ⟨hone "", hf, ofText_warnFile, writes_acls_warnFile, hi, hc, hload hp, hload' hq⟩

/-- **The table is not always the variable as it is written**: of an integer the zeros in front are lost. -/
theorem load_table_ne_written :
    OneSetting (variableHost "TABLES_AUTHZ__ACLS[0]__TABLE_ID" "007") (some "acls.toml") warnFile
      "TABLES_AUTHZ__ACLS[0]__TABLE_ID" "007" ∧
    (∀ order, ofText warnFile order = .ok warnConfig) ∧ Writes warnFile "acls" IsTables ∧
    0 < warnConfig.acls.length ∧
    load (variableHost "TABLES_AUTHZ__ACLS[0]__TABLE_ID" "007") (some "acls.toml") = .ok (warnConfig.withTable 0 "7") ∧
    load (variableHost "TABLES_AUTHZ__ACLS[0]__TABLE_ID" "007") (some "acls.toml") ≠
      (validate (warnConfig.withTable 0 "007")).map fun _ => warnConfig.withTable 0 "007" := by
  have hone := oneSetting_variableHost "007" (show NamesSetting "TABLES_AUTHZ__ACLS[0]__TABLE_ID" by decide)
  have hi : 0 < warnConfig.acls.length := by decide
  have hv : validate (warnConfig.withTable 0 "7") = .ok () := by decide
  have hload : load (variableHost "TABLES_AUTHZ__ACLS[0]__TABLE_ID" "007") (some "acls.toml") =
      .ok (warnConfig.withTable 0 "7") := by
    rw [load_withTable hone (by decide) ofText_warnFile writes_acls_warnFile hi (by decide), settingText_zeros, hv]
    rfl
  refine ⟨hone, ofText_warnFile, writes_acls_warnFile, hi, hload, ?_⟩
  rw [hload]
  decide

end Config
end TableAccess
