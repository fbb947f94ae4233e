import Mathlib
import TableAccess.CommandLine.Request
import TableAccess.Proofs.Orders
/-!
# The layers of a configuration

The environment adds a setting for each of its variables whose name begins with `TABLES_AUTHZ__` in any letter case, and
nothing else of it counts (`Config.variableSettings_eq_nil`).  So where there is no such variable, a file says what its
text says (`Config.load_eq_ofText`).
-/
namespace TableAccess
namespace Config

/-! ## The variables that are settings -/

/-- **The name of a setting**: it begins with `TABLES_AUTHZ__`, the case of the letters A to Z aside. -/
def NamesSetting (name : String) : Prop :=
  ∃ start rest, name = start ++ rest ∧ Text.sameFolded start "TABLES_AUTHZ__" = true

/-- No character but a letter A to Z has a lower case that stands in a name of settings: the sign for kelvin has `k`. -/
theorem lowerNameChar_eq_iff {c x : Char} (hk : x ≠ 'k') (hs : x ≠ '\u212a') :
    lowerNameChar c = x ↔ c.toLower = x := by
  unfold lowerNameChar
  by_cases hc : c = '\u212a'
  · subst hc
    have hl : '\u212a'.toLower = '\u212a' := by decide
    rw [if_pos (by decide), hl]
    exact ⟨fun h => absurd h.symm hk, fun h => absurd h.symm hs⟩
  · rw [if_neg (by simpa using hc)]

theorem isPrefixOf_lowerNameChar : ∀ (want cs : List Char), 'k' ∉ want → '\u212a' ∉ want →
    (want.isPrefixOf (cs.map lowerNameChar) = true ↔ want <+: cs.map Char.toLower)
  | [], cs, _, _ => by simp
  | x :: want, [], _, _ => by simp
  | x :: want, c :: cs, hk, hs => by
    rw [List.mem_cons, not_or] at hk hs
    obtain ⟨hx, hk⟩ := hk
    obtain ⟨hy, hs⟩ := hs
    have ih := isPrefixOf_lowerNameChar want cs hk hs
    rw [List.map_cons, List.map_cons, List.isPrefixOf_cons_cons, Bool.and_eq_true, ih, beq_iff_eq, eq_comm,
      lowerNameChar_eq_iff (Ne.symm hx) (Ne.symm hy), List.cons_prefix_cons, eq_comm]

theorem namesSetting_iff {name : String} :
    NamesSetting name ↔ variablePrefix <+: name.toList.map Char.toLower := by
  have hw : variablePrefix = "TABLES_AUTHZ__".toList.map Char.toLower := by decide
  unfold NamesSetting
  constructor
  · rintro ⟨start, rest, rfl, hs⟩
    rw [String.toList_append, List.map_append, (Text.sameFolded_iff _ _).1 hs, ← hw]
    exact List.prefix_append _ _
  · rintro ⟨rest, hr⟩
    obtain ⟨start, tail, hn, hs, -⟩ := List.map_eq_append_iff.1 hr.symm
    refine ⟨String.ofList start, String.ofList tail, ?_, ?_⟩
    · rw [← String.toList_inj, String.toList_append, String.toList_ofList, String.toList_ofList, hn]
    · rw [Text.sameFolded_iff, String.toList_ofList, hs, hw]

instance (name : String) : Decidable (NamesSetting name) := decidable_of_iff _ namesSetting_iff.symm

theorem variableKey?_isSome_iff {name : String} : (variableKey? name).isSome ↔ NamesSetting name := by
  have hk : 'k' ∉ variablePrefix := by decide
  have hs : '\u212a' ∉ variablePrefix := by decide
  rw [namesSetting_iff, ← isPrefixOf_lowerNameChar _ _ hk hs, variableKey?]
  split <;> simp_all

/-- Variables that are no settings may be there or not. -/
theorem settingVariables_filter {kept : String × EnvValue → Bool} (h : ∀ v, kept v = false → ¬ NamesSetting v.1)
    (env : Environment) : settingVariables (env.filter kept) = settingVariables env := by
  unfold settingVariables
  rw [List.filterMap_filter]
  refine List.filterMap_congr fun v _ => ?_
  cases hv : kept v with
  | true => rfl
  | false =>
    have hk : variableKey? v.1 = none := by
      rw [← Option.not_isSome_iff_eq_none, variableKey?_isSome_iff]
      exact h v hv
    simp [hk]

theorem variableSettings_filter {kept : String × EnvValue → Bool} (h : ∀ v, kept v = false → ¬ NamesSetting v.1)
    (env : Environment) : variableSettings (env.filter kept) = variableSettings env := by
  rw [variableSettings, settingVariables_filter h, variableSettings]

/-- **A variable without the name of a setting adds nothing.** -/
theorem variableSettings_eq_nil {env : Environment} (h : ∀ v ∈ env, ¬ NamesSetting v.1) :
    variableSettings env = .ok [] := by
  have hnone : env.filter (fun v => decide (NamesSetting v.1)) = [] :=
    List.filter_eq_nil_iff.2 fun v hv => by simpa using h v hv
  rw [← variableSettings_filter (fun _ => of_decide_eq_false) env, hnone]
  rfl

/-- The names of the variables that stand in for options go on after one underscore, and so are not names of settings. -/
theorem not_namesSetting_of_standIn : ∀ name ∈ CommandLine.standIns, ¬ NamesSetting name := by decide

/-! ## The file -/

theorem hasEntry_iff {host : Host} {path : String} : host.hasEntry path = true ↔ host.entry path ≠ .missing :=
  bne_iff_ne

theorem hasEntry_eq_false_iff {host : Host} {path : String} :
    host.hasEntry path = false ↔ host.entry path = .missing :=
  bne_eq_false_iff_eq

theorem fileSettings_of_missing {host : Host} (h : ∀ q ∈ usualPaths host, host.entry q = .missing) :
    fileSettings host none = .ok [] := by
  have hnone : (usualPaths host).find? host.hasEntry = none := by
    refine List.find?_eq_none.2 fun q hq => ?_
    rw [hasEntry_eq_false_iff.2 (h q hq)]
    exact Bool.false_ne_true
  rw [fileSettings, filePath?, hnone]
  rfl

/-- Where none of the usual files is there, only variables count. -/
theorem load_of_missing {host : Host} (h : ∀ q ∈ usualPaths host, host.entry q = .missing) :
    load host none = variableSettings host.environment >>= ofSettings host.order [] := by
  rw [load, fileSettings_of_missing h]
  rfl

theorem fileSettings_of_chosen {host : Host} {choice : Option String} {path text : String}
    (hp : filePath? host choice = .ok (some path)) (hf : host.entry path = .file text) :
    fileSettings host choice = textSettings text := by
  have ht : fileText host path = .ok text := by rw [fileText, hf]
  rw [fileSettings, hp]
  show (fileText host path >>= textSettings) = _
  rw [ht]
  rfl

theorem filePath?_of_entry {host : Host} {path : String} (h : host.entry path ≠ .missing) :
    filePath? host (some path) = .ok (some path) := if_pos (hasEntry_iff.2 h)

theorem filePath?_of_file {host : Host} {path text : String} (hf : host.entry path = .file text) :
    filePath? host (some path) = .ok (some path) :=
  filePath?_of_entry (by rw [hf]; exact Entry.noConfusion)

theorem load_eq {host : Host} {choice : Option String} {file added : List (String × Datum)}
    (hf : fileSettings host choice = .ok file) (hv : variableSettings host.environment = .ok added) :
    load host choice = ofSettings host.order file added := by
  rw [load, hf, hv]
  rfl

theorem hasRoom_eq {host : Host} {choice : Option String} {file added : List (String × Datum)}
    (hf : fileSettings host choice = .ok file) (hv : variableSettings host.environment = .ok added) :
    hasRoom host choice = (settingsFit host file && settingsFit host added) := by
  rw [hasRoom, hf, hv]

theorem load_of_no_settings {host : Host} {path text : String} (hf : host.entry path = .file text)
    (hv : variableSettings host.environment = .ok []) : load host (some path) = ofText text host.order := by
  rw [load, ofText, fileSettings_of_chosen (filePath?_of_file hf) hf, hv]
  cases textSettings text <;> rfl

def warnFile : String := "[logging]\nlevel=\"Warn\"\n[[acls]]\ntable_id=\"visits\"\nrole=\"OWNER\"\nscope.type=\"DEFAULT\"\n"

/-- A host on which the three variables name another file, another level and a user. -/
def warnHost : Host where
  entry path := if path = "acls.toml" then .file warnFile else .missing
  environment :=
    [("TABLES_AUTHZ_CONFIG", "other.toml"), ("TABLES_AUTHZ_LOG_LEVEL", "loud"), ("TABLES_AUTHZ_USER", "ann")]
  envFile := none

def warnConfig : Config := ⟨⟨"Warn", .pretty⟩, [⟨⟨"visits"⟩, .default, .owner⟩]⟩

theorem textSettings_warnFile : textSettings warnFile = .ok
    [("logging", .table [("level", .text "Warn")]),
      ("acls", .list [.table [("table_id", .text "visits"), ("role", .text "OWNER"),
        ("scope", .table [("type", .text "DEFAULT")])]])] := by cbv

theorem definite_warnFile {settings : List (String × Datum)} (h : textSettings warnFile = .ok settings) :
    Definite settings := by
  obtain rfl := Except.ok.inj (h.symm.trans textSettings_warnFile)
  exact ⟨by decide, by decide⟩

theorem ofText_warnFile (order : TableOrder) : ofText warnFile order = .ok warnConfig := by
  have hlisted : ofText warnFile = .ok warnConfig := by cbv
  exact (settled_of_definite (fun _ h => definite_warnFile h) order .listed).trans hlisted

end Config
end TableAccess
