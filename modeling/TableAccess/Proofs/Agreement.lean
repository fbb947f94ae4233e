import TableAccess.Proofs.Exit
import TableAccess.Proofs.Wording
/-!
# The commands agree

The commands put one question in several ways, and what one of them says settles what the others say: `has` and `check`
part in what they print only, `permissions` lists what `has` says yes to, and `filter` asks for the permission first and
for the row's filter then (`commands_agree`).  The records for groups settle nothing, since nobody is in a group here.
-/
namespace TableAccess
namespace CommandLine

/-- **A command line that puts a command**: it is read as this command, put by this caller, on the configuration at this
path.  How it is spelled is left open, and how the run logs. -/
def Puts (host : Host) (path user : Option String) (args : List String) (command : Command) : Prop :=
  ∃ level, Request.read host.extended.environment args = .ok ⟨⟨path, level, user⟩, command⟩

variable {host : Host} {path user : Option String} {c : Config} {args : List String} {table : TableId} {p : Permission}

theorem run_of_puts (hl : Loads host path c) {command : Command}
    (h : Puts host path user args command) : run host args = (command.told c.acls (user.map .mk)).outcome := by
  obtain ⟨level, hr⟩ := h
  exact run_of_load hl hr

theorem ends_of_puts (hl : Loads host path c) {command : Command}
    (h : Puts host path user args command) : command.Ends c.acls (user.map .mk) (run host args) := by
  rw [run_of_puts hl h]
  exact command.told_ends _ _

/-! ## What the exit codes tell -/

theorem code_of_says {passes : Prop} [Decidable passes] {out : Outcome} {yes no : String}
    (h : if passes then out.Says 0 yes else out.Says 1 no) : out.code = if passes then 0 else 1 := by
  split at h
  · rw [if_pos ‹_›]; exact h.1
  · rw [if_neg ‹_›]; exact h.1

theorem code_has (hl : Loads host path c) (h : Puts host path user args (.has table p)) :
    (run host args).code = if Granted c.acls [] (user.map .mk) table p then 0 else 1 :=
  code_of_says (ends_of_puts hl h)

theorem code_check (hl : Loads host path c) (h : Puts host path user args (.check table p)) :
    (run host args).code = if Granted c.acls [] (user.map .mk) table p then 0 else 1 :=
  code_of_says (ends_of_puts hl h)

theorem code_filter (hl : Loads host path c) {row : String} {scope : Option Scope}
    (h : Puts host path user args (.filter table p row scope)) : (run host args).code =
      if Granted c.acls [] (user.map .mk) table p ∨ Admits (user.map .mk) scope then 0 else 1 :=
  code_of_says (ends_of_puts hl h)

theorem stdout_has (hl : Loads host path c) (h : Puts host path user args (.has table p)) :
    (run host args).stdout = "true\n" ↔ Granted c.acls [] (user.map .mk) table p := by
  have he : if Granted c.acls [] (user.map .mk) table p then (run host args).Says 0 "true"
      else (run host args).Says 1 "false" := ends_of_puts hl h
  split at he
  · rename_i hg
    exact iff_of_true (he.2.trans (by decide)) hg
  · rename_i hg
    exact iff_of_false (fun ht => absurd (he.2.symm.trans ht) (by decide)) hg

theorem stdout_permissions (hl : Loads host path c)
    (h : Puts host path user args (.permissions table)) : (run host args).stdout =
      String.join ((Permission.all.filter fun p => Granted c.acls [] (user.map .mk) table p).map
        fun p => p.name ++ "\n") := by
  rw [run_of_puts hl h, Command.told, Answer.outcome]
  simp only [List.map_map]
  rfl

/-! ## Filters -/

theorem not_admits_of_nobody {user : Option UserId} {scope : Option Scope}
    (h : scope = none ∨ scope = some .empty ∨ scope = some (.user none)) : ¬ Admits user scope := by
  rcases h with rfl | rfl | rfl <;> simp [Admits]

theorem admits_of_everyone {user : Option UserId} {scope : Option Scope}
    (h : scope = some .default ∨ ∃ name, scope = some (.group name)) : Admits user scope :=
  h.imp_right .inl

theorem admits_user_iff {id : UserId} : Admits (user.map .mk) (some (.user (some id))) ↔ user = some id.text := by
  rcases id with ⟨t⟩
  rcases user with _ | u <;> simp [Admits, eq_comm]

/-! ## Agreement -/

theorem orVariable_eq {env : Environment} {name : String} {given : Option String}
    (h : given = none → env.get? name = none) : orVariable env name given = .ok given := by
  cases given with
  | none => rw [orVariable, h rfl]
  | some v => rfl

theorem exists_orVariable {env : Environment} {name : String} {given : Option String}
    (h : given = none → env.get? name ≠ some .garbled) : ∃ v, orVariable env name given = .ok v := by
  cases given with
  | some v => exact ⟨some v, rfl⟩
  | none =>
    cases hv : env.get? name with
    | none => exact ⟨none, by rw [orVariable, hv]⟩
    | some value =>
      cases value with
      | text v => exact ⟨some v, by rw [orVariable, hv]⟩
      | garbled => exact absurd hv (h rfl)

/-- What is not given, and nothing in the environment stands in for it, stays open. -/
theorem puts_words {level : Option String}
    (hp : path = none → host.extended.environment.get? "TABLES_AUTHZ_CONFIG" = none)
    (hv : level = none → host.extended.environment.get? "TABLES_AUTHZ_LOG_LEVEL" ≠ some .garbled)
    (hu : user = none → host.extended.environment.get? "TABLES_AUTHZ_USER" = none) {command : Command}
    {permission : String} {scope : Option String} (h : command.Spelled permission scope) :
    Puts host path user (Request.words permission scope ⟨⟨path, level, user⟩, command⟩) command := by
  obtain ⟨shown, hs⟩ := exists_orVariable hv
  refine ⟨shown, Request.read_words h ?_⟩
  rw [Settings.withEnvironment, orVariable_eq hp, hs, orVariable_eq hu]
  rfl

/-- **The commands agree**, for one caller on one configuration, however each command line is spelled.
`has` ends with 0 exactly if `check` does.  `permissions` prints the names of those permissions that `has` says `true` to,
each on a line, in the order of all permissions.  Where a row has no filter, or one that is nobody's, `filter` ends as
`check` does; a filter that is everyone's or a group's lets everyone in, and a user's lets in that user and whoever
has the permission.
Two configurations whose records differ in those for groups only are answered alike.
Every such command line can be written, whatever the texts are and in whatever letter case the permission is. -/
theorem commands_agree (hl : Loads host path c) (table : TableId) :
    (∀ p has check, Puts host path user has (.has table p) → Puts host path user check (.check table p) →
      ((run host has).code = 0 ↔ (run host check).code = 0)) ∧
    (∀ (has : Permission → List String) (list : List String), (∀ p, Puts host path user (has p) (.has table p)) →
      Puts host path user list (.permissions table) →
        (run host list).stdout = String.join ((Permission.all.filter fun p => (run host (has p)).stdout = "true\n").map
          fun p => p.name ++ "\n")) ∧
    (∀ p row scope has check filter, Puts host path user has (.has table p) →
      Puts host path user check (.check table p) → Puts host path user filter (.filter table p row scope) →
        (scope = none ∨ scope = some .empty ∨ scope = some (.user none) →
          (run host filter).code = (run host check).code) ∧
        (scope = some .default ∨ (∃ name, scope = some (.group name)) → (run host filter).code = 0) ∧
        ∀ id, scope = some (.user (some id)) →
          ((run host filter).code = 0 ↔ (run host has).code = 0 ∨ user = some id.text)) ∧
    (∀ host' path' c', Loads host' path' c' →
      (∀ a : Acl, (∀ name, a.scope ≠ .group name) → (a ∈ c.acls ↔ a ∈ c'.acls)) →
        ∀ command args args', Puts host path user args command → Puts host' path' user args' command →
          run host args = run host' args') ∧
    ((path = none → host.extended.environment.get? "TABLES_AUTHZ_CONFIG" = none) →
      (user = none → host.extended.environment.get? "TABLES_AUTHZ_USER" = none) →
        ∀ level, (level = none → host.extended.environment.get? "TABLES_AUTHZ_LOG_LEVEL" ≠ some .garbled) →
          ∀ command permission scope, command.Spelled permission scope →
            Puts host path user (Request.words permission scope ⟨⟨path, level, user⟩, command⟩) command) := by
  refine ⟨fun p has check hh hc => ?_, fun has list hh hp => ?_,
    fun p row scope has check filter hh hc hf => ⟨?_, ?_, ?_⟩,
    fun host' path' c' hl' hg command args args' ha ha' => ?_, fun hp hu level hv command permission scope hs => ?_⟩
  · rw [code_has hl hh, code_check hl hc]
  · rw [stdout_permissions hl hp]
    simp only [stdout_has hl (hh _)]
  · intro hn
    rw [code_filter hl hf, code_check hl hc]
    simp only [not_admits_of_nobody hn, or_false]
  · intro he
    rw [code_filter hl hf, if_pos (.inr (admits_of_everyone he))]
  · rintro id rfl
    rw [code_filter hl hf, code_has hl hh, ← admits_user_iff]
    by_cases hg : Granted c.acls [] (user.map .mk) table p <;> simp [hg]
  · rw [run_of_puts hl ha, run_of_puts hl' ha', Command.told_congr hg]
  · exact puts_words hp hv hu hs

def staffFile : String :=
  Config.warnFile ++ "[[acls]]\ntable_id=\"trips\"\nrole=\"OWNER\"\nscope.type=\"GROUP\"\nscope.value=\"staff\"\n"

/-- The same host with a record more in the file, which gives another table to a group. -/
def staffHost : Host :=
  { Config.warnHost with entry path := if path = "acls.toml" then .file staffFile else .missing }

theorem textSettings_staffFile : Config.textSettings staffFile = .ok
    [("logging", .table [("level", .text "Warn")]),
      ("acls", .list [
        .table [("table_id", .text "visits"), ("role", .text "OWNER"), ("scope", .table [("type", .text "DEFAULT")])],
        .table [("table_id", .text "trips"), ("role", .text "OWNER"),
          ("scope", .table [("type", .text "GROUP"), ("value", .text "staff")])]])] := by cbv

def staffConfig : Config := ⟨⟨"Warn", .pretty⟩, [⟨⟨"visits"⟩, .default, .owner⟩, ⟨⟨"trips"⟩, .group "staff", .owner⟩]⟩

/-- Command lines of ann about that file. -/
def annWords (permission : String) (scope : Option String) (command : Command) : List String :=
  Request.words permission scope ⟨⟨some "acls.toml", none, some "ann"⟩, command⟩

def annHas (table : TableId) (p : Permission) : List String := annWords p.name none (.has table p)

def annCheck : List String := annWords "Read_Row" none (.check ⟨"trips"⟩ .readRow)

def annFilter (scope : Option UserId) (spelled : String) : List String :=
  annWords "read_row" (some spelled) (.filter ⟨"trips"⟩ .readRow "row-1" (some (.user scope)))

/-- Ann has nothing on the trips, with or without the record for the staff, and so reads only the row that is hers; of the
visits she is told all that she has. -/
theorem commands_agree_of_ann :
    annFilter (some ⟨"ann"⟩) "USER:ann" =
      ["--config=acls.toml", "--user=ann", "filter", "--table=trips", "--row=row-1", "--scope=USER:ann", "read_row"] ∧
    Loads Config.warnHost (some "acls.toml") Config.warnConfig ∧ Loads staffHost (some "acls.toml") staffConfig ∧
    ((run Config.warnHost (annHas ⟨"trips"⟩ .readRow)).code = 0 ↔ (run Config.warnHost annCheck).code = 0) ∧
    (run Config.warnHost (annWords "" none (.permissions ⟨"visits"⟩))).stdout =
      String.join ((Permission.all.filter fun p => (run Config.warnHost (annHas ⟨"visits"⟩ p)).stdout = "true\n").map
        fun p => p.name ++ "\n") ∧
    (run Config.warnHost (annFilter (some ⟨"ann"⟩) "USER:ann")).code = 0 ∧
    (run Config.warnHost (annFilter none "user")).code = (run Config.warnHost annCheck).code ∧
    run Config.warnHost annCheck = run staffHost annCheck := by
  have hfs : staffHost.extended.entry "acls.toml" = .file staffFile := by rfl
  have hts : Config.ofText staffFile = .ok staffConfig := by cbv
  have hl : Loads Config.warnHost (some "acls.toml") Config.warnConfig := loads_warnHost
  have hes : staffHost.extended.environment = Config.warnHost.environment := rfl
  have hns : Config.variableSettings staffHost.extended.environment = .ok [] := by
    rw [hes]
    exact Config.variableSettings_eq_nil (by decide)
  have hfile := (Config.fileSettings_of_chosen (Config.filePath?_of_file hfs) hfs).trans textSettings_staffFile
  have hls : Loads staffHost (some "acls.toml") staffConfig :=
    { started := breaksOff_of_no_file rfl
      room := (Config.hasRoom_eq hfile hns).trans (by decide)
      loaded := (Config.load_of_no_settings hfs hns).trans hts }
  have hg : ∀ a : Acl, (∀ name, a.scope ≠ .group name) → (a ∈ Config.warnConfig.acls ↔ a ∈ staffConfig.acls) := by
    intro a ha
    have hn : a ≠ ⟨⟨"trips"⟩, .group "staff", .owner⟩ := fun he => ha "staff" (he ▸ rfl)
    simp [Config.warnConfig, staffConfig, hn]
  obtain ⟨hcheck, -, hfilter, hgroups, hput⟩ :=
    @commands_agree Config.warnHost (some "acls.toml") (some "ann") Config.warnConfig hl ⟨"trips"⟩
  obtain ⟨-, hlist, -, -, -⟩ :=
    @commands_agree Config.warnHost (some "acls.toml") (some "ann") Config.warnConfig hl ⟨"visits"⟩
  obtain ⟨-, -, -, -, hput'⟩ :=
    @commands_agree staffHost (some "acls.toml") (some "ann") staffConfig hls ⟨"trips"⟩
  have hp (host : Host) : some "acls.toml" = none → host.extended.environment.get? "TABLES_AUTHZ_CONFIG" = none :=
    fun h => absurd h (Option.some_ne_none _)
  have hu (host : Host) : some "ann" = none → host.extended.environment.get? "TABLES_AUTHZ_USER" = none :=
    fun h => absurd h (Option.some_ne_none _)
  have hv {host : Host} (he : host.extended.environment = Config.warnHost.environment)
      (_ : (none : Option String) = none) :
      host.extended.environment.get? "TABLES_AUTHZ_LOG_LEVEL" ≠ some .garbled := by
    rw [he]
    decide
  have hhas (table : TableId) (p : Permission) : Puts Config.warnHost (some "acls.toml") (some "ann") (annHas table p)
      (.has table p) :=
    hput (hp _) (hu _) none (hv rfl) (.has table p) p.name none (beq_self_eq_true (Text.lower p.name))
  have hchk := hput (hp _) (hu _) none (hv rfl) (.check ⟨"trips"⟩ .readRow) "Read_Row" none rfl
  have hchk' := hput' (hp _) (hu _) none (hv hes) (.check ⟨"trips"⟩ .readRow) "Read_Row" none rfl
  have hperm := hput (hp _) (hu _) none (hv rfl) (.permissions ⟨"visits"⟩) "" none trivial
  have hann := hput (hp _) (hu _) none (hv rfl) (.filter ⟨"trips"⟩ .readRow "row-1" (some (.user (some ⟨"ann"⟩))))
    "read_row" (some "USER:ann") ⟨rfl, rfl⟩
  have hnone := hput (hp _) (hu _) none (hv rfl) (.filter ⟨"trips"⟩ .readRow "row-1" (some (.user none))) "read_row"
    (some "user") ⟨rfl, rfl⟩
  refine ⟨rfl, hl, hls, hcheck _ _ _ (hhas _ _) hchk, hlist _ _ (hhas _) hperm, ?_, ?_,
    hgroups _ _ _ hls hg _ _ _ hchk hchk'⟩
  · exact ((hfilter _ _ _ _ _ _ (hhas _ _) hchk hann).2.2 ⟨"ann"⟩ rfl).2 (.inr rfl)
  · exact (hfilter _ _ _ _ _ _ (hhas _ _) hchk hnone).1 (.inr (.inr rfl))

end CommandLine
end TableAccess
