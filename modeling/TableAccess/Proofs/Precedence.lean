import Mathlib
import TableAccess.Proofs.Answers
import TableAccess.Proofs.Relevance
import TableAccess.Proofs.Tree
/-!
# Where settings come from

What a command line says comes before what the environment says, and that comes before what the file `.env` says.  The
file only fills in names that have no text in the environment, each with its first value, and after that nothing of it
matters (`CommandLine.run_bare`).  A variable that stands in for an option matters only where the option is not given
(`CommandLine.outcomeOn_sameBut`).
-/
namespace TableAccess

/-! ## The host -/

/-- **A host without its file `.env`**, which these paths lead to, on which the environment is filled up from it. -/
def Host.bare (host : Host) (isEnvFile : String → Bool) : Host :=
  { host with
    entry := fun path => if isEnvFile path then .missing else host.entry path
    environment := host.environment.filled host.bindings
    envFile := none }

theorem Host.bare_environment (host : Host) (isEnvFile : String → Bool) :
    (host.bare isEnvFile).environment = host.extended.environment := (extended_environment host).symm

/-! ## The command line -/

namespace CommandLine

/-- **The options that variables stand in for**, each with its variable. -/
def replaceable : List (String × String) :=
  [("config", "TABLES_AUTHZ_CONFIG"), ("log-level", "TABLES_AUTHZ_LOG_LEVEL"), ("user", "TABLES_AUTHZ_USER")]

/-- **Arguments that give an option**, before anything ends their reading. -/
def Gives (args : List String) (option : String) : Prop :=
  ∃ value, .option option value ∈ (scan settingsGrammar args).1

/-- What is given for an option before the name of a command. -/
def Settings.given? (s : Settings) (option : String) : Option String :=
  match option with
  | "config" => s.config
  | "log-level" => s.logLevel
  | "user" => s.user
  | _ => none

/-- **What is taken before the name of a command** is a value for an option that has none. -/
theorem Settings.take_eq_ok {s s' : Settings} {item : Item} (h : s.take item = .ok s') :
    ∃ option value, item = .option option value ∧ s.given? option = none ∧
      ∀ other, s'.given? other = if other = option then some value else s.given? other := by
  unfold take at h
  split at h
  · obtain ⟨v, ho, rfl⟩ := map_eq_ok.1 h
    obtain ⟨hn, rfl⟩ := once_eq_ok.1 ho
    exact ⟨_, _, rfl, hn, fun other => by unfold given?; split <;> simp_all⟩
  · obtain ⟨v, ho, rfl⟩ := map_eq_ok.1 h
    obtain ⟨hn, rfl⟩ := once_eq_ok.1 ho
    exact ⟨_, _, rfl, hn, fun other => by unfold given?; split <;> simp_all⟩
  · obtain ⟨v, ho, rfl⟩ := map_eq_ok.1 h
    obtain ⟨hn, rfl⟩ := once_eq_ok.1 ho
    exact ⟨_, _, rfl, hn, fun other => by unfold given?; split <;> simp_all⟩
  · cases h
  · cases h

/-- **What is given stays given.** -/
theorem Settings.given?_of_mem : ∀ {items : List Item} {s s' : Settings}, items.foldlM take s = .ok s' →
    ∀ {option : String}, ((s.given? option).isSome ∨ ∃ value, .option option value ∈ items) →
      (s'.given? option).isSome
  | [], s, s', h, option, hg => by
    obtain rfl := Except.ok.inj h
    exact hg.resolve_right fun ⟨_, hm⟩ => nomatch hm
  | item :: items, s, s', h, option, hg => by
    rw [List.foldlM_cons] at h
    cases ht : s.take item with
    | error e => rw [ht] at h; cases h
    | ok next =>
      rw [ht] at h
      replace h : items.foldlM take next = .ok s' := h
      obtain ⟨taken, value, rfl, -, hn⟩ := take_eq_ok ht
      refine given?_of_mem h ?_
      rw [hn]
      split
      · exact .inl rfl
      · rename_i hne
        refine hg.imp_right fun ⟨v, hm⟩ => ⟨v, (List.mem_cons.1 hm).resolve_left fun he => hne ?_⟩
        cases he
        rfl

theorem orVariable_congr {env env' : Environment} {name : String} {given : Option String}
    (h : given = none → env.get? name = env'.get? name) : orVariable env name given = orVariable env' name given := by
  cases given with
  | some v => rfl
  | none => rw [orVariable, orVariable, h rfl]

/-- Of an environment only the variables count that stand in for options that are not given. -/
theorem Settings.withEnvironment_congr {s : Settings} {env env' : Environment}
    (h : ∀ option name, (option, name) ∈ replaceable → s.given? option = none → env.get? name = env'.get? name) :
    s.withEnvironment env = s.withEnvironment env' := by
  have hconfig : orVariable env "TABLES_AUTHZ_CONFIG" s.config = orVariable env' "TABLES_AUTHZ_CONFIG" s.config :=
    orVariable_congr (h "config" _ (by decide))
  have hlevel : orVariable env "TABLES_AUTHZ_LOG_LEVEL" s.logLevel =
      orVariable env' "TABLES_AUTHZ_LOG_LEVEL" s.logLevel := orVariable_congr (h "log-level" _ (by decide))
  have huser : orVariable env "TABLES_AUTHZ_USER" s.user = orVariable env' "TABLES_AUTHZ_USER" s.user :=
    orVariable_congr (h "user" _ (by decide))
  rw [withEnvironment, withEnvironment, hconfig, hlevel, huser]

theorem Request.read_congr {args : List String} {env env' : Environment}
    (h : ∀ option name, (option, name) ∈ replaceable → ¬ Gives args option → env.get? name = env'.get? name) :
    Request.read env args = Request.read env' args := by
  unfold Request.read
  rcases hscan : scan settingsGrammar args with ⟨items, ending⟩
  dsimp only
  cases hf : items.foldlM Settings.take {} with
  | error notice => rfl
  | ok s =>
    have hs : s.withEnvironment env = s.withEnvironment env' := by
      refine Settings.withEnvironment_congr fun option name hp hnone => h option name hp fun ⟨value, hm⟩ => ?_
      rw [hscan] at hm
      have hg := Settings.given?_of_mem hf (.inr ⟨value, hm⟩)
      rw [hnone] at hg
      cases hg
    cases ending with
    | command name rest =>
      refine congrArg (readNamed name rest >>= ·) (funext fun command => ?_)
      rw [hs]
    | done => rfl
    | help => rfl
    | version => rfl
    | fault complaint => rfl

/-! ## Runs -/

variable {host host' : Host} {args : List String} {isEnvFile : String → Bool} {order : TableOrder} {option name : String}

/-- An outcome rests on the request, on the room for its configuration and on that configuration, and help on its host. -/
theorem outcomeOn_congr (hr : Request.read host.environment args = Request.read host'.environment args)
    (hm : ∀ r, Request.read host.environment args = .ok r →
      Config.hasRoom host r.settings.config = Config.hasRoom host' r.settings.config)
    (hl : ∀ r, Request.read host.environment args = .ok r →
      Config.load host r.settings.config = Config.load host' r.settings.config)
    (hh : Request.read host.environment args = .error .help →
      host.help args host.environment = host'.help args host'.environment) :
    outcomeOn host args = outcomeOn host' args := by
  unfold outcomeOn
  rw [← hr]
  cases h : Request.read host.environment args with
  | error notice =>
    cases notice with
    | help => exact congrArg (Notice.outcome · .help) (hh h)
    | version => rfl
    | refused complaint => rfl
  | ok r =>
    show r.outcome host = r.outcome host'
    rw [Request.outcome, Request.outcome, hm r h, hl r h]

theorem code_of_help (h : Request.read host.environment args = .error .help) : (outcomeOn host args).code = 0 := by
  rw [outcomeOn, h]
  rfl

/-- **A variable that stands in for an option that is given changes no outcome**, but for what help shows of it. -/
theorem outcomeOn_sameBut (hp : (option, name) ∈ replaceable) (hg : Gives args option) {env : Environment}
    (he : env.SameBut name host.environment) :
    (outcomeOn (host.withEnvironment env) args).code = (outcomeOn host args).code ∧
    (Request.read host.environment args ≠ .error .help →
      outcomeOn (host.withEnvironment env) args = outcomeOn host args) := by
  have hread : Request.read env args = Request.read host.environment args := by
    refine Request.read_congr fun option' name' hp' hn => he.get? fun h => hn ?_
    -- no variable stands in for two options
    have hall : ∀ p ∈ replaceable, ∀ q ∈ replaceable, p.2 = q.2 → p.1 = q.1 := by decide
    have ho : option' = option := hall _ hp' _ hp h
    rwa [ho]
  have hn : ¬ Config.NamesSetting name ∧ "HOME" ≠ name := by
    have hall : ∀ p ∈ replaceable, p.2 ∈ standIns ∧ "HOME" ≠ p.2 := by decide
    exact (hall _ hp).imp_left (Config.not_namesSetting_of_standIn name)
  have hlayers (choice : Option String) : Config.SameLayers (host.withEnvironment env) host choice :=
    Config.sameLayers_of_sameBut hn.1 hn.2 he
  have hsame (hh : Request.read host.environment args ≠ .error .help) :
      outcomeOn (host.withEnvironment env) args = outcomeOn host args :=
    outcomeOn_congr hread (fun r _ => (hlayers r.settings.config).hasRoom_eq)
      (fun r _ => (hlayers r.settings.config).load_eq rfl) fun h => absurd (hread.symm.trans h) hh
  refine ⟨?_, hsame⟩
  by_cases hh : Request.read host.environment args = .error .help
  · have hh' : Request.read (host.withEnvironment env).environment args = .error .help := hread.trans hh
    rw [code_of_help hh, code_of_help hh']
  · rw [hsame hh]

theorem starts_congr (hc : host.canStart = host'.canStart)
    (hw : host.environment.get? workersVariable = host'.environment.get? workersVariable)
    (hs : host.environment.get? stackVariable = host'.environment.get? stackVariable) :
    starts host = starts host' := by
  rw [starts, starts, hc, hw, hs]

theorem breaksOff_bare (hs : starts host.extended = starts host)
    (hn : host.environment.takesNull host.bindings = false) :
    breaksOff ((host.bare isEnvFile).ordered order) = breaksOff host := by
  have hb : starts ((host.bare isEnvFile).ordered order) = starts host.extended :=
    starts_congr rfl (congrArg (Environment.get? · _) (host.bare_environment isEnvFile))
      (congrArg (Environment.get? · _) (host.bare_environment isEnvFile))
  rw [breaksOff_of_no_file rfl, hb, hs, breaksOff, hn, Bool.or_false]

/-- **A run is the run without its file `.env`**, on the environment that is filled up from it. -/
theorem run_bare (he : ∀ path, isEnvFile path = true → host.entry path ≠ .missing)
    (hu : ∀ r path, Request.read host.extended.environment args = .ok r →
      Config.InUse host.extended r.settings.config path → isEnvFile path = false)
    (hs : starts host.extended = starts host) (hn : host.environment.takesNull host.bindings = false)
    (ho : ∀ r, Request.read host.extended.environment args = .ok r →
      Config.Alike (fun o => Config.load (host.extended.ordered o) r.settings.config) order host.order) :
    run ((host.bare isEnvFile).ordered order) args = run host args := by
  cases hb : breaksOff host with
  | true => rw [run_of_brokenOff hb, run_of_brokenOff ((breaksOff_bare hs hn).trans hb)]
  | false =>
    have hx : ((host.bare isEnvFile).ordered order).extended = (host.bare isEnvFile).ordered order :=
      Host.extended_of_no_file rfl
    have henv : ((host.bare isEnvFile).ordered order).environment = host.extended.environment :=
      host.bare_environment isEnvFile
    rw [run_of_started hb, run_of_started ((breaksOff_bare hs hn).trans hb), hx]
    have hlayers (r : Request) (hr : Request.read host.extended.environment args = .ok r) :
        Config.SameLayers ((host.bare isEnvFile).ordered order) (host.extended.ordered order) r.settings.config :=
      Config.sameLayers_of_kept (Config.home?_congr (congrArg (Environment.get? · _) henv) rfl) (fun _ => rfl) he
        (fun path hi => hu r path hr hi) (congrArg Config.variableSettings henv) rfl
    refine outcomeOn_congr (by rw [henv]) (fun r hr => ?_) (fun r hr => ?_) fun _ => ?_
    · rw [henv] at hr
      exact (hlayers r hr).hasRoom_eq
    · rw [henv] at hr
      exact ((hlayers r hr).load_eq rfl).trans (ho r hr).eq
    · exact congrArg (host.help args) henv

theorem run_sameBut (hf : host.envFile = none) (hp : (option, name) ∈ replaceable) (hg : Gives args option)
    {env : Environment} (he : env.SameBut name host.environment) :
    (run (host.withEnvironment env) args).code = (run host args).code ∧
    (Request.read host.environment args ≠ .error .help →
      run (host.withEnvironment env) args = run host args) := by
  have hstart : workersVariable ≠ name ∧ stackVariable ≠ name := by
    have hall : ∀ p ∈ replaceable, workersVariable ≠ p.2 ∧ stackVariable ≠ p.2 := by decide
    exact hall _ hp
  have hstarts : starts (host.withEnvironment env) = starts host :=
    starts_congr rfl (he.get? hstart.1) (he.get? hstart.2)
  have hf' : (host.withEnvironment env).envFile = none := hf
  unfold run
  rw [breaksOff_of_no_file hf, breaksOff_of_no_file hf', hstarts, Host.extended_of_no_file hf,
    Host.extended_of_no_file hf']
  split
  · exact ⟨rfl, fun _ => rfl⟩
  · exact outcomeOn_sameBut hp hg he

/-- **Where the settings of a run come from.**  A run is the run without its file `.env`, on the environment that is
filled up from it, unless that file gives a null character or is in use as a configuration.  A run starts before the file
counts, so that environment must not settle anew whether it does; and two runs may go through their tables in two orders
if what they load does not hang on that.  Of that environment, a variable that stands in for an option that the arguments
give may have any values or none: the code is the same, and so is what is printed, but for the help that shows it. -/
theorem run_precedence (he : ∀ path, isEnvFile path = true → host.entry path ≠ .missing)
    (hu : ∀ r path, Request.read host.extended.environment args = .ok r →
      Config.InUse host.extended r.settings.config path → isEnvFile path = false)
    (hs : starts host.extended = starts host) (hn : host.environment.takesNull host.bindings = false)
    (ho : ∀ r, Request.read host.extended.environment args = .ok r →
      Config.Alike (fun o => Config.load (host.extended.ordered o) r.settings.config) order host.order) :
    run ((host.bare isEnvFile).ordered order) args = run host args ∧
    ∀ option name, (option, name) ∈ replaceable → Gives args option →
      ∀ env : Environment, env.SameBut name (host.bare isEnvFile).environment →
        (run (((host.bare isEnvFile).ordered order).withEnvironment env) args).code = (run host args).code ∧
        (Request.read host.extended.environment args ≠ .error .help →
          run (((host.bare isEnvFile).ordered order).withEnvironment env) args = run host args) := by
  have hb : run ((host.bare isEnvFile).ordered order) args = run host args := run_bare he hu hs hn ho
  refine ⟨hb, fun option name hp hg env henv => ?_⟩
  obtain ⟨hcode, hsame⟩ := run_sameBut (show ((host.bare isEnvFile).ordered order).envFile = none from rfl) hp hg henv
  rw [hb] at hcode hsame
  rw [← host.bare_environment isEnvFile]
  exact ⟨hcode, hsame⟩

/-- A file `.env` that asks for two threads, gives one name twice, gives a name that the environment has, and cannot be
read to its end. -/
def dotText : String :=
  "TOKIO_WORKER_THREADS=2\nTABLES_AUTHZ_USER=ann\nTABLES_AUTHZ_CONFIG=b\nexport TABLES_AUTHZ_USER=bob\n?\nHOME=/\n"

def dotHost : Host where
  entry path := if path = "acls.toml" then .file Config.warnFile else if path = ".env" then .file dotText else .missing
  environment := [("TABLES_AUTHZ_CONFIG", "acls.toml")]
  envFile := some dotText

theorem bindings_dotHost : dotHost.bindings = [("TOKIO_WORKER_THREADS", "2"), ("TABLES_AUTHZ_USER", "ann"),
    ("TABLES_AUTHZ_CONFIG", "b"), ("TABLES_AUTHZ_USER", "bob")] := by
  decide +kernel

theorem extended_dotHost : dotHost.extended.environment = [("TABLES_AUTHZ_CONFIG", .text "acls.toml"),
    ("TOKIO_WORKER_THREADS", .text "2"), ("TABLES_AUTHZ_USER", .text "ann")] := by
  rw [Host.extended_environment, bindings_dotHost]
  rfl

def eveOfTrips : List String := ["-ueve", "check", "-t", "trips", "read_row"]

/-- Eve gives her name, so that neither name of the file counts; the configuration is that of the environment. -/
theorem run_precedence_of_eve :
    (∀ order, run ((dotHost.bare (· == ".env")).ordered order) eveOfTrips = run dotHost eveOfTrips ∧
      run (((dotHost.bare (· == ".env")).ordered order).withEnvironment
        [("TABLES_AUTHZ_CONFIG", .text "acls.toml"), ("TOKIO_WORKER_THREADS", .text "2")]) eveOfTrips =
        run dotHost eveOfTrips) ∧
    run dotHost eveOfTrips = ⟨1, "denied: Denied table trips permission READ_ROW to user eve\n", ""⟩ := by
  have hr : Request.read dotHost.extended.environment eveOfTrips =
      .ok ⟨⟨some "acls.toml", none, some "eve"⟩, .check ⟨"trips"⟩ .readRow⟩ := by
    rw [extended_dotHost]
    rfl
  have hentry : dotHost.extended.entry "acls.toml" = .file Config.warnFile := by
    rw [Host.extended_entry]
    simp only [dotHost, if_true]
  have hv : Config.variableSettings dotHost.extended.environment = .ok [] :=
    Config.variableSettings_eq_nil (by rw [extended_dotHost]; decide)
  have hfile := (Config.fileSettings_of_chosen (Config.filePath?_of_file hentry) hentry).trans
    Config.textSettings_warnFile
  have hl (order : TableOrder) :
      Config.load (dotHost.extended.ordered order) (some "acls.toml") = .ok Config.warnConfig := by
    have hf : (dotHost.extended.ordered order).entry "acls.toml" = .file Config.warnFile := hentry
    have hnone : Config.variableSettings (dotHost.extended.ordered order).environment = .ok [] := hv
    rw [Config.load_of_no_settings hf hnone]
    exact Config.ofText_warnFile order
  have he : ∀ path, (path == ".env") = true → dotHost.entry path ≠ .missing := by
    intro path hp
    rw [beq_iff_eq.1 hp]
    exact Entry.noConfusion
  have hu : ∀ r path, Request.read dotHost.extended.environment eveOfTrips = .ok r →
      Config.InUse dotHost.extended r.settings.config path → (path == ".env") = false := by
    rintro r path h ⟨chosen, hc, hin⟩
    obtain rfl := Except.ok.inj (hr.symm.trans h)
    obtain rfl : "acls.toml" = chosen :=
      Option.some.inj (Except.ok.inj ((Config.filePath?_of_file hentry).symm.trans hc))
    rcases hin with rfl | ⟨hd, -⟩
    · decide
    · cases hd
  have hs : starts dotHost.extended = starts dotHost := by
    rw [starts, extended_dotHost]
    rfl
  have hn : dotHost.environment.takesNull dotHost.bindings = false := by
    rw [bindings_dotHost]
    decide
  have ho (order : TableOrder) : ∀ r, Request.read dotHost.extended.environment eveOfTrips = .ok r →
      Config.Alike (fun o => Config.load (dotHost.extended.ordered o) r.settings.config) order dotHost.order := by
    intro r h
    obtain rfl := Except.ok.inj (hr.symm.trans h)
    exact .inr fun o o' => (hl o).trans (hl o').symm
  have henv : Environment.SameBut "TABLES_AUTHZ_USER"
      [("TABLES_AUTHZ_CONFIG", .text "acls.toml"), ("TOKIO_WORKER_THREADS", .text "2")]
      (dotHost.bare (· == ".env")).environment := by
    rw [Host.bare_environment, extended_dotHost]
    rfl
  have hh : Request.read dotHost.extended.environment eveOfTrips ≠ .error .help := by rw [hr]; nofun
  refine ⟨fun order => ?_, ?_⟩
  · obtain ⟨hbare, hsame⟩ := run_precedence he hu hs hn (ho order)
    exact ⟨hbare, (hsame "user" _ (by decide) ⟨"eve", by decide⟩ _ henv).2 hh⟩
  · have hload := hl dotHost.extended.order
    rw [Host.ordered_self] at hload
    have hloads : Loads dotHost (some "acls.toml") Config.warnConfig :=
      { started := by rw [breaksOff, hn]; rfl
        room := (Config.hasRoom_eq hfile hv).trans (by decide)
        loaded := hload }
    rw [run_of_load hloads hr]
    decide

/-- A host with no file but `.env`, which asks for no threads. -/
def workersHost : Host := (FileTree.dotTree "TOKIO_WORKER_THREADS=0\n").host []

/-- The same host without that file, whose value is in the environment. -/
def givenHost : Host :=
  (((FileTree.dotTree "TOKIO_WORKER_THREADS=0\n").without ".env").host []).withEnvironment
    [("TOKIO_WORKER_THREADS", .text "0")]

/-- **The file comes too late to settle how many threads there are**, which the same value in the environment does. -/
theorem run_precedence_of_workers :
    givenHost.environment = workersHost.environment.filled workersHost.bindings ∧ givenHost.envFile = none ∧
    (run workersHost ["roles"]).code = 0 ∧ (run givenHost ["roles"]).code = 101 := by
  have hb : workersHost.bindings = [("TOKIO_WORKER_THREADS", "0")] := by
    rw [workersHost, FileTree.bindings_dotTree]
    decide +kernel
  have hfilled : givenHost.environment = workersHost.environment.filled workersHost.bindings := by
    rw [hb]
    rfl
  have hnone : givenHost.envFile = none :=
    FileTree.envFile_without_dot (FileTree.hasFile_dotTree "TOKIO_WORKER_THREADS=0\n") []
  refine ⟨hfilled, hnone, ?_, ?_⟩
  · have hx : workersHost.extended = workersHost.withEnvironment givenHost.environment := by
      rw [Host.extended_eq, Host.extended_environment, hfilled]
    have hr : Request.read workersHost.extended.environment ["roles"] = .ok ⟨{}, .roles⟩ := by
      rw [hx]
      rfl
    have hv : Config.variableSettings [("TOKIO_WORKER_THREADS", .text "0")] = .ok [] :=
      Config.variableSettings_eq_nil (by decide)
    have hloads : Loads workersHost none {} :=
      { started := by rw [breaksOff, hb]; rfl
        room := by rw [hx]; exact Config.hasRoom_dotTree rfl hv
        loaded := by rw [hx]; exact Config.load_dotTree rfl hv }
    rw [run_of_load hloads hr]
    rfl
  · have hstarts : starts givenHost = false := rfl
    rw [run_of_brokenOff (by rw [breaksOff_of_no_file hnone, hstarts]; rfl)]
    rfl

/-! ## Trees of files -/

/-- **A run on a tree of files** is the run on the tree without the file `.env` in its root, on the environment that is
filled up from it, unless that file gives a null character or is in use as a configuration. -/
theorem run_tree {t : FileTree} {text : String} {env : List (String × String)} (h : t.HasFile ".env" text)
    (hu : ∀ r path, Request.read (t.host env).extended.environment args = .ok r →
      Config.InUse (t.host env).extended r.settings.config path → (t.without ".env").entry path = t.entry path)
    (hs : starts (t.host env).extended = starts (t.host env))
    (hn : (t.host env).environment.takesNull (t.host env).bindings = false) :
    run (t.host env) args =
      run (((t.without ".env").host []).withEnvironment ((t.host env).environment.filled (t.host env).bindings)) args := by
  let gone (path : String) : Bool := decide ((t.without ".env").entry path ≠ t.entry path)
  have hgone : ∀ path, gone path = true → t.entry path = .file text ∧ (t.without ".env").entry path = .missing :=
    fun path hg => (FileTree.entry_without h path).resolve_left (of_decide_eq_true hg)
  have hentry : ((t.host env).bare gone).entry = ((t.without ".env").host []).entry := by
    funext path
    show (if gone path then Entry.missing else t.entry path) = (t.without ".env").entry path
    split
    · rename_i hg
      exact (hgone path hg).2.symm
    · rename_i hg
      exact (by simpa [gone] using hg : (t.without ".env").entry path = t.entry path).symm
  have hbare : (t.host env).bare gone =
      ((t.without ".env").host []).withEnvironment ((t.host env).environment.filled (t.host env).bindings) := by
    rw [Host.withEnvironment, ← hentry, FileTree.envFile_without_dot h]
    rfl
  rw [← hbare]
  refine (run_bare (fun path hg => ?_) (fun r path hr hi => ?_) hs hn fun r _ => .inl rfl).symm
  · rw [show (t.host env).entry path = _ from (hgone path hg).1]
    exact Entry.noConfusion
  · exact decide_eq_false fun hne => hne (hu r path hr hi)

end CommandLine
end TableAccess
