import TableAccess.CommandLine.Scan
import TableAccess.Host
import TableAccess.Permission
import TableAccess.Scope
/-!
# What is asked for on a command line

A command line names a command.  The options before the name say which configuration to use, how to log and who asks;
where they are not given, variables of the environment stand in for them.  The options and operands after the name
are the command's own.

Each option is given once at most.  The first thing that cannot be accepted is the answer, unless a notice comes before
it.
-/
namespace TableAccess
namespace CommandLine

/-- Why no command is carried out. -/
inductive Notice where
  | help
  | version
  | refused (complaint : String)
  deriving DecidableEq, Repr

structure Settings where
  config   : Option String := none
  logLevel : Option String := none
  user     : Option String := none
  deriving DecidableEq, Repr

inductive Command where
  | permissions (table : TableId)
  | check (table : TableId) (permission : Permission)
  | has (table : TableId) (permission : Permission)
  | filter (table : TableId) (permission : Permission) (row : String) (scope : Option Scope)
  | scopes
  | roles
  deriving DecidableEq, Repr

structure Request where
  settings : Settings
  command  : Command
  deriving DecidableEq, Repr

inductive CommandKind where
  | permissions
  | check
  | has
  | filter
  | scopes
  | roles
  deriving DecidableEq, Repr

namespace CommandKind

def all : List CommandKind := [permissions, check, has, filter, scopes, roles]

def name : CommandKind → String
  | permissions => "permissions"
  | check => "check"
  | has => "has"
  | filter => "filter"
  | scopes => "scopes"
  | roles => "roles"

def ofName? (name : String) : Option CommandKind := all.find? fun kind => kind.name == name

def takesPermission : CommandKind → Bool
  | check => true
  | has => true
  | filter => true
  | _ => false

def options : CommandKind → List Opt
  | permissions => [⟨"table", some 't', .value⟩]
  | check => [⟨"table", some 't', .value⟩]
  | has => [⟨"table", some 't', .value⟩]
  | filter => [⟨"table", some 't', .value⟩, ⟨"row", none, .value⟩, ⟨"scope", none, .value⟩]
  | scopes => []
  | roles => []

end CommandKind

def helpOption : Opt := ⟨"help", some 'h', .help⟩

/-- What may stand before the name of a command. -/
def settingsGrammar : Grammar where
  options := [⟨"config", some 'c', .value⟩, ⟨"log-level", none, .value⟩, ⟨"user", some 'u', .value⟩, helpOption,
    ⟨"version", some 'V', .version⟩]
  hasCommands := true

/-- What may stand after the name of a command. -/
def CommandKind.grammar (kind : CommandKind) : Grammar := ⟨kind.options ++ [helpOption], false⟩

def refuse {α : Type} (complaint : String) : Except Notice α := .error (.refused complaint)

/-- A value for something that has none yet. -/
def once {α : Type} (name : String) (old : Option α) (new : α) : Except Notice (Option α) :=
  match old with
  | none => .ok (some new)
  | some _ => refuse (name ++ " is given more than once")

theorem once_eq_ok {α : Type} {name : String} {old r : Option α} {new : α} :
    once name old new = .ok r ↔ old = none ∧ some new = r := by
  cases old with
  | none => exact ⟨fun h => ⟨rfl, Except.ok.inj h⟩, fun ⟨_, h⟩ => congrArg Except.ok h⟩
  | some a => exact ⟨fun h => (nomatch h), fun ⟨h, _⟩ => (nomatch h)⟩

/-- Takes an option before the name of a command.  There are no operands. -/
def Settings.take (s : Settings) : Item → Except Notice Settings
  | .option "config" v => (once "--config" s.config v).map fun v => { s with config := v }
  | .option "log-level" v => (once "--log-level" s.logLevel v).map fun v => { s with logLevel := v }
  | .option "user" v => (once "--user" s.user v).map fun v => { s with user := v }
  | .option long _ => refuse ("unexpected argument '--" ++ long ++ "'")
  | .operand text => refuse ("unexpected argument '" ++ text ++ "'")

structure Draft where
  table      : Option TableId := none
  permission : Option Permission := none
  row        : Option String := none
  scope      : Option Scope := none
  deriving DecidableEq, Repr

def Draft.take (kind : CommandKind) (d : Draft) : Item → Except Notice Draft
  | .option "table" v => (once "--table" d.table ⟨v⟩).map fun v => { d with table := v }
  | .option "row" v => (once "--row" d.row v).map fun v => { d with row := v }
  | .option "scope" v => do
    let scope ← (Scope.parse v).mapError fun e => .refused e.message
    (once "--scope" d.scope scope).map fun v => { d with scope := v }
  | .option long _ => refuse ("unexpected argument '--" ++ long ++ "'")
  | .operand text =>
    if kind.takesPermission && d.permission.isNone then do
      let permission ← (Permission.parse text).mapError fun e => .refused e.message
      pure { d with permission := some permission }
    else refuse ("unexpected argument '" ++ text ++ "'")

def needed {α : Type} (name : String) : Option α → Except Notice α
  | some a => .ok a
  | none => refuse (name ++ " is missing")

def Draft.command (d : Draft) : CommandKind → Except Notice Command
  | .permissions => do pure (.permissions (← needed "--table" d.table))
  | .check => do pure (.check (← needed "--table" d.table) (← needed "the permission" d.permission))
  | .has => do pure (.has (← needed "--table" d.table) (← needed "the permission" d.permission))
  | .filter => do
    let table ← needed "--table" d.table
    let permission ← needed "the permission" d.permission
    pure (.filter table permission (← needed "--row" d.row) d.scope)
  | .scopes => pure .scopes
  | .roles => pure .roles

def readCommand (kind : CommandKind) (args : List String) : Except Notice Command := do
  let (items, ending) := scan kind.grammar args
  let draft ← items.foldlM (Draft.take kind) {}
  match ending with
  | .done => draft.command kind
  | .help => .error .help
  | .version => .error .version
  | .fault complaint => refuse complaint
  | .command name _ => refuse ("unexpected argument '" ++ name ++ "'")

/-- What the command `help` answers: it may be given the name of one command. -/
def readHelp : List String → Notice
  | [] => .help
  | [name] =>
    if (CommandKind.ofName? name).isSome || name == "help" then .help
    else .refused ("unrecognized command '" ++ name ++ "'")
  | _ => .refused "unexpected argument"

def readNamed (name : String) (args : List String) : Except Notice Command :=
  match CommandKind.ofName? name with
  | some kind => readCommand kind args
  | none => if name == "help" then .error (readHelp args) else refuse ("unrecognized command '" ++ name ++ "'")

/-- The variables that stand in for the settings that are not given. -/
def standIns : List String := ["TABLES_AUTHZ_CONFIG", "TABLES_AUTHZ_LOG_LEVEL", "TABLES_AUTHZ_USER"]

/-- What is given, or else the value of a variable, which must be a text. -/
def orVariable (env : Environment) (name : String) : Option String → Except Notice (Option String)
  | some v => .ok (some v)
  | none =>
    match env.get? name with
    | none => .ok none
    | some (.text v) => .ok (some v)
    | some .garbled => refuse ("the value of the variable " ++ name ++ " is no text")

/-- The settings with the variables that stand in for those that are not given. -/
def Settings.withEnvironment (s : Settings) (env : Environment) : Except Notice Settings := do
  let config ← orVariable env "TABLES_AUTHZ_CONFIG" s.config
  let logLevel ← orVariable env "TABLES_AUTHZ_LOG_LEVEL" s.logLevel
  let user ← orVariable env "TABLES_AUTHZ_USER" s.user
  pure ⟨config, logLevel, user⟩

def Request.read (env : Environment) (args : List String) : Except Notice Request := do
  let (items, ending) := scan settingsGrammar args
  let settings ← items.foldlM Settings.take {}
  match ending with
  | .command name rest => do
    let command ← readNamed name rest
    let settings ← settings.withEnvironment env
    pure ⟨settings, command⟩
  | .help => .error .help
  | .version => .error .version
  | .fault complaint => refuse complaint
  | .done => refuse "a command is missing"

end CommandLine
end TableAccess
