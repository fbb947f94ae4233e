import TableAccess.Config.Overlay
import TableAccess.Config.Validation
import TableAccess.Config.Variables
import TableAccess.Datum.Reading
import TableAccess.Host
import TableAccess.Toml.Document
/-!
# Loading a configuration

A configuration has three layers.  Defaults lie at the bottom, the settings of one file on top of them, and the
settings of the environment on top of all.  What the layers say together is read and then validated.  The settings of one
layer, and the members of tables, have no order of their own, and a load goes through them in one that its host gives.

The file is the one that was asked for, which must exist, or the first of the usual ones that does.  Where a directory
has its name, the file of that name with `.toml` after it is read.
-/
namespace TableAccess
namespace Config

def textSettings (text : String) : Except ConfigError (List (String × Datum)) :=
  match Toml.document text with
  | some settings => .ok settings
  | none => .error (.load (.unreadable "the file is not a TOML document"))

/-- What is read is valid, or is no configuration. -/
def ofDatum (d : Datum) : Except ConfigError Config :=
  match Reading.lenient.config d with
  | some c => (validate c).map fun _ => c
  | none => .error (.load (.unreadable "the settings do not describe a configuration"))

def ofSettings (order : TableOrder) (file added : List (String × Datum)) : Except ConfigError Config :=
  ofDatum (order.tables (applySettings (.table []) (order.file file ++ order.environment added)))

def ofText (text : String) (order : TableOrder := .listed) : Except ConfigError Config := do
  ofSettings order (← textSettings text) []

/-- The path with `.toml` after its last name, if it ends with a name. -/
def suffixed? (path : String) : Option String :=
  match (path.splitOn "/").reverse.dropWhile (fun part => part == "" || part == ".") with
  | [] => none
  | ".." :: _ => none
  | name :: above => some (String.intercalate "/" ((name ++ ".toml") :: above).reverse)

def fileText (host : Host) (path : String) : Except ConfigError String :=
  match host.entry path, (suffixed? path).map host.entry with
  | .file text, _ => .ok text
  | .garbled, _ => .error (.load (.unreadable ("configuration file \"" ++ path ++ "\" cannot be read")))
  | _, some (.file text) => .ok text
  | _, _ => .error (.load (.unreadable ("configuration file \"" ++ path ++ "\" not found")))

/-- A path in the home directory, which is not known to every host. -/
def homePath (host : Host) (path : String) : String := host.home?.getD "~" ++ "/" ++ path

/-- Where configuration files usually are, in the order in which they are looked for. -/
def usualPaths (host : Host) : List String :=
  ["tables-authz.toml", ".tables-authz.toml", homePath host ".config/tables-authz/config.toml",
    "/etc/tables-authz/config.toml"]

def filePath? (host : Host) : Option String → Except ConfigError (Option String)
  | some path => if host.hasEntry path then .ok (some path) else .error (.load (.fileNotFound path))
  | none => .ok ((usualPaths host).find? host.hasEntry)

/-- The settings of the configuration file.  Without a file there are none. -/
def fileSettings (host : Host) (path : Option String) : Except ConfigError (List (String × Datum)) := do
  match ← filePath? host path with
  | some path => textSettings (← fileText host path)
  | none => pure []

/-- Whether the lists that settings lead into can get as long as they must. -/
def settingsFit (host : Host) (settings : List (String × Datum)) : Bool :=
  settings.all fun setting => (address setting.1).all fun step => step.reach ≤ host.longest

/-- Whether there is room for what a load puts together.  The settings of the environment count where the file can be
read. -/
def hasRoom (host : Host) (path : Option String) : Bool :=
  match fileSettings host path with
  | .error _ => true
  | .ok file =>
    settingsFit host file &&
      match variableSettings host.environment with
      | .error _ => true
      | .ok added => settingsFit host added

/-- The configuration that a file and the environment describe, if there is room for it. -/
def load (host : Host) (path : Option String) : Except ConfigError Config := do
  let file ← fileSettings host path
  ofSettings host.order file (← variableSettings host.environment)

end Config
end TableAccess
