import TableAccess.CommandLine.Run
/-!
# The program

Reads what a run can see, lets `CommandLine.run` decide, and prints what it says.
-/
namespace TableAccess

/-- Whether the number of an error, which may be given with either sign, says that a part of a path is no directory. -/
def isNoDirectory (code : UInt32) : Bool := code == 20 || code + 20 == 0

def entryAt (path : String) : IO Entry := do
  try return .file (← IO.FS.readFile path)
  catch
    | .noFileOrDirectory .. => return .missing
    | .inappropriateType _ code _ => return if isNoDirectory code then .missing else .directory
    | _ => return .garbled

/-- The stretches of bytes between zeros. -/
def cutAtZeros (bytes : List UInt8) : List (List UInt8) := bytes.splitOnP (· == 0)

def textOf? (bytes : List UInt8) : Option String := String.fromUTF8? ⟨bytes.toArray⟩

/-- A variable that is written with an equals sign after its name.  Nothing is looked up by a name that is no text. -/
def variableOf (bytes : List UInt8) : Option (String × EnvValue) := do
  let equals : UInt8 := 61
  let (name, rest) := bytes.span (· != equals)
  guard !rest.isEmpty
  return (← textOf? name, match textOf? rest.tail with
    | some value => .text value
    | none => .garbled)

def currentEnvironment : IO Environment := do
  try return (cutAtZeros (← IO.FS.readBinFile "/proc/self/environ").toList).filterMap variableOf
  catch _ =>
    let names := ["HOME", "TABLES_AUTHZ_CONFIG", "TABLES_AUTHZ_LOG_LEVEL", "TABLES_AUTHZ_USER"]
    names.filterMapM fun name => do return (← IO.getEnv name).map (name, ·)

def nearestEnvFile : IO (Option String) := do
  for above in List.range 64 do
    if let .file text := ← entryAt (String.join (List.replicate above "../") ++ ".env") then return some text
  return none

/-- The home directory of the account that runs the program, from the list of accounts. -/
def currentHome : IO (Option String) := do
  let .file status ← entryAt "/proc/self/status" | return none
  let .file accounts ← entryAt "/etc/passwd" | return none
  let uid := (status.splitOn "\n").findSome? fun line =>
    match line.splitOn "\t" with
    | "Uid:" :: uid :: _ => some uid
    | _ => none
  return (accounts.splitOn "\n").findSome? fun line =>
    match line.splitOn ":" with
    | [_, _, id, _, _, home, _] => if some id == uid then some home else none
    | _ => none

def usage : List String := [
  "Scope-based table access control for data-collection tables",
  "",
  "Usage: tables-authz [OPTIONS] <COMMAND>",
  "",
  "Commands: " ++ String.intercalate ", " (CommandLine.CommandKind.all.map CommandLine.CommandKind.name),
  "",
  "Options:"]

def optionLine (o : CommandLine.Opt) : String :=
  let letter := match o.short with
    | some c => "-" ++ c.toString ++ ", "
    | none => "    "
  "  " ++ letter ++ "--" ++ o.long

def helpText (_ : List String) (env : Environment) : String :=
  let shown := CommandLine.standIns.map fun name => "  " ++ name ++ "=" ++ (env.text? name).getD ""
  String.join ((usage ++ CommandLine.settingsGrammar.options.map optionLine ++ ["", "Variables:"] ++ shown).map
    (· ++ "\n"))

def configPaths (host : Host) (args : List String) : List String :=
  match CommandLine.Request.read host.environment args with
  | .ok ⟨⟨some path, _, _⟩, _⟩ => [path]
  | .ok ⟨⟨none, _, _⟩, _⟩ => Config.usualPaths host
  | .error _ => []

def currentHost (args : List String) : IO Host := do
  let host : Host := {
    entry := fun _ => .missing
    environment := ← currentEnvironment
    envFile := ← nearestEnvFile
    accountHome := ← currentHome
    help := helpText }
  let paths := configPaths host.extended args
  let entries ← (paths ++ paths.filterMap Config.suffixed?).mapM fun path => return (path, ← entryAt path)
  return { host with entry := fun path => (memberOf? path entries).getD .missing }

end TableAccess

def main (args : List String) : IO UInt32 := do
  let outcome := TableAccess.CommandLine.run (← TableAccess.currentHost args) args
  IO.print outcome.stdout
  IO.eprint outcome.stderr
  return outcome.code.toUInt32
