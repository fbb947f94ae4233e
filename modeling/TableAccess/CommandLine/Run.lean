import TableAccess.CommandLine.Request
import TableAccess.Config.Load
import TableAccess.EnvFile
import TableAccess.UserAccess
/-!
# Carrying out a command

A run starts its threads, reads the environment file, then the command line, then the configuration, and carries out the
command on the configured records.  Nobody is a member of a group here.

What is printed is the answer to the command and nothing else.  The exit code tells the answers apart: 0 when the
command has done its work or access is allowed, 1 when it is denied, and 2 when there is no answer, in which case
nothing is printed.  A run that cannot start its threads, or take over a value of the environment file, breaks off with
101 before it has read the command line, and so does one that has read it but has no room for the configuration.
-/
namespace TableAccess
namespace CommandLine

/-- The answer to a command: whether it is yes, and the lines that tell it. -/
structure Answer where
  yes   : Bool
  lines : List String
  deriving DecidableEq, Repr

structure Outcome where
  code   : Nat
  stdout : String
  /-- Why there is no answer. -/
  stderr : String
  deriving DecidableEq, Repr

def checkAnswer : Except AccessError Unit → Except String Answer
  | .ok () => .ok ⟨true, ["allowed"]⟩
  | .error (.denied denial) => .ok ⟨false, ["denied: " ++ denial.message]⟩
  | .error (.storeUnavailable e) => .error e.message

def roleLines (r : Role) : List String :=
  [r.name ++ ": " ++ r.description, "  " ++ String.intercalate ", " (r.permissions.map Permission.name)]

def Command.answer (user : Option UserId) (store : AclStore) : Command → Except String Answer
  | .permissions table =>
    match ((Checker.new table user).permissions (.ofStore .none) store).1 with
    | .ok held => .ok ⟨true, held.toList.map Permission.name⟩
    | .error e => .error e.message
  | .check table permission =>
    checkAnswer ((UserAccess.new user).checkPermission (.ofStore .none) table permission store).1
  | .has table permission =>
    match ((UserAccess.new user).hasPermission (.ofStore .none) table permission store).1 with
    | .ok held => .ok ⟨held, [toString held]⟩
    | .error e => .error e.message
  | .filter table permission row scope =>
    checkAnswer ((UserAccess.new user).checkFilter (.ofStore .none) table permission row scope store).1
  | .scopes =>
    match ((UserAccess.new user).scopes (.ofStore .none) store).1 with
    | .ok found => .ok ⟨true, found.map Scope.text⟩
    | .error e => .error e.message
  | .roles => .ok ⟨true, Role.all.flatMap roleLines⟩

def Outcome.failed (complaint : String) : Outcome := ⟨2, "", "error: " ++ complaint ++ "\n"⟩

def Answer.outcome (a : Answer) : Outcome :=
  ⟨if a.yes then 0 else 1, String.join (a.lines.map (· ++ "\n")), ""⟩

def versionText : String := "tables-authz 0.1.0\n"

def Notice.outcome (help : String) : Notice → Outcome
  | .help => ⟨0, help, ""⟩
  | .version => ⟨0, versionText, ""⟩
  | .refused complaint => .failed complaint

def Outcome.brokenOff : Outcome := ⟨101, "", "the run broke off\n"⟩

def Request.outcome (host : Host) (r : Request) : Outcome :=
  if !Config.hasRoom host r.settings.config then .brokenOff
  else
    match Config.load host r.settings.config with
    | .error e => .failed e.message
    | .ok config =>
      match config.store with
      | .error e => .failed e.message
      | .ok store =>
        match r.command.answer (r.settings.user.map UserId.mk) store with
        | .error complaint => .failed complaint
        | .ok a => a.outcome

/-- The outcome of a command line on a host whose environment is complete. -/
def outcomeOn (host : Host) (args : List String) : Outcome :=
  match Request.read host.environment args with
  | .error notice => notice.outcome (host.help args host.environment)
  | .ok request => request.outcome host

/-- The variable that says how many worker threads a run is to have. -/
def workersVariable : String := "TOKIO_WORKER_THREADS"

/-- The variable that says how large the stack of a thread is to be. -/
def stackVariable : String := "RUST_MIN_STACK"

/-- A number of threads: one at least, and of 64 bits at most. -/
def workerCount? (text : String) : Option Nat :=
  let ds := match text.toList with
    | '+' :: ds => ds
    | ds => ds
  let n := Decimal.natOfDigits ds
  if !ds.isEmpty && ds.all Char.isDigit && 0 < n && n < 0x10000000000000000 then some n else none

/-- Whether a run gets the threads that it is to have. -/
def starts (host : Host) : Bool :=
  let stack := host.environment.get? stackVariable
  match host.environment.get? workersVariable with
  | none => host.canStart none stack
  | some (.text s) => (workerCount? s).any fun n => host.canStart (some n) stack
  | some .garbled => false

/-- Whether a run ends before it has read its arguments. -/
def breaksOff (host : Host) : Bool := !starts host || host.environment.takesNull host.bindings

def run (host : Host) (args : List String) : Outcome :=
  if breaksOff host then .brokenOff else outcomeOn host.extended args

end CommandLine
end TableAccess
