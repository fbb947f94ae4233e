import TableAccess.EnvFile.Lines
import TableAccess.EnvFile.Value
import TableAccess.Host
/-!
# Environment files

An environment file gives values to names, one on each line, and the word `export` may stand before a name.  A name
can be used in the values after it.  The reading stops at the first line that cannot be read, and what came before it
counts.
-/
namespace TableAccess
namespace EnvFile

def isKeyChar (c : Char) : Bool := c.isAlphanum || c == '_' || c == '.'

def key? : List Char → Option (String × List Char)
  | [] => none
  | c :: cs =>
    if c.isAlpha || c == '_' then
      some (String.ofList (c :: cs.takeWhile isKeyChar), Text.skipBlank (cs.dropWhile isKeyChar))
    else none

/-- The name that a line begins with, and what is left.  The word `export` is a name only before an equals sign. -/
def lineKey? (cs : List Char) : Option (String × List Char) := do
  let (key, rest) ← key? cs
  if key == "export" && rest.head? != some '=' then key? rest else some (key, rest)

def isBare : List Char → Bool
  | [] => true
  | c :: _ => c == '#'

def line? (env : Environment) (line : List Char) : Option (Option (String × String)) :=
  let cs := Text.skipBlank (Text.dropEnd line)
  if isBare cs then some none
  else do
    match ← lineKey? cs with
    | (key, '=' :: rest) =>
      let rest := Text.skipBlank rest
      if isBare rest then some (some (key, ""))
      else some (some (key, String.ofList (← value? env .plain false rest)))
    | _ => none

def pairsOf (env : Environment) : List (Option (List Char)) → List (String × String)
  | [] => []
  | line :: rest =>
    match line.bind (line? env) with
    | none => []
    | some none => pairsOf env rest
    | some (some (key, value)) => (key, value) :: pairsOf (env.extend key value) rest

/-- The names and values of a file, up to the first line that cannot be read.  Names in values stand for what the
environment and the lines before give them. -/
def pairs (env : Environment) (text : String) : List (String × String) := pairsOf env (lines text)

end EnvFile

/-- The names and values of the nearest file `.env`, if there is one. -/
def Host.bindings (host : Host) : List (String × String) :=
  match host.envFile with
  | none => []
  | some text => EnvFile.pairs host.environment text

/-- The environment of a run, in which the nearest file `.env` gives texts to names that have none. -/
def Host.extended (host : Host) : Host :=
  { host with environment := host.environment.extendAll host.bindings }

end TableAccess
