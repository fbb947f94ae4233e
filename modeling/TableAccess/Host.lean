import TableAccess.Datum
/-!
# What a run can see

A run sees the files of its host, by any path from the working directory or from the top, and an environment.  It
changes neither, so all that matters of a file is what stands at a path when the run begins.

An environment gives values to names.  A value need not be a text: it may be bytes that stand for no characters.  The
environment can be extended by further values, which never replace a text that is there.

Some of what a run does is settled by its host alone: in which order it goes through tables that have none, how many
threads it can have, how long a list can get, and how its help is set.
-/
namespace TableAccess

/-! ## Environments -/

/-- The value of a name in an environment. -/
inductive EnvValue where
  | text (s : String)
  /-- Bytes that stand for no characters. -/
  | garbled
  deriving DecidableEq, Repr

instance : Coe String EnvValue := ⟨.text⟩

/-- Values of names.  The first value of a name counts. -/
abbrev Environment := List (String × EnvValue)

namespace Environment

def ofTexts (pairs : List (String × String)) : Environment := pairs.map fun (name, value) => (name, .text value)

def get? (env : Environment) (name : String) : Option EnvValue := memberOf? name env

def text? (env : Environment) (name : String) : Option String :=
  match env.get? name with
  | some (.text s) => some s
  | _ => none

/-- Gives a text to a name that has none. -/
def extend (env : Environment) (name value : String) : Environment :=
  if (env.text? name).isSome then env else setMember name (.text value) env

/-- Gives texts to names that have none.  Of several texts for one name the first counts. -/
def extendAll (env : Environment) (pairs : List (String × String)) : Environment :=
  pairs.foldl (fun env (name, value) => env.extend name value) env

/-- Whether one of the texts that would be given to names has a null character, with which no text can stand in an
environment. -/
def takesNull : Environment → List (String × String) → Bool
  | _, [] => false
  | env, (name, value) :: rest =>
    (env.text? name).isNone && value.toList.contains '\x00' || takesNull (env.extend name value) rest

end Environment

/-! ## Orders -/

/-- In which order a load goes through tables, which have none of their own.  The settings of a file and those of an
environment come out in some order; so do, at every depth, the members of what they make together. -/
structure TableOrder where
  file : List (String × Datum) → List (String × Datum)
  environment : List (String × Datum) → List (String × Datum)
  tables : Datum → Datum
  file_perm : ∀ settings, (file settings).Perm settings
  environment_perm : ∀ settings, (environment settings).Perm settings
  tables_rearranged : ∀ d : Datum, d.Rearranged (tables d)

/-- Everything in the order in which it is written. -/
def TableOrder.listed : TableOrder := ⟨id, id, id, .refl, .refl, .refl⟩

/-! ## Hosts -/

inductive Entry where
  | missing
  | directory
  | file (text : String)
  /-- A file that has no text, or that cannot be read. -/
  | garbled
  deriving DecidableEq, Repr

/-- The surroundings of a run. -/
structure Host where
  entry       : String → Entry
  environment : Environment
  /-- The text of the nearest file `.env`, up to the first line that is no text: in the working directory, or else in
  the first directory above that has one. -/
  envFile     : Option String
  /-- The home directory of the account, as far as it is known. -/
  accountHome : Option String := none
  /-- Whether a run can have so many worker threads, or, without a number, as many as there are processors, with what
  the environment says about the size of their stacks. -/
  canStart    : Option Nat → Option EnvValue → Bool := fun _ _ => true
  order       : TableOrder := .listed
  /-- How long a list can get. -/
  longest     : Nat := 0x7fffffffffffffff
  /-- The help on these arguments, which shows some of the environment. -/
  help        : List String → Environment → String := fun _ _ => ""

namespace Host

def hasEntry (host : Host) (path : String) : Bool := host.entry path != .missing

/-- The home directory: the one that the environment names, or that of the account where it names none. -/
def home? (host : Host) : Option String :=
  match host.environment.get? "HOME" with
  | none => host.accountHome
  | some (.text "") => host.accountHome
  | some (.text home) => some home
  | some .garbled => none

end Host
end TableAccess
