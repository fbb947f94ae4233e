import TableAccess.Decimal
import TableAccess.Decimal.Positional
import TableAccess.Error
import TableAccess.Host
import TableAccess.Text
/-!
# Settings from the environment

A variable whose name begins with `TABLES_AUTHZ__`, in any letter case, is a setting.  The rest of the name, in lower
case and with a dot for each two underscores, is the key.  Of several variables with one key the last counts; a value
that is no text fails all of them.

A value is read as a truth value, else as an integer of 64 bits, else as a binary64 number, else it is a text.  A
truth value or a number counts as the text that it is shown with.
-/
namespace TableAccess
namespace Config

def variablePrefix : List Char := "tables_authz__".toList

/-- The lower case of a character of a name.  The sign for kelvin is the one character beyond A to Z whose lower case
is among a to z. -/
def lowerNameChar (c : Char) : Char := if c == '\u212a' then 'k' else c.toLower

/-- Puts a dot for each two underscores, from the left. -/
def dotted : List Char → List Char
  | '_' :: '_' :: cs => '.' :: dotted cs
  | c :: cs => c :: dotted cs
  | [] => []

def variableKey? (name : String) : Option String :=
  let cs := name.toList.map lowerNameChar
  if variablePrefix.isPrefixOf cs then some (String.ofList (dotted (cs.drop variablePrefix.length))) else none

def integerOf? (cs : List Char) : Option Int := do
  let (negative, ds) := Decimal.splitSign cs
  guard (!ds.isEmpty && ds.all Char.isDigit)
  let n : Int := Decimal.natOfDigits ds
  let i := if negative then -n else n
  guard (Decimal.fits i)
  pure i

/-- The digits of a number before and after its point, of which one must be there, and what is left. -/
def mantissa? (cs : List Char) : Option (List Char × List Char × List Char) := do
  let whole := cs.takeWhile Char.isDigit
  let rest := cs.dropWhile Char.isDigit
  let (fraction, rest) :=
    if rest.head? == some '.' then (rest.tail.takeWhile Char.isDigit, rest.tail.dropWhile Char.isDigit) else ([], rest)
  guard !(whole ++ fraction).isEmpty
  pure (whole, fraction, rest)

def exponentOf? : List Char → Option Int
  | [] => some 0
  | c :: cs => do
    guard (c == 'e' || c == 'E')
    let (negative, ds) := Decimal.splitSign cs
    guard (!ds.isEmpty && ds.all Char.isDigit)
    let n : Int := Decimal.natOfDigits ds
    pure (if negative then -n else n)

def floatOf? (cs : List Char) : Option Float :=
  let (negative, size) := Decimal.splitSign cs
  let word := Text.lower (String.ofList size)
  if word == "inf" || word == "infinity" then some (if negative then -1.0 / 0.0 else 1.0 / 0.0)
  else if word == "nan" then some (0.0 / 0.0)
  else do
    let (whole, fraction, rest) ← mantissa? size
    let exponent ← exponentOf? rest
    pure (Decimal.ofParts negative whole fraction exponent).toFloat

def variableDatum (value : String) : Datum :=
  let word := Text.lower value
  if word == "true" || word == "false" then .literal word
  else
    match integerOf? value.toList, floatOf? value.toList with
    | some n, _ => .literal (toString n)
    | none, some x => .literal (Decimal.floatText x)
    | none, none => .text value

/-- The variables that are settings, with their keys. -/
def settingVariables (env : Environment) : List (String × EnvValue) :=
  env.filterMap fun (name, value) => (variableKey? name).map fun key => (key, value)

def takeVariable (settings : List (String × Datum)) : String × EnvValue → Except ConfigError (List (String × Datum))
  | (key, .text value) => .ok (setMember key (variableDatum value) settings)
  | (key, .garbled) => .error (.load (.unreadable ("the value of the variable for " ++ key ++ " is no text")))

def variableSettings (env : Environment) : Except ConfigError (List (String × Datum)) :=
  (settingVariables env).foldlM takeVariable []

end Config
end TableAccess
