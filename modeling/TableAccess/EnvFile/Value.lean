import TableAccess.Host
import TableAccess.Text.Alphanumeric
/-!
# The values of an environment file

A value is a row of characters, of which some are quoted.  In single quotes every character stands for itself.
Elsewhere a backslash lets the next character stand for itself or for a line end, and a `$` puts the value of a name
in its place: the letters and numbers that follow, or what stands in braces.  A name without a value is replaced by
nothing.

Outside of quotes a value ends with a blank, after which there is nothing but blanks and a comment.

The character that ends a name after `$` stands for itself even if it is a quote, unless it is another `$`.
-/
namespace TableAccess
namespace EnvFile

inductive Mode where
  /-- The quotes and the signs `$` and backslash have their meaning. -/
  | plain
  | escaped
  | single
  /-- In a name after `$`, given backwards. -/
  | name (reversed : List Char)
  | braced (reversed : List Char)
  /-- After the blank that ends the value. -/
  | ended
  deriving DecidableEq, Repr

def substituted (env : Environment) (reversed : List Char) : List Char :=
  ((env.text? (String.ofList reversed.reverse)).getD "").toList

def escaped? (c : Char) : Option Char :=
  if c == 'n' then some '\n'
  else if c == '\\' || c == '\'' || c == '"' || c == '$' || c == ' ' then some c
  else none

/-- The characters of a value, if it can be read.  The flag says whether double quotes are open. -/
def value? (env : Environment) : Mode → (double : Bool) → List Char → Option (List Char)
  | .plain, double, [] => if double then none else some []
  | .plain, double, c :: cs =>
    if c == '$' then value? env (.name []) double cs
    else if c == '\\' then value? env .escaped double cs
    else if c == '"' then value? env .plain (!double) cs
    else if c == '\'' && !double then value? env .single false cs
    else if (c == ' ' || c == '\t') && !double then value? env .ended false cs
    else (value? env .plain double cs).map (c :: ·)
  | .escaped, double, [] => if double then none else some []
  | .escaped, double, c :: cs => do
    let c ← escaped? c
    (value? env .plain double cs).map (c :: ·)
  | .single, _, [] => none
  | .single, double, c :: cs =>
    if c == '\'' then value? env .plain double cs else (value? env .single double cs).map (c :: ·)
  | .name reversed, double, [] => if double then none else some (substituted env reversed)
  | .name reversed, double, c :: cs =>
    if Text.isAlphanumeric c then value? env (.name (c :: reversed)) double cs
    else if c == '\x7b' && reversed.isEmpty then value? env (.braced []) double cs
    else if c == '$' then (value? env (.name []) double cs).map (substituted env reversed ++ ·)
    else (value? env .plain double cs).map fun rest => substituted env reversed ++ c :: rest
  | .braced _, _, [] => none
  | .braced reversed, double, c :: cs =>
    if c == '\x7d' then (value? env .plain double cs).map (substituted env reversed ++ ·)
    else value? env (.braced (c :: reversed)) double cs
  | .ended, _, [] => some []
  | .ended, double, c :: cs =>
    if c == ' ' || c == '\t' then value? env .ended double cs
    else if c == '#' then some []
    else none

end EnvFile
end TableAccess
