import TableAccess.Datum
import TableAccess.Decimal
import TableAccess.Decimal.Positional
import TableAccess.Toml.Moment
import TableAccess.Toml.Token
/-!
# Words that are values

A word that stands for a value is a truth value, a number or a moment.  A whole number has 64 bits and may be written
in four bases; any other number is read as binary64 and must not be too large for it.  An underscore may stand between
two digits.

A number becomes the text it is shown with, a moment the text of its written form.
-/
namespace TableAccess
namespace Toml

/-- A row of digits with single underscores between them, without the underscores. -/
def ungrouped? (isDigit : Char → Bool) : List Char → Option (List Char)
  | [] => none
  | [c] => if isDigit c then some [c] else none
  | c :: '_' :: cs => if isDigit c then (ungrouped? isDigit cs).map (c :: ·) else none
  | c :: cs => if isDigit c then (ungrouped? isDigit cs).map (c :: ·) else none

def natInBase? (base : Nat) (cs : List Char) : Option Nat := do
  let ds ← ungrouped? (fun c => (Text.digit? base c).isSome) cs
  return (← ds.mapM (Text.digit? base)).foldl (fun n d => base * n + d) 0

/-- Decimal digits of which the first is no zero, unless it is the only one. -/
def wholeDigits? (cs : List Char) : Option (List Char) := do
  let ds ← ungrouped? Char.isDigit cs
  guard (ds.head? != some '0' || ds.length == 1)
  pure ds

def integer? : List Char → Option Int
  | '0' :: 'x' :: cs => (natInBase? 16 cs).map Int.ofNat
  | '0' :: 'o' :: cs => (natInBase? 8 cs).map Int.ofNat
  | '0' :: 'b' :: cs => (natInBase? 2 cs).map Int.ofNat
  | cs => do
    let (negative, ds) := Decimal.splitSign cs
    let n : Int := Decimal.natOfDigits (← wholeDigits? ds)
    pure (if negative then -n else n)

def exponent? (cs : List Char) : Option Int := do
  let (negative, ds) := Decimal.splitSign cs
  let n : Int := Decimal.natOfDigits (← ungrouped? Char.isDigit ds)
  pure (if negative then -n else n)

def decimal? (cs : List Char) : Option Decimal := do
  let (negative, cs) := Decimal.splitSign cs
  let isMark (c : Char) : Bool := c == 'e' || c == 'E'
  let size := cs.takeWhile (!isMark ·)
  let whole ← wholeDigits? (size.takeWhile (· != '.'))
  let fraction ← match size.dropWhile (· != '.') with
    | [] => some []
    | _ :: ds => ungrouped? Char.isDigit ds
  let exponent ← match cs.dropWhile (!isMark ·) with
    | [] => some 0
    | _ :: ds => exponent? ds
  pure (.ofParts negative whole fraction exponent)

def float? (cs : List Char) : Option Float :=
  let (negative, size) := Decimal.splitSign cs
  if size == ['i', 'n', 'f'] then some (if negative then -1.0 / 0.0 else 1.0 / 0.0)
  else if size == ['n', 'a', 'n'] then some (0.0 / 0.0)
  else do
    let x := (← decimal? cs).toFloat
    guard !x.isInf
    pure x

def scalar? (cs : List Char) : Option Datum :=
  if cs == ['t', 'r', 'u', 'e'] then some (.literal "true")
  else if cs == ['f', 'a', 'l', 's', 'e'] then some (.literal "false")
  else
    match moment? cs, integer? cs with
    | some m, _ => some (.text m.text)
    | none, some n => if Decimal.fits n then some (.literal (toString n)) else none
    | none, none => (float? cs).map fun x => .literal (Decimal.floatText x)

end Toml
end TableAccess
