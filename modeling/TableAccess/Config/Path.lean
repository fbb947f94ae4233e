import TableAccess.Decimal
import TableAccess.Text
/-!
# Paths into a configuration

A setting is addressed by a path: a name, and then names after dots and numbers in brackets.  A number counts the
elements of a list from its start, or from its end when it is negative.  A key that is no path addresses the one
top-level member of that name.
-/
namespace TableAccess
namespace Config

inductive Step where
  | member (name : String)
  | element (index : Int)
  deriving DecidableEq, Repr

def pathName? (cs : List Char) : Option (String × List Char) :=
  match cs.takeWhile Text.isNameChar with
  | [] => none
  | name => some (String.ofList name, cs.dropWhile Text.isNameChar)

def skipPathBlanks (cs : List Char) : List Char := cs.dropWhile fun c => c == ' ' || c == '\t'

def pathIndex? (cs : List Char) : Option (Int × List Char) := do
  let cs := skipPathBlanks cs
  let (negative, cs) := if cs.head? == some '-' then (true, cs.tail) else (false, cs)
  let ds := cs.takeWhile Char.isDigit
  guard !ds.isEmpty
  let n : Int := Decimal.natOfDigits ds
  let i := if negative then -n else n
  guard (Decimal.fits i)
  match skipPathBlanks (cs.dropWhile Char.isDigit) with
  | ']' :: rest => some (i, rest)
  | _ => none

/-- The steps after the first.  The first argument bounds their number. -/
def steps? : Nat → List Char → Option (List Step)
  | _, [] => some []
  | n + 1, '.' :: cs => do
    let (name, rest) ← pathName? cs
    (steps? n rest).map (.member name :: ·)
  | n + 1, '[' :: cs => do
    let (i, rest) ← pathIndex? cs
    (steps? n rest).map (.element i :: ·)
  | _, _ => none

def path? (key : String) : Option (List Step) := do
  let (name, rest) ← pathName? key.toList
  (steps? rest.length rest).map (.member name :: ·)

def address (key : String) : List Step := (path? key).getD [.member key]

end Config
end TableAccess
