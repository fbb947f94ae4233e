import TableAccess.Toml.Node
import TableAccess.Toml.Scalar
/-!
# TOML documents

A document is a row of lines.  A line gives a value to a name or is a header, which names the table that the lines
after it belong to.  Lists and tables that are written as values may go on over several lines and may have a comma
after their last part; they are closed once they are written, and nested no deeper than eighty.

A document is read whole or refused, and what it says is the table of its top-level names.
-/
namespace TableAccess
namespace Toml

def namePart? : Token → Option String
  | .word cs => if cs.all Text.isNameChar then some (String.ofList cs) else none
  | .string cs => some (String.ofList cs)
  | _ => none

def skipBlanks (ts : List Token) : List Token :=
  ts.dropWhile fun
    | .blank _ => true
    | _ => false

def skipSpace (ts : List Token) : List Token :=
  ts.dropWhile fun
    | .blank _ => true
    | .newline => true
    | _ => false

/-- A name with the blanks around it and around its dots, and what is left.  The first argument bounds its parts. -/
def name? : Nat → List Token → Option (List String × List Token)
  | 0, _ => none
  | n + 1, ts =>
    match skipBlanks ts with
    | [] => none
    | t :: ts => do
      let part ← namePart? t
      match skipBlanks ts with
      | .dot :: ts => (name? n ts).map fun (parts, ts) => (part :: parts, ts)
      | ts => some ([part], ts)

def parts? {α : Type} (part? : List Token → Option (α × List Token)) (close : Token) :
    Nat → List Token → Option (List α × List Token)
  | 0, _ => none
  | n + 1, ts =>
    match skipSpace ts with
    | [] => none
    | t :: ts =>
      if t == close then some ([], ts)
      else do
        let (a, ts) ← part? (t :: ts)
        match skipSpace ts with
        | [] => none
        | t :: ts =>
          if t == close then some ([a], ts)
          else if t == .comma then (parts? part? close n ts).map fun (as, ts) => (a :: as, ts)
          else none

def binding? (value? : List Token → Option (Datum × List Token)) (ts : List Token) :
    Option ((List String × Datum) × List Token) := do
  match ← name? ts.length ts with
  | (name, .equals :: ts) =>
    let (d, ts) ← value? (skipBlanks ts)
    some ((name, d), ts)
  | _ => none

def assignAll (entries : List (List String × Datum)) (ms : Members) : Option Members :=
  entries.foldlM (fun ms (name, d) => assign d name ms) ms

/-- The words that continue a word after a dot, and what is left. -/
def continued : List Token → List Char × List Token
  | .dot :: .word cs :: ts =>
    let (more, ts) := continued ts
    ('.' :: cs ++ more, ts)
  | ts => ([], ts)

/-- The text of a value that is a word: words with dots between them, and the time of a date after one space. -/
def wordText (cs : List Char) (ts : List Token) : List Char × List Token :=
  let (more, ts) := continued ts
  let cs := cs ++ more
  match (date? cs).map (·.2), ts with
  | some [], .blank [' '] :: .word (c :: time) :: after =>
    if c.isDigit then
      let (more, after) := continued after
      (cs ++ ' ' :: c :: time ++ more, after)
    else (cs, ts)
  | _, _ => (cs, ts)

/-- A value at the front, and what is left.  The first argument is how deep lists and tables may be nested. -/
def value? : Nat → List Token → Option (Datum × List Token)
  | _, .string cs :: ts => some (.text (String.ofList cs), ts)
  | _, .block cs :: ts => some (.text (String.ofList cs), ts)
  | _, .word cs :: ts =>
    let (cs, ts) := wordText cs ts
    (scalar? cs).map (·, ts)
  | depth + 1, .openBracket :: ts =>
    (parts? (value? depth) .closeBracket ts.length ts).map fun (ds, ts) => (.list ds, ts)
  | depth + 1, .openBrace :: ts => do
    let (entries, ts) ← parts? (binding? (value? depth)) .closeBrace ts.length ts
    let ms ← assignAll entries []
    some (.table (memberData ms), ts)
  | _, _ => none

def maxDepth : Nat := 80

inductive Line where
  | header (inList : Bool) (name : List String)
  | entry (name : List String) (d : Datum)
  deriving Repr

def line? : List Token → Option (Line × List Token)
  | .openBracket :: .openBracket :: ts => do
    match ← name? ts.length ts with
    | (name, .closeBracket :: .closeBracket :: ts) => some (.header true name, ts)
    | _ => none
  | .openBracket :: ts => do
    match ← name? ts.length ts with
    | (name, .closeBracket :: ts) => some (.header false name, ts)
    | _ => none
  | ts => (binding? (value? maxDepth) ts).map fun ((name, d), ts) => (.entry name d, ts)

def lines? : Nat → List Token → Option (List Line)
  | 0, _ => none
  | n + 1, ts =>
    match skipSpace ts with
    | [] => some []
    | ts => do
      let (line, ts) ← line? ts
      match skipBlanks ts with
      | [] => some [line]
      | .newline :: ts => (lines? n ts).map (line :: ·)
      | _ => none

structure Section where
  inList  : Bool
  name    : List String
  entries : List (List String × Datum)

/-- The lines of each header, with those before the first header under the table that has no name. -/
def sections (first : Section) : List Line → List Section
  | [] => [first]
  | .header inList name :: rest => first :: sections ⟨inList, name, []⟩ rest
  | .entry name d :: rest => sections { first with entries := first.entries ++ [(name, d)] } rest

def document (text : String) : Option (List (String × Datum)) := do
  let ts ← tokens text
  let lines ← lines? (ts.length + 1) ts
  let ms ← (sections ⟨false, [], []⟩ lines).foldlM (fun ms s => place (assignAll s.entries) s.inList s.name ms) []
  some (memberData ms)

end Toml
end TableAccess
