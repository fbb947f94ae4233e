import TableAccess.Datum
import TableAccess.Text
/-!
# JSON documents

A document is one value, with blanks around it and between its parts.  A value is read to the end before anything is
made of it, so a document that is cut short or goes on after its value is refused whatever it says.

A string may hold halves of surrogate pairs, which no text has.  Such a string is a value that is no text: it may
stand where a value is ignored, and is refused wherever a text is wanted.  A table with a member of such a name is
likewise no table.  Both are read as literals.
-/
namespace TableAccess
namespace Json

def isBlank (c : Char) : Bool := c == ' ' || c == '\t' || c == '\n' || c == '\r'

def skipBlank (cs : List Char) : List Char := cs.dropWhile isBlank

def hex4? (a b c d : Char) : Option Nat := do
  return (((← Text.digit? 16 a) * 16 + (← Text.digit? 16 b)) * 16 + (← Text.digit? 16 c)) * 16 + (← Text.digit? 16 d)

def escape? : Char → Option Char
  | '"' => some '"'
  | '\\' => some '\\'
  | '/' => some '/'
  | 'b' => some '\x08'
  | 'f' => some '\x0c'
  | 'n' => some '\n'
  | 'r' => some '\r'
  | 't' => some '\t'
  | _ => none

/-- The rest of a string after its opening quote: its characters, unless it has half a surrogate pair, and what is
left after the closing quote. -/
def string? : List Char → Option (Option (List Char) × List Char)
  | [] => none
  | '"' :: cs => some (some [], cs)
  | '\\' :: 'u' :: a :: b :: c :: d :: '\\' :: 'u' :: e :: f :: g :: h :: cs => do
    let high ← hex4? a b c d
    if 0xD800 ≤ high && high < 0xDC00 then
      let low ← hex4? e f g h
      let (text, rest) ← string? cs
      if 0xDC00 ≤ low && low < 0xE000 then
        some (text.map (Char.ofNat (0x10000 + (high - 0xD800) * 0x400 + (low - 0xDC00)) :: ·), rest)
      else some (none, rest)
    else
      let (text, rest) ← string? ('\\' :: 'u' :: e :: f :: g :: h :: cs)
      if 0xDC00 ≤ high && high < 0xE000 then some (none, rest)
      else some (text.map (Char.ofNat high :: ·), rest)
  | '\\' :: 'u' :: a :: b :: c :: d :: cs => do
    let unit ← hex4? a b c d
    let (text, rest) ← string? cs
    if 0xD800 ≤ unit && unit < 0xE000 then some (none, rest)
    else some (text.map (Char.ofNat unit :: ·), rest)
  | '\\' :: c :: cs => do
    let c ← escape? c
    let (text, rest) ← string? cs
    some (text.map (c :: ·), rest)
  | c :: cs =>
    if c.toNat < 0x20 then none
    else do
      let (text, rest) ← string? cs
      some (text.map (c :: ·), rest)

def digits? (cs : List Char) : Option (List Char × List Char) :=
  match cs.takeWhile Char.isDigit with
  | [] => none
  | ds => some (ds, cs.dropWhile Char.isDigit)

def fraction? : List Char → Option (List Char × List Char)
  | '.' :: cs => (digits? cs).map fun (ds, rest) => ('.' :: ds, rest)
  | cs => some ([], cs)

def exponent? : List Char → Option (List Char × List Char)
  | c :: cs =>
    if c == 'e' || c == 'E' then
      match cs with
      | s :: cs' =>
        if s == '+' || s == '-' then (digits? cs').map fun (ds, rest) => (c :: s :: ds, rest)
        else (digits? cs).map fun (ds, rest) => (c :: ds, rest)
      | [] => none
    else some ([], c :: cs)
  | [] => some ([], [])

/-- A number without its sign: no zero stands before another digit. -/
def unsigned? (cs : List Char) : Option (List Char × List Char) := do
  let (whole, cs) ← digits? cs
  guard (whole.head? != some '0' || whole.length == 1)
  let (frac, cs) ← fraction? cs
  let (exp, cs) ← exponent? cs
  some (whole ++ frac ++ exp, cs)

def number? : List Char → Option (Datum × List Char)
  | '-' :: cs => (unsigned? cs).map fun (ds, rest) => (.literal (String.ofList ('-' :: ds)), rest)
  | cs => (unsigned? cs).map fun (ds, rest) => (.literal (String.ofList ds), rest)

/-- What is read, one or more times with commas between, up to a closing bracket.  There are at most as many as the
first argument says. -/
def separated {α : Type} (item : List Char → Option (α × List Char)) (close : Char) :
    Nat → List Char → Option (List α × List Char)
  | 0, _ => none
  | n + 1, cs => do
    let (x, cs) ← item cs
    match skipBlank cs with
    | ',' :: cs =>
      let (xs, cs) ← separated item close n cs
      some (x :: xs, cs)
    | c :: cs => if c == close then some ([x], cs) else none
    | [] => none

def bracketed {α : Type} (item : List Char → Option (α × List Char)) (close : Char) (cs : List Char) :
    Option (List α × List Char) :=
  match skipBlank cs with
  | c :: rest => if c == close then some ([], rest) else separated item close cs.length cs
  | [] => none

def member (value : List Char → Option (Datum × List Char)) (cs : List Char) :
    Option ((Option (List Char) × Datum) × List Char) :=
  match skipBlank cs with
  | '"' :: cs => do
    let (name, cs) ← string? cs
    match skipBlank cs with
    | ':' :: cs =>
      let (d, cs) ← value cs
      some ((name, d), cs)
    | _ => none
  | _ => none

/-- The table of some members, unless a name is no text. -/
def tableOf (members : List (Option (List Char) × Datum)) : Datum :=
  match members.mapM fun (name, d) => name.map fun cs => (String.ofList cs, d) with
  | some ms => .table ms
  | none => .literal "\x7b\x7d"

/-- A value.  Its brackets nest at most as deep as the first argument says. -/
def value : Nat → List Char → Option (Datum × List Char)
  | 0, _ => none
  | depth + 1, cs =>
    match skipBlank cs with
    | '"' :: cs => (string? cs).map fun (text, rest) =>
        (match text with
          | some s => .text (String.ofList s)
          | none => .literal "\"\"", rest)
    | '[' :: cs => (bracketed (value depth) ']' cs).map fun (items, rest) => (.list items, rest)
    | '\x7b' :: cs => (bracketed (member (value depth)) '\x7d' cs).map fun (members, rest) => (tableOf members, rest)
    | 'n' :: 'u' :: 'l' :: 'l' :: cs => some (.nil, cs)
    | 't' :: 'r' :: 'u' :: 'e' :: cs => some (.literal "true", cs)
    | 'f' :: 'a' :: 'l' :: 's' :: 'e' :: cs => some (.literal "false", cs)
    | cs => number? cs

def document (text : String) : Option Datum := do
  let cs := text.toList
  let (d, rest) ← value (cs.length + 1) cs
  guard (skipBlank rest).isEmpty
  pure d

end Json
end TableAccess
