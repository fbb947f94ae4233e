import TableAccess.Text
/-!
# The tokens of a TOML document

A document is a row of marks, words, strings, blanks and line ends.  A word is any run of other characters; whether it
is a name, a number or nothing is decided where it stands.  Strings are read here, escapes and all.  A comment counts
for nothing, and only its characters are looked at.

Lines end with a line feed, which a carriage return may precede; a carriage return anywhere else is refused, as is
every other control character but the tab.
-/
namespace TableAccess
namespace Toml

inductive Token where
  | dot
  | equals
  | comma
  | openBracket
  | closeBracket
  | openBrace
  | closeBrace
  | newline
  | blank (cs : List Char)
  /-- A run of characters that mean nothing else. -/
  | word (cs : List Char)
  /-- A string on one line, which may also be a name. -/
  | string (cs : List Char)
  /-- A string that may go on over several lines. -/
  | block (cs : List Char)
  deriving DecidableEq, Repr

def isPlain (c : Char) : Bool := c == '\t' || (0x20 ≤ c.toNat && c.toNat != 0x7F)

def isBlank (c : Char) : Bool := c == ' ' || c == '\t'

def endsWord (c : Char) : Bool :=
  isBlank c || c == '\n' || c == '\r' || c == '#' || c == '"' || c == '\'' || c == '.' || c == '=' || c == ',' ||
    c == '[' || c == ']' || c == '\x7b' || c == '\x7d'

def charOfHex? (cs : List Char) : Option Char := do
  let ns ← cs.mapM (Text.digit? 16)
  let n := ns.foldl (fun n d => 16 * n + d) 0
  if n < 0xD800 || (0xDFFF < n && n < 0x110000) then some (Char.ofNat n) else none

def escape? : List Char → Option (Char × List Char)
  | 'b' :: cs => some ('\x08', cs)
  | 't' :: cs => some ('\t', cs)
  | 'n' :: cs => some ('\n', cs)
  | 'f' :: cs => some ('\x0c', cs)
  | 'r' :: cs => some ('\r', cs)
  | 'e' :: cs => some ('\x1b', cs)
  | '"' :: cs => some ('"', cs)
  | '\\' :: cs => some ('\\', cs)
  | 'x' :: a :: b :: cs => (charOfHex? [a, b]).map (·, cs)
  | 'u' :: a :: b :: c :: d :: cs => (charOfHex? [a, b, c, d]).map (·, cs)
  | 'U' :: a :: b :: c :: d :: e :: f :: g :: h :: cs => (charOfHex? [a, b, c, d, e, f, g, h]).map (·, cs)
  | _ => none

def skipLines : List Char → List Char
  | ' ' :: cs => skipLines cs
  | '\t' :: cs => skipLines cs
  | '\n' :: cs => skipLines cs
  | '\r' :: '\n' :: cs => skipLines cs
  | cs => cs

/-- What is left after a backslash that ends its line, with the blanks at the start of the next lines; nothing if
something else follows the backslash. -/
def lineBreak? (cs : List Char) : Option (List Char) :=
  match cs.dropWhile isBlank with
  | '\n' :: rest => some (skipLines rest)
  | '\r' :: '\n' :: rest => some (skipLines rest)
  | _ => none

def push (cs : List Char) (r : Option (List Char × List Char)) : Option (List Char × List Char) :=
  r.map fun (s, rest) => (cs ++ s, rest)

/-- The rest of a string in double quotes on one line.  The first argument bounds its length. -/
def basic? : Nat → List Char → Option (List Char × List Char)
  | 0, _ => none
  | _ + 1, [] => none
  | n + 1, c :: cs =>
    if c == '"' then some ([], cs)
    else if c == '\\' then do
      let (c, cs) ← escape? cs
      push [c] (basic? n cs)
    else if isPlain c then push [c] (basic? n cs)
    else none

/-- The rest of a string in single quotes on one line, in which every character stands for itself. -/
def literal? : List Char → Option (List Char × List Char)
  | [] => none
  | '\'' :: cs => some ([], cs)
  | c :: cs => if isPlain c then push [c] (literal? cs) else none

/-- The rest of a string in three double quotes.  Up to two quotes may stand before the closing three. -/
def basicBlock? : Nat → List Char → Option (List Char × List Char)
  | 0, _ => none
  | _ + 1, '"' :: '"' :: '"' :: '"' :: '"' :: cs => some (['"', '"'], cs)
  | _ + 1, '"' :: '"' :: '"' :: '"' :: cs => some (['"'], cs)
  | _ + 1, '"' :: '"' :: '"' :: cs => some ([], cs)
  | n + 1, '\\' :: cs =>
    match lineBreak? cs with
    | some cs => basicBlock? n cs
    | none => do
      let (c, cs) ← escape? cs
      push [c] (basicBlock? n cs)
  | n + 1, '\r' :: '\n' :: cs => push ['\r', '\n'] (basicBlock? n cs)
  | n + 1, c :: cs => if c == '\n' || isPlain c then push [c] (basicBlock? n cs) else none
  | _ + 1, [] => none

def literalBlock? : List Char → Option (List Char × List Char)
  | '\'' :: '\'' :: '\'' :: '\'' :: '\'' :: cs => some (['\'', '\''], cs)
  | '\'' :: '\'' :: '\'' :: '\'' :: cs => some (['\''], cs)
  | '\'' :: '\'' :: '\'' :: cs => some ([], cs)
  | '\r' :: '\n' :: cs => push ['\r', '\n'] (literalBlock? cs)
  | c :: cs => if c == '\n' || isPlain c then push [c] (literalBlock? cs) else none
  | [] => none

/-- A block string does not begin with the end of the line on which it is opened. -/
def skipFirstLineEnd : List Char → List Char
  | '\n' :: cs => cs
  | '\r' :: '\n' :: cs => cs
  | cs => cs

def skipComment? (cs : List Char) : Option (List Char) :=
  let rest := cs.dropWhile isPlain
  match rest with
  | [] => some []
  | '\n' :: _ => some rest
  | '\r' :: '\n' :: _ => some rest
  | _ => none

def tokens? : Nat → List Char → Option (List Token)
  | 0, _ => none
  | n + 1, cs =>
    let mark (t : Token) (rest : List Char) : Option (List Token) := (tokens? n rest).map (t :: ·)
    match cs with
    | [] => some []
    | '.' :: cs => mark .dot cs
    | '=' :: cs => mark .equals cs
    | ',' :: cs => mark .comma cs
    | '[' :: cs => mark .openBracket cs
    | ']' :: cs => mark .closeBracket cs
    | '\x7b' :: cs => mark .openBrace cs
    | '\x7d' :: cs => mark .closeBrace cs
    | '\n' :: cs => mark .newline cs
    | '\r' :: '\n' :: cs => mark .newline cs
    | '#' :: cs => do tokens? n (← skipComment? cs)
    | '"' :: '"' :: '"' :: cs => do
      let (s, rest) ← basicBlock? n (skipFirstLineEnd cs)
      mark (.block s) rest
    | '\'' :: '\'' :: '\'' :: cs => do
      let (s, rest) ← literalBlock? (skipFirstLineEnd cs)
      mark (.block s) rest
    | '"' :: cs => do
      let (s, rest) ← basic? n cs
      mark (.string s) rest
    | '\'' :: cs => do
      let (s, rest) ← literal? cs
      mark (.string s) rest
    | c :: _ =>
      if isBlank c then mark (.blank (cs.takeWhile isBlank)) (cs.dropWhile isBlank)
      else if endsWord c then none
      else mark (.word (cs.takeWhile fun c => !endsWord c)) (cs.dropWhile fun c => !endsWord c)

/-- The tokens of a document.  A byte order mark at the front is no part of it. -/
def tokens (text : String) : Option (List Token) :=
  match text.toList with
  | '\ufeff' :: cs => tokens? (cs.length + 1) cs
  | cs => tokens? (cs.length + 1) cs

end Toml
end TableAccess
