import TableAccess.Text
/-!
# The lines of an environment file

A line of the file ends where the text's line ends, unless a quote is still open there: then it goes on.  A comment
begins with a `#` after a blank, outside of quotes, and goes on to the end of the text's line; a text's line that
begins with `#` is left out altogether.

Of two blanks in a row the second does not count as a blank.  The file may not end within quotes, nor right after a
blank that counts.
-/
namespace TableAccess
namespace EnvFile

inductive Place where
  | plain
  /-- After a blank. -/
  | blank
  /-- After a backslash. -/
  | escape
  | inDouble
  | inDoubleEscape
  | inSingle
  | inSingleEscape
  deriving DecidableEq, Repr

def Place.unquoted (c : Char) : Place :=
  if c == '\\' then .escape
  else if c == '"' then .inDouble
  else if c == '\'' then .inSingle
  else .plain

def Place.next : Place → Char → Option Place
  | .plain, c => some (if Text.isBlank c && c != '\n' && c != '\r' then .blank else .unquoted c)
  | .blank, c => if c == '#' then none else some (.unquoted c)
  | .escape, _ => some .plain
  | .inDouble, c => some (if c == '\\' then .inDoubleEscape else if c == '"' then .plain else .inDouble)
  | .inDoubleEscape, _ => some .inDouble
  | .inSingle, c => some (if c == '\\' then .inSingleEscape else if c == '\'' then .plain else .inSingle)
  | .inSingleEscape, _ => some .inSingle

/-- The characters up to a comment, and the place after them; none when there is a comment. -/
def upToComment : Place → List Char → List Char × Option Place
  | p, [] => ([], some p)
  | p, c :: cs =>
    match p.next c with
    | none => ([], none)
    | some p =>
      let (kept, after) := upToComment p cs
      (c :: kept, after)

def textLines : List Char → List (List Char)
  | [] => []
  | '\n' :: cs => ['\n'] :: textLines cs
  | c :: cs =>
    match textLines cs with
    | [] => [[c]]
    | line :: rest => (c :: line) :: rest

/-- The lines of a file from the lines of its text.  The first argument is what was read of a line that goes on, with
the place that was reached.  A file that ends in the middle of a line has a last line that is none. -/
def joined : List Char → Place → List (List Char) → List (Option (List Char))
  | _, place, [] => if place == .plain then [] else [none]
  | before, place, line :: rest =>
    if before.isEmpty && (Text.skipBlank line).head? == some '#' then joined [] .plain rest
    else
      match upToComment place line with
      | (kept, none) => some (before ++ kept) :: joined [] .plain rest
      | (kept, some .plain) => some (before ++ kept) :: joined [] .plain rest
      | (kept, some place) => joined (before ++ kept) place rest

/-- The lines of a file.  A byte order mark at the front is no part of it. -/
def lines (text : String) : List (Option (List Char)) :=
  let cs := text.toList
  joined [] .plain (textLines (if cs.head? == some '\ufeff' then cs.tail else cs))

end EnvFile
end TableAccess
