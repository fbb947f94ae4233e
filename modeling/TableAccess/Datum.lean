/-!
# Data before it has a meaning

What a document says, before it is read as records: nothing, a text, a list, or a table of named members.  Numbers
and truth values are kept as the text they are written with, because no value that is read from a document is a number
or a truth value; where a text is wanted some documents may give one.

The members of a table stand in the order of the document, and a document in which a name repeats keeps both.  Where the
order is not to count, data are told apart only up to `Datum.Rearranged`.
-/
namespace TableAccess

/-- A piece of a document. -/
inductive Datum where
  | nil
  /-- A number or a truth value, as the text that stands for it. -/
  | literal (text : String)
  | text (s : String)
  | list (items : List Datum)
  | table (members : List (String × Datum))
  deriving Inhabited, Repr

namespace Datum

def isNil : Datum → Bool
  | .nil => true
  | _ => false

def members : Datum → List (String × Datum)
  | .table ms => ms
  | _ => []

def items : Datum → List Datum
  | .list ds => ds
  | _ => []

/-- **The same data, but for the order of members**, at any depth. -/
inductive Rearranged : Datum → Datum → Prop where
  | refl (d : Datum) : Rearranged d d
  | members {ms ms' : List (String × Datum)} (h : ms.Perm ms') : Rearranged (.table ms) (.table ms')
  | member (before after : List (String × Datum)) (name : String) {d e : Datum} (h : Rearranged d e) :
      Rearranged (.table (before ++ (name, d) :: after)) (.table (before ++ (name, e) :: after))
  | item (before after : List Datum) {d e : Datum} (h : Rearranged d e) :
      Rearranged (.list (before ++ d :: after)) (.list (before ++ e :: after))
  | trans {d e f : Datum} (h : Rearranged d e) (h' : Rearranged e f) : Rearranged d f

end Datum

def memberOf? {α : Type} (name : String) (members : List (String × α)) : Option α :=
  (members.find? (·.1 == name)).map (·.2)

/-- The members with one of them set: in the place of the first of that name, or at the end. -/
def setMember {α : Type} (name : String) (value : α) : List (String × α) → List (String × α)
  | [] => [(name, value)]
  | (n, v) :: rest => if n == name then (name, value) :: rest else (n, v) :: setMember name value rest

end TableAccess
