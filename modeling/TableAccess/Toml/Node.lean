import TableAccess.Datum
/-!
# Tables of a document while it is read

The tables of a document are written in several places: under a header, under several headers of one list, or by names
with dots.  A table is open to more members or closed to them by how it came to be, and each name is given a value
once.

* A header opens a table that is not there, or that only stands above another header.
* A header of a list adds one table to the list.
* A name with dots goes through tables, and adds a member to a table that is not there or that was made by such a name.
-/
namespace TableAccess
namespace Toml

/-- How a table came to be. -/
inductive Making where
  /-- It stands above a header. -/
  | implied
  /-- It has a header. -/
  | header
  /-- A name with dots goes through it. -/
  | dotted
  deriving DecidableEq, Repr

/-- What a name stands for while the document is read. -/
inductive Node where
  | value (d : Datum)
  | table (made : Making) (members : List (String × Node))
  /-- A list of tables of which only the last is still written. -/
  | tables (earlier : List (List (String × Node))) (last : List (String × Node))

abbrev Members := List (String × Node)

mutual

def Node.toDatum : Node → Datum
  | .value d => d
  | .table _ ms => .table (memberData ms)
  | .tables earlier last => .list (tableData earlier ++ [.table (memberData last)])

def memberData : List (String × Node) → List (String × Datum)
  | [] => []
  | (name, node) :: rest => (name, node.toDatum) :: memberData rest

def tableData : List (List (String × Node)) → List Datum
  | [] => []
  | ms :: rest => .table (memberData ms) :: tableData rest

end

def assign (value : Datum) : List String → Members → Option Members
  | [], _ => none
  | [name], ms => if (memberOf? name ms).isSome then none else some (setMember name (.value value) ms)
  | name :: path, ms => do
    let node ← match memberOf? name ms with
      | none => (assign value path []).map (.table .dotted)
      | some (.table .dotted inner) => (assign value path inner).map (.table .dotted)
      | some (.table .implied inner) =>
        if path.length == 1 then none else (assign value path inner).map (.table .implied)
      | some (.tables earlier last) =>
        if path.length == 1 then none else (assign value path last).map (.tables earlier)
      | some _ => none
    some (setMember name node ms)

/-- A table that is opened by its name, or by the name of a list it is added to, and filled. -/
def opened (fill : Members → Option Members) (inList : Bool) : Option Node → Option Node
  | none => if inList then (fill []).map (.tables []) else (fill []).map (.table .header)
  | some (.table .implied inner) => if inList then none else (fill inner).map (.table .header)
  | some (.tables earlier last) => if inList then (fill []).map (.tables (earlier ++ [last])) else none
  | some _ => none

/-- Opens the table of a header and fills it.  The table that has no name is the document's own. -/
def place (fill : Members → Option Members) (inList : Bool) : List String → Members → Option Members
  | [], ms => fill ms
  | [name], ms => do some (setMember name (← opened fill inList (memberOf? name ms)) ms)
  | name :: path, ms => do
    let node ← match memberOf? name ms with
      | none => (place fill inList path []).map (.table .implied)
      | some (.table made inner) => (place fill inList path inner).map (.table made)
      | some (.tables earlier last) => (place fill inList path last).map (.tables earlier)
      | some (.value _) => none
    some (setMember name node ms)

end Toml
end TableAccess
