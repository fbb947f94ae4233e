import TableAccess.Text
/-!
# Permissions

The thirteen things a caller may be allowed to do with one table.  Three of them lift the row filter: whoever holds
one sees, writes or deletes rows without regard to the scope a row records.

A permission has one name, which is read without regard to letter case.
-/
namespace TableAccess

/-- One atomic capability on a table. -/
inductive Permission where
  | readTableEntry
  | deleteTable
  | readProperties
  | writeProperties
  | readRow
  | writeRow
  | deleteRow
  | unfilteredRead
  | unfilteredWrite
  | unfilteredDelete
  | readAcl
  | writeAcl
  | deleteAcl
  deriving DecidableEq, Repr

namespace Permission

/-- Every permission, in the order in which sets list them. -/
def all : List Permission :=
  [readTableEntry, deleteTable, readProperties, writeProperties, readRow, writeRow, deleteRow,
    unfilteredRead, unfilteredWrite, unfilteredDelete, readAcl, writeAcl, deleteAcl]

def name : Permission → String
  | readTableEntry => "READ_TABLE_ENTRY"
  | deleteTable => "DELETE_TABLE"
  | readProperties => "READ_PROPERTIES"
  | writeProperties => "WRITE_PROPERTIES"
  | readRow => "READ_ROW"
  | writeRow => "WRITE_ROW"
  | deleteRow => "DELETE_ROW"
  | unfilteredRead => "UNFILTERED_READ"
  | unfilteredWrite => "UNFILTERED_WRITE"
  | unfilteredDelete => "UNFILTERED_DELETE"
  | readAcl => "READ_ACL"
  | writeAcl => "WRITE_ACL"
  | deleteAcl => "DELETE_ACL"

def rank (p : Permission) : Nat := all.idxOf p

/-- Permissions compare by their place in the listing order. -/
instance : Ord Permission := ⟨fun p q => compare p.rank q.rank⟩

/-- Whether holding the permission lifts the row filter. -/
def liftsFilter : Permission → Bool
  | unfilteredRead | unfilteredWrite | unfilteredDelete => true
  | _ => false

/-- The permission a text names, letter case aside. -/
def parse? (text : String) : Option Permission := all.find? fun p => Text.sameFolded p.name text

def parse (text : String) : Except TextError Permission :=
  match parse? text with
  | some p => .ok p
  | none => .error (.permission text)

theorem mem_all (p : Permission) : p ∈ all := by cases p <;> decide

end Permission
end TableAccess
