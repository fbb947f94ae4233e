import TableAccess.Permission
import TableAccess.Scope
/-!
# Roles

A role is a named bundle of permissions.  The catalogue is fixed: a grant names one of these seven roles and gives
the permissions listed for it.

A record grants a role on one table to one scope.  The table and the scope are its key: they say whom the record is
about, the role what it gives.
-/
namespace TableAccess

/-- A named bundle of permissions. -/
inductive Role where
  | none
  | filteredReader
  | unfilteredReader
  | filteredWriter
  | unfilteredReadFilteredWrite
  | unfilteredWriter
  | owner
  deriving DecidableEq, Repr

namespace Role

/-- Every role, from the least to the most. -/
def all : List Role :=
  [none, filteredReader, unfilteredReader, filteredWriter, unfilteredReadFilteredWrite, unfilteredWriter, owner]

def name : Role → String
  | none => "NONE"
  | filteredReader => "FILTERED_READER"
  | unfilteredReader => "UNFILTERED_READER"
  | filteredWriter => "FILTERED_WRITER"
  | unfilteredReadFilteredWrite => "UNFILTERED_READ_FILTERED_WRITE"
  | unfilteredWriter => "UNFILTERED_WRITER"
  | owner => "OWNER"

open Permission in
def permissions : Role → List Permission
  | none => []
  | filteredReader => [readTableEntry, readProperties, readRow]
  | unfilteredReader => [readTableEntry, readProperties, readRow, unfilteredRead]
  | filteredWriter => [readTableEntry, readProperties, readRow, writeRow, deleteRow]
  | unfilteredReadFilteredWrite => [readTableEntry, readProperties, readRow, writeRow, deleteRow, unfilteredRead]
  | unfilteredWriter =>
    [readTableEntry, readProperties, readRow, writeRow, deleteRow, unfilteredRead, unfilteredWrite, unfilteredDelete]
  | owner => Permission.all

def hasPermission (r : Role) (p : Permission) : Bool := r.permissions.contains p

def description : Role → String
  | none => "No permissions. Can not see the table."
  | filteredReader => "Can read properties and only see filtered rows."
  | unfilteredReader => "Can read properties and see all rows."
  | filteredWriter => "Can read properties and read/write filtered rows."
  | unfilteredReadFilteredWrite => "Can read properties, see all rows and write filtered rows."
  | unfilteredWriter => "Can read properties and read/write all rows."
  | owner => "Can read/write properties, read/write all rows, delete the table and manage ACLs."

theorem mem_all (r : Role) : r ∈ all := by cases r <;> decide

end Role

/-- The grant of a role on a table to a scope. -/
structure Acl where
  table : TableId
  scope : Scope
  role  : Role
  deriving DecidableEq, Repr

def Acl.key (a : Acl) : TableId × Scope := (a.table, a.scope)

end TableAccess
