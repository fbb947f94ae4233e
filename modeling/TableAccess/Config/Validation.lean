import TableAccess.Config
import TableAccess.Text
/-!
# Validation

A configuration is valid when its level is known and its records can be granted.  The level is looked at first; then
the records in their order, each for its table, its scope and for whether it repeats an earlier one.  The first fault
is the answer.
-/
namespace TableAccess
namespace Config

def logLevels : List String := ["trace", "debug", "info", "warn", "error"]

def isLogLevel (level : String) : Bool := logLevels.contains (Text.lower level)

def checkLevel (level : String) : Except ConfigError Unit :=
  if isLogLevel level then .ok ()
  else .error (.invalid ("logging.level must be one of " ++ String.intercalate ", " logLevels ++ ", got: " ++ level))

def recordName (index : Nat) : String := "acls[" ++ toString index ++ "]"

def checkTable (index : Nat) (table : TableId) : Except ConfigError Unit :=
  if table.isEmpty then .error (.missing (recordName index ++ ".table_id")) else .ok ()

/-- A record must have a scope that someone can take part in. -/
def checkScope (index : Nat) (table : TableId) : Scope → Except ConfigError Unit
  | .empty => .error (.invalid
      (recordName index ++ ": the EMPTY scope cannot be granted a role on table '" ++ table.text ++ "'"))
  | .user none => .error (.missing (recordName index ++ ".scope.value"))
  | .group name => if name.isEmpty then .error (.missing (recordName index ++ ".scope.value")) else .ok ()
  | _ => .ok ()

/-- A record must not be for the table and scope of an earlier one. -/
def checkNew (earlier : List Acl) (acl : Acl) : Except ConfigError Unit :=
  if earlier.any fun a => a.table == acl.table && a.scope == acl.scope then
    .error (.duplicateAcl acl.table acl.scope)
  else .ok ()

def checkRecord (earlier : List Acl) (acl : Acl) : Except ConfigError Unit := do
  checkTable earlier.length acl.table
  checkScope earlier.length acl.table acl.scope
  checkNew earlier acl

def checkRecords (earlier : List Acl) : List Acl → Except ConfigError Unit
  | [] => .ok ()
  | acl :: rest => do
    checkRecord earlier acl
    checkRecords (earlier ++ [acl]) rest

/-- Answers with the first fault, if there is one. -/
def validate (c : Config) : Except ConfigError Unit := do
  checkLevel c.logging.level
  checkRecords [] c.acls

end Config
end TableAccess
