import TableAccess.Store
/-!
# Configuration

A configuration says how to log and lists the access records.  What is not said takes its default.
-/
namespace TableAccess

inductive LogFormat where
  | pretty
  | json
  deriving DecidableEq, Repr

namespace LogFormat

def all : List LogFormat := [pretty, json]

def name : LogFormat → String
  | pretty => "pretty"
  | json => "json"

end LogFormat

structure Logging where
  level  : String := "info"
  format : LogFormat := .pretty
  deriving DecidableEq, Repr

/-- How to log, and who may do what. -/
structure Config where
  logging : Logging := {}
  acls    : List Acl := []
  deriving DecidableEq, Repr

def Config.store (c : Config) : Except ConfigError AclStore := AclStore.ofRecords c.acls

end TableAccess
