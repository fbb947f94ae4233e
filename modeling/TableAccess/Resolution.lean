import TableAccess.Permission.Set
import TableAccess.Sources
/-!
# Resolving permissions

What a caller may do with a table is the union of what the records give to the scopes the caller takes part in: the
scope of everyone, the caller's own, and that of each of the caller's groups in the order in which they are listed.
A scope without a record gives nothing, and no record takes away what another gives.

The questions are asked in that order, and the first that fails ends the resolution with its failure.  A caller
without an identity takes part in the scope of everyone only.
-/
namespace TableAccess

variable {σ : Type}

/-- What is held after the record for one scope has been added. -/
def addScope (src : Sources σ) (table : TableId) (held : PermissionSet) (scope : Scope) : Query σ PermissionSet := do
  match ← src.acl table scope with
  | some acl => pure (held.grant acl.role.permissions)
  | none => pure held

def resolve (src : Sources σ) (user : Option UserId) (table : TableId) : Query σ PermissionSet := do
  let held ← addScope src table ∅ .default
  match user with
  | none => pure held
  | some id =>
    let held ← addScope src table held (.user (some id))
    let groups ← src.groups id
    groups.foldlM (fun held group => addScope src table held (.group group)) held

/-- The scopes a caller takes part in, the widest first. -/
def scopesOf (src : Sources σ) (user : Option UserId) : Query σ (List Scope) := do
  match user with
  | none => pure [.default]
  | some id =>
    let groups ← src.groups id
    pure (.default :: .user (some id) :: groups.map .group)

end TableAccess
