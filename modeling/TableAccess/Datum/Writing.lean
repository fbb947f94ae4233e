import TableAccess.Datum.Reading
/-!
# Writing records as data

A scope is written as a table of its type and its value, a record as a table of its three fields.  A user scope always
has a value, nothing when it has no user; the scopes of everyone and of nobody have none.  Every reading reads back what
is written (`Reading.acl_toDatum`).
-/
namespace TableAccess

def Scope.toDatum : Scope → Datum
  | .default => .table [("type", .text "DEFAULT")]
  | .user (some id) => .table [("type", .text "USER"), ("value", .text id.text)]
  | .user none => .table [("type", .text "USER"), ("value", .nil)]
  | .group name => .table [("type", .text "GROUP"), ("value", .text name)]
  | .empty => .table [("type", .text "EMPTY")]

def Acl.toDatum (a : Acl) : Datum :=
  .table [("table_id", .text a.table.text), ("scope", a.scope.toDatum), ("role", .text a.role.name)]

namespace Reading

theorem scope_toDatum (r : Reading) (s : Scope) : r.scope s.toDatum = some s := by
  cases s with
  | user id => cases id <;> rfl
  | _ => rfl

theorem role_text (r : Reading) (role : Role) : r.role (.text role.name) = some role := by
  cases role <;> rfl

theorem acl_toDatum (r : Reading) (a : Acl) : r.acl a.toDatum = some a := by
  show (do
    let scope ← r.scope a.scope.toDatum
    let role ← r.role (.text a.role.name)
    pure (⟨a.table, scope, role⟩ : Acl)) = some a
  rw [scope_toDatum, role_text]
  rfl

end Reading
end TableAccess
