import TableAccess.Resolution
/-!
# Checks on one table

A checker answers for one caller on one table.  The first resolution that succeeds is kept, and every later question
is answered from it without asking anyone; a resolution that fails leaves nothing behind, so the next question
resolves anew.

Every question returns its answer, the checker after it and the state of the collaborators after it.
-/
namespace TableAccess

variable {σ : Type}

/-- Whether a row's filter alone lets a caller in.  A group's filter lets everyone in; a user's only that user. -/
def filterAdmits (user : Option UserId) : Option Scope → Bool
  | none => false
  | some .empty => false
  | some (.user owner) =>
    match user, owner with
    | some u, some v => u == v
    | _, _ => false
  | some (.group _) => true
  | some .default => true

/-- The checks of one caller on one table, with the permissions once they are known. -/
structure Checker where
  table : TableId
  user  : Option UserId
  known : Option PermissionSet
  deriving DecidableEq

namespace Checker

def new (table : TableId) (user : Option UserId) : Checker := ⟨table, user, none⟩

/-- The caller's permissions, resolved unless they are known. -/
def permissions (src : Sources σ) (c : Checker) (w : σ) : Except StoreError PermissionSet × Checker × σ :=
  match c.known with
  | some held => (.ok held, c, w)
  | none =>
    match resolve src c.user c.table w with
    | (.ok held, w) => (.ok held, { c with known := some held }, w)
    | (.error e, w) => (.error e, c, w)

def hasPermission (src : Sources σ) (c : Checker) (p : Permission) (w : σ) : Except StoreError Bool × Checker × σ :=
  let (held, after) := c.permissions src w
  (held.map (·.contains p), after)

def checkPermission (src : Sources σ) (c : Checker) (p : Permission) (w : σ) :
    Except AccessError Unit × Checker × σ :=
  let (held, after) := c.hasPermission src p w
  (match held with
    | .ok true => .ok ()
    | .ok false => .error (.denied (.table c.table p c.user))
    | .error e => .error (.storeUnavailable e), after)

/-- Passes when the caller holds the permission that lifts a row's filter or falls within the filter, and denies the
row otherwise. -/
def checkFilter (src : Sources σ) (c : Checker) (p : Permission) (row : String) (filter : Option Scope) (w : σ) :
    Except AccessError Unit × Checker × σ :=
  let (held, after) := c.hasPermission src p w
  (match held with
    | .ok true => .ok ()
    | .ok false => if filterAdmits c.user filter then .ok () else .error (.denied (.row row c.user))
    | .error e => .error (.storeUnavailable e), after)

end Checker
end TableAccess
