import TableAccess.Checker
/-!
# Checks of one caller on any table

For the length of a request one caller asks about several tables.  A checker is kept for each table that was asked
about, from the first question on, whatever the answer; `clear` forgets them all.
-/
namespace TableAccess

variable {σ : Type}

/-- The checks of one caller, with a checker for each table asked about. -/
structure UserAccess where
  user     : Option UserId
  checkers : List Checker
  deriving DecidableEq

namespace UserAccess

def new (user : Option UserId) : UserAccess := ⟨user, []⟩

/-- The checker for a table: the one that is kept, or a new one. -/
def checker (u : UserAccess) (table : TableId) : Checker :=
  (u.checkers.find? (·.table = table)).getD (.new table u.user)

/-- Keeps a checker, in the place of the one for the same table. -/
def keep (u : UserAccess) (c : Checker) : UserAccess :=
  { u with checkers :=
      if u.checkers.any (·.table = c.table) then u.checkers.map fun old => if old.table = c.table then c else old
      else u.checkers ++ [c] }

def hasPermission (src : Sources σ) (u : UserAccess) (table : TableId) (p : Permission) (w : σ) :
    Except StoreError Bool × UserAccess × σ :=
  let (answer, c, w) := (u.checker table).hasPermission src p w
  (answer, u.keep c, w)

def checkPermission (src : Sources σ) (u : UserAccess) (table : TableId) (p : Permission) (w : σ) :
    Except AccessError Unit × UserAccess × σ :=
  let (answer, c, w) := (u.checker table).checkPermission src p w
  (answer, u.keep c, w)

/-- Passes when the caller may touch a row of a table; see `Checker.checkFilter`. -/
def checkFilter (src : Sources σ) (u : UserAccess) (table : TableId) (p : Permission) (row : String)
    (filter : Option Scope) (w : σ) : Except AccessError Unit × UserAccess × σ :=
  let (answer, c, w) := (u.checker table).checkFilter src p row filter w
  (answer, u.keep c, w)

def scopes (src : Sources σ) (u : UserAccess) : Query σ (List Scope) := scopesOf src u.user

def hasFilterScope (src : Sources σ) (u : UserAccess) (filter : Scope) : Query σ Bool := do
  return (← u.scopes src).contains filter

def cachedTables (u : UserAccess) : Nat := u.checkers.length

def clear (u : UserAccess) : UserAccess := { u with checkers := [] }

end UserAccess
end TableAccess
