import TableAccess.Permission
import TableAccess.Scope
/-!
# What can go wrong

A denial is an expected answer and says what was denied to whom.  A store that cannot be reached is another matter:
it is never turned into a denial, and a caller can tell the two apart.  A configuration fails to load, is invalid,
lacks something, or grants twice to one scope on one table.

Each error is a cause; its wording is in one function beside it.
-/
namespace TableAccess

/-! ## Results that are no errors -/

section
variable {ε α β : Type}

theorem bind_eq_ok {x : Except ε α} {f : α → Except ε β} {b : β} : (x >>= f) = .ok b ↔ ∃ a, x = .ok a ∧ f a = .ok b := by
  cases x with
  | error e => exact ⟨fun h => (nomatch h), fun ⟨_, h, _⟩ => (nomatch h)⟩
  | ok a =>
    refine ⟨fun h => ⟨a, rfl, h⟩, ?_⟩
    rintro ⟨a', h, hf⟩
    obtain rfl := Except.ok.inj h
    exact hf

theorem andThen_eq_ok {x : Except ε Unit} {y : Except ε β} {b : β} :
    (x >>= fun _ => y) = .ok b ↔ x = .ok () ∧ y = .ok b :=
  bind_eq_ok.trans ⟨fun ⟨_, hx, hy⟩ => ⟨hx, hy⟩, fun ⟨hx, hy⟩ => ⟨(), hx, hy⟩⟩

theorem map_eq_ok {x : Except ε α} {f : α → β} {b : β} : x.map f = .ok b ↔ ∃ a, x = .ok a ∧ f a = b := by
  cases x with
  | error e => exact ⟨fun h => (nomatch h), fun ⟨_, h, _⟩ => (nomatch h)⟩
  | ok a =>
    refine ⟨fun h => ⟨a, rfl, Except.ok.inj h⟩, ?_⟩
    rintro ⟨a', h, rfl⟩
    obtain rfl := Except.ok.inj h
    rfl

end

/-! ## Errors -/

/-- The store of records, or another source that a decision rests on, could not answer. -/
inductive StoreError where
  | unavailable (reason : String)
  deriving DecidableEq, Repr

def StoreError.message : StoreError → String
  | .unavailable reason => "ACL store unavailable: " ++ reason

inductive Denial where
  | table (table : TableId) (permission : Permission) (user : Option UserId)
  | row (row : String) (user : Option UserId)
  deriving DecidableEq, Repr

namespace Denial

def user : Denial → Option UserId
  | .table _ _ u => u
  | .row _ u => u

def userText : Option UserId → String
  | some id => id.text
  | none => "<anonymous>"

def message : Denial → String
  | .table t p u => "Denied table " ++ t.text ++ " permission " ++ p.name ++ " to user " ++ userText u
  | .row r u => "Denied permission to access row " ++ r ++ " to user " ++ userText u

end Denial

/-- Why a check did not answer "allowed". -/
inductive AccessError where
  | denied (denial : Denial)
  | storeUnavailable (error : StoreError)
  deriving DecidableEq, Repr

namespace AccessError

def isDenied : AccessError → Bool
  | .denied _ => true
  | .storeUnavailable _ => false

def isStoreUnavailable : AccessError → Bool
  | .denied _ => false
  | .storeUnavailable _ => true

def message : AccessError → String
  | .denied denial => "Permission denied: " ++ denial.message
  | .storeUnavailable error => error.message

end AccessError

inductive LoadCause where
  | fileNotFound (path : String)
  | unreadable (detail : String)
  deriving DecidableEq, Repr

def LoadCause.message : LoadCause → String
  | .fileNotFound path => "Configuration file not found: " ++ path
  | .unreadable detail => detail

inductive ConfigError where
  | load (cause : LoadCause)
  | invalid (message : String)
  | missing (field : String)
  | duplicateAcl (table : TableId) (scope : Scope)
  deriving DecidableEq, Repr

def ConfigError.message : ConfigError → String
  | .load cause => "Failed to load configuration: " ++ cause.message
  | .invalid message => "Invalid configuration: " ++ message
  | .missing field => "Missing required configuration: " ++ field
  | .duplicateAcl table scope => "Duplicate ACL for table '" ++ table.text ++ "' and scope " ++ scope.text

end TableAccess
