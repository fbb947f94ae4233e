import TableAccess.Identity
import TableAccess.Store
/-!
# Where answers come from

A decision rests on two collaborators: one looks up the record for a table and a scope, the other lists the groups of
a user.  Either may fail, and either may have a state of its own, so that the same question need not get the same
answer twice.  Both act on one state of any type, and a question returns the state that it leaves behind, a failed
question included.

`ofStore` answers from a store of records that a caller may change between questions; `recorded` keeps the list of
the questions that were asked.
-/
namespace TableAccess

/-- A question to the collaborators: an answer or a failure, and the state after it. -/
abbrev Query (σ α : Type) := ExceptT StoreError (StateM σ) α

/-- The collaborators that a decision asks, over a state of type `σ`. -/
structure Sources (σ : Type) where
  acl : TableId → Scope → Query σ (Option Acl)
  groups : UserId → Query σ (List String)

inductive Lookup where
  | acl (table : TableId) (scope : Scope)
  | groups (user : UserId)
  deriving DecidableEq, Repr

namespace Sources

/-- Answers from a store of records, which is the state, and a fixed list of members. -/
def ofStore (members : Groups) : Sources AclStore where
  acl table scope := fun store => (.ok (store.get? table scope), store)
  groups user := fun store => (.ok (members.of user), store)

/-- The same answers, with each question added to a list when it is asked. -/
def recorded {σ : Type} (src : Sources σ) : Sources (σ × List Lookup) where
  acl table scope := fun (w, asked) =>
    let (answer, w) := src.acl table scope w
    (answer, w, asked ++ [.acl table scope])
  groups user := fun (w, asked) =>
    let (answer, w) := src.groups user w
    (answer, w, asked ++ [.groups user])

end Sources
end TableAccess
