import TableAccess.Permission
/-!
# Sets of permissions

What a caller may do with a table is a set of permissions.  A set is kept as the list of its members in listing order,
without repeats, so equal sets are equal values and the list is what a reader sees.  Sets only grow: there is no
operation that takes a permission away.

Each operation is described by the members of its result (`mem_ofList`, `mem_grant`), and `ext` says that the members
decide the set.
-/
namespace TableAccess

/-- A set of permissions, as its members in listing order. -/
structure PermissionSet where
  toList : List Permission
  canonical : toList = Permission.all.filter (· ∈ toList)
  deriving DecidableEq

namespace PermissionSet

def ofList (ps : List Permission) : PermissionSet where
  toList := Permission.all.filter (· ∈ ps)
  canonical := by
    apply List.filter_congr
    intro p hp
    simp [hp]

def empty : PermissionSet := ofList []

instance : EmptyCollection PermissionSet := ⟨empty⟩

instance : Membership Permission PermissionSet := ⟨fun s p => p ∈ s.toList⟩

instance (p : Permission) (s : PermissionSet) : Decidable (p ∈ s) := inferInstanceAs (Decidable (p ∈ s.toList))

def contains (s : PermissionSet) (p : Permission) : Bool := decide (p ∈ s)

def grant (s : PermissionSet) (ps : List Permission) : PermissionSet := ofList (s.toList ++ ps)

def isSuperset (s t : PermissionSet) : Bool := t.toList.all s.contains

def size (s : PermissionSet) : Nat := s.toList.length

def isEmpty (s : PermissionSet) : Bool := s.toList.isEmpty

def text (s : PermissionSet) : String :=
  "\x7b" ++ ", ".intercalate (s.toList.map Permission.name) ++ "\x7d"

@[simp] theorem mem_toList {p : Permission} {s : PermissionSet} : p ∈ s.toList ↔ p ∈ s := Iff.rfl

@[simp] theorem mem_ofList {p : Permission} {ps : List Permission} : p ∈ ofList ps ↔ p ∈ ps := by
  rw [← mem_toList]; simp [ofList, Permission.mem_all]

@[simp] theorem not_mem_empty (p : Permission) : p ∉ (∅ : PermissionSet) := by
  show p ∉ ofList []; simp

@[simp] theorem mem_grant {p : Permission} {s : PermissionSet} {ps : List Permission} :
    p ∈ s.grant ps ↔ p ∈ s ∨ p ∈ ps := by
  simp [grant]

@[simp] theorem contains_eq_true {s : PermissionSet} {p : Permission} : s.contains p = true ↔ p ∈ s := by
  simp [contains]

/-- **The members decide the set.** -/
@[ext] theorem ext {s t : PermissionSet} (h : ∀ p, p ∈ s ↔ p ∈ t) : s = t := by
  have hl : s.toList = t.toList := by
    rw [s.canonical, t.canonical]
    apply List.filter_congr
    intro p _
    simp [h p]
  cases s; cases t; cases hl; rfl

@[simp] theorem grant_nil (s : PermissionSet) : s.grant [] = s := by
  ext p
  simp

theorem grant_grant (s : PermissionSet) (ps qs : List Permission) : (s.grant ps).grant qs = s.grant (ps ++ qs) := by
  ext p
  rw [mem_grant, mem_grant, mem_grant, List.mem_append, or_assoc]

end PermissionSet
end TableAccess
