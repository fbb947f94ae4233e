import TableAccess.Identity
import TableAccess.Text
/-!
# Scopes

A scope is the audience of a grant, or of a row's filter: everyone, one user, the members of a group, or nobody.  A
row may record a user scope without a user; it is nobody's.

A scope has a text form, `default`, `empty`, `user`, `user:` and an identifier, or `group:` and a name.  Reading looks
at the part before the first colon without regard to letter case and keeps the rest character for character; an
identifier or a name that is empty is not read.
-/
namespace TableAccess

/-- The audience of a grant or of a row filter. -/
inductive Scope where
  | default
  /-- One user; a row may leave the user out. -/
  | user (id : Option UserId)
  | group (name : String)
  /-- Nobody. -/
  | empty
  deriving DecidableEq, Repr

namespace Scope

def isEmpty : Scope → Bool
  | .empty => true
  | _ => false

def text : Scope → String
  | .default => "default"
  | .user (some id) => "user:" ++ id.text
  | .user none => "user"
  | .group name => "group:" ++ name
  | .empty => "empty"

/-- The part of a text before its first colon, and the part after it if there is a colon. -/
def splitColon (s : String) : String × Option String :=
  let cs := s.toList
  (String.ofList (cs.takeWhile (· != ':')),
    match cs.dropWhile (· != ':') with
    | [] => none
    | _ :: rest => some (String.ofList rest))

def parse (s : String) : Except TextError Scope :=
  let (keyword, value) := splitColon s
  match Text.lower keyword, value with
  | "default", none => .ok .default
  | "empty", none => .ok .empty
  | "user", none => .ok (.user none)
  | "user", some id => if id.isEmpty then .error (.scope s) else .ok (.user (some ⟨id⟩))
  | "group", some name => if name.isEmpty then .error (.scope s) else .ok (.group name)
  | _, _ => .error (.scope s)

/-- **The text form tells scopes apart**, those that are not read back included. -/
theorem text_injective {a b : Scope} (h : a.text = b.text) : a = b := by
  rw [← String.toList_inj] at h
  rcases a with _ | (_ | ⟨⟨u⟩⟩) | g | _ <;> rcases b with _ | (_ | ⟨⟨v⟩⟩) | k | _ <;>
    simp [text] at h ⊢ <;> simpa [String.toList_inj] using h

end Scope
end TableAccess
