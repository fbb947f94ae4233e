/-!
# Who asks, and about what

Users and tables are known by opaque texts.  Two identifiers are the same only when their texts are, character for
character: neither letter case nor blanks are set aside.

Who belongs to which group is a list of pairs.  The groups of a user are read off it in order, repeats included.
-/
namespace TableAccess

/-- The stable identifier of an acting user: an address, or `username:` and a name. -/
structure UserId where
  text : String
  deriving DecidableEq, Repr

structure TableId where
  text : String
  deriving DecidableEq, Repr

namespace UserId

def usernameMark : String := "username:"

/-- The identifier of an account: its address when there is one, else its marked user name, else nothing. -/
def ofAccount : (email username : Option String) → Option UserId
  | some email, _ => some ⟨email⟩
  | none, some username => some ⟨usernameMark ++ username⟩
  | none, none => none

/-- Identifiers compare as their texts do, by code point. -/
instance : Ord UserId := ⟨fun a b => compare a.text b.text⟩

end UserId

namespace TableId

def isEmpty (t : TableId) : Bool := t.text.isEmpty

instance : Ord TableId := ⟨fun a b => compare a.text b.text⟩

end TableId

/-- A fixed list of users with a group each. -/
structure Groups where
  members : List (UserId × String)
  deriving DecidableEq, Repr

namespace Groups

def none : Groups := ⟨[]⟩

def withMember (g : Groups) (user : UserId) (group : String) : Groups := ⟨g.members ++ [(user, group)]⟩

def of (g : Groups) (user : UserId) : List String := (g.members.filter (·.1 = user)).map (·.2)

end Groups
end TableAccess
