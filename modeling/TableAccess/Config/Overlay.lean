import TableAccess.Config.Path
import TableAccess.Datum
/-!
# Settings on top of each other

A configuration is put together from settings, each of which gives a value to a path; a later setting takes the place
of what an earlier one has put there.  Whatever stands in the way of a path is replaced: by an empty table where the
path goes on with a name, by an empty list where it goes on with a number.  A list is made long enough for its number
with elements that are nothing.

Two tables are put on top of each other name by name, and every other value takes the place of what was there.
-/
namespace TableAccess
namespace Config

mutual

/-- What a value leaves of the value that it is put on top of. -/
def merge : Datum → Datum → Datum
  | .table upper, lower => .table (mergeMembers upper lower.members)
  | upper, _ => upper

def mergeMembers : List (String × Datum) → List (String × Datum) → List (String × Datum)
  | [], lower => lower
  | (name, d) :: upper, lower =>
    mergeMembers upper (setMember name (merge d ((memberOf? name lower).getD .nil)) lower)

end

/-- Changes one element of a list that is made long enough for it. -/
def alterElement (f : Datum → Datum) (items : List Datum) : Int → List Datum
  | .ofNat i =>
    let items := items ++ List.replicate (i + 1 - items.length) Datum.nil
    items.modify i f
  | .negSucc i =>
    let items := List.replicate (i + 1 - items.length) Datum.nil ++ items
    items.modify (items.length - (i + 1)) f

/-- How long a list must be for a step into it. -/
def Step.reach : Step → Nat
  | .member _ => 0
  | .element (.ofNat i) => i + 1
  | .element (.negSucc i) => i + 1

def alter (f : Datum → Datum) : List Step → Datum → Datum
  | [], d => f d
  | .member name :: path, d =>
    .table (setMember name (alter f path ((memberOf? name d.members).getD .nil)) d.members)
  | .element i :: path, d => .list (alterElement (alter f path) d.items i)

def applySetting (root : Datum) (setting : String × Datum) : Datum :=
  alter (merge setting.2) (address setting.1) root

def applySettings (root : Datum) (settings : List (String × Datum)) : Datum := settings.foldl applySetting root

end Config
end TableAccess
