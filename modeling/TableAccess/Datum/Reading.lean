import TableAccess.Config
import TableAccess.Datum
/-!
# Reading data as records

The same records are read from two kinds of documents.  A message is read to the letter; a configuration, which may
come from variables that hold nothing but text, is read with more patience.  The differences are the three fields of
`Reading`; all else is common to both:

* a choice is its name, or a table whose one member has that name;
* a record is a table of its fields, in any order and among others, or a list of them in order;
* a field that is named twice is refused, and so is a field without a default that is missing.

A table is read member by member.  The order matters for a scope alone, whose value is not understood before its type is
known: a value that comes before the type is read to the letter.
-/
namespace TableAccess

/-- How much a reader accepts. -/
structure Reading where
  /-- Where a text is wanted, a number or a truth value stands for the text it is written with. -/
  literalsAsText : Bool
  /-- A list that is read as a record may have more elements than the record has fields. -/
  surplusElements : Bool
  /-- A table that names a choice may give the name any value; otherwise it gives it none. -/
  choicePayload : Bool
  deriving DecidableEq, Repr

namespace Reading

def exact : Reading := ⟨false, false, false⟩

def lenient : Reading := ⟨true, true, true⟩

/-- The same reading of what was put aside: a text must be one. -/
def putAside (r : Reading) : Reading := { r with literalsAsText := false }

def text (r : Reading) : Datum → Option String
  | .text s => some s
  | .literal t => if r.literalsAsText then some t else none
  | _ => none

def choice {α : Type} (r : Reading) (choices : List (String × α)) : Datum → Option α
  | .text s => memberOf? s choices
  | .table [(name, payload)] => if r.choicePayload || payload.isNil then memberOf? name choices else none
  | _ => none

/-- The value of a field of a table, if the field is there; refused when it is there twice. -/
def field (name : String) (members : List (String × Datum)) : Option (Option Datum) :=
  match members.filter (·.1 == name) with
  | [] => some none
  | [(_, d)] => some (some d)
  | _ => none

def required (name : String) (members : List (String × Datum)) : Option Datum := (field name members).join

def withDefault {α : Type} (read : Datum → Option α) (default : α) : Option Datum → Option α
  | none => some default
  | some d => read d

def endsWith (r : Reading) (rest : List Datum) : Bool := r.surplusElements || rest.isEmpty

def permission (r : Reading) : Datum → Option Permission := r.choice (Permission.all.map fun p => (p.name, p))

def role (r : Reading) : Datum → Option Role := r.choice (Role.all.map fun p => (p.name, p))

def logFormat (r : Reading) : Datum → Option LogFormat := r.choice (LogFormat.all.map fun f => (f.name, f))

inductive ScopeKind where
  | default
  | user
  | group
  | empty
  deriving DecidableEq, Repr

def scopeKinds : List (String × ScopeKind) :=
  [("DEFAULT", .default), ("USER", .user), ("GROUP", .group), ("EMPTY", .empty)]

def scopeOf (r : Reading) : ScopeKind → Option Datum → Option Scope
  | .default, none => some .default
  | .default, some d => if d.isNil then some .default else none
  | .empty, none => some .empty
  | .empty, some d => if d.isNil then some .empty else none
  | .user, none => some (.user none)
  | .user, some d => if d.isNil then some (.user none) else (r.text d).map fun id => .user (some ⟨id⟩)
  | .group, none => none
  | .group, some d => (r.text d).map .group

/-- Whether the value of a scope comes before its type, and has to be put aside until that is known. -/
def valueFirst (members : List (String × Datum)) : Bool :=
  (members.find? fun m => m.1 == "type" || m.1 == "value").any (·.1 == "value")

/-- A scope: a `type` and its `value`, or a list of exactly these. -/
def scope (r : Reading) : Datum → Option Scope
  | .table members => do
    let kind ← r.choice scopeKinds (← required "type" members)
    (if valueFirst members then r.putAside else r).scopeOf kind (← field "value" members)
  | .list (kind :: value :: rest) => do
    guard (r.endsWith rest)
    r.scopeOf (← r.choice scopeKinds kind) (some value)
  | _ => none

def acl (r : Reading) : Datum → Option Acl
  | .table members => do
    let table ← r.text (← required "table_id" members)
    let scope ← r.scope (← required "scope" members)
    let role ← r.role (← required "role" members)
    pure ⟨⟨table⟩, scope, role⟩
  | .list (table :: scope :: role :: rest) => do
    guard (r.endsWith rest)
    pure ⟨⟨← r.text table⟩, ← r.scope scope, ← r.role role⟩
  | _ => none

def acls (r : Reading) : Datum → Option (List Acl)
  | .list items => items.mapM r.acl
  | _ => none

def logging (r : Reading) : Datum → Option Logging
  | .table members => do
    let level ← withDefault r.text ({} : Logging).level (← field "level" members)
    let format ← withDefault r.logFormat ({} : Logging).format (← field "format" members)
    pure ⟨level, format⟩
  | .list items => do
    guard (r.endsWith (items.drop 2))
    let level ← withDefault r.text ({} : Logging).level items[0]?
    let format ← withDefault r.logFormat ({} : Logging).format items[1]?
    pure ⟨level, format⟩
  | _ => none

def config (r : Reading) : Datum → Option Config
  | .table members => do
    let logging ← withDefault r.logging ({} : Config).logging (← field "logging" members)
    let acls ← withDefault r.acls ({} : Config).acls (← field "acls" members)
    pure ⟨logging, acls⟩
  | .list items => do
    guard (r.endsWith (items.drop 2))
    let logging ← withDefault r.logging ({} : Config).logging items[0]?
    let acls ← withDefault r.acls ({} : Config).acls items[1]?
    pure ⟨logging, acls⟩
  | _ => none

end Reading
end TableAccess
