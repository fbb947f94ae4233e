import TableAccess.Host
/-!
# Trees of files

A tree of files is given by its files, each with its path from the root; the directories are those that the files are
in, and the root.  A path is followed part by part, and each part but the last must lead to a directory.  Nothing is
known of what lies outside, above the root or at an absolute path, but that the directories above the root are there.
-/
namespace TableAccess

/-- Files with their paths, as names from the root. -/
structure FileTree where
  files : List (List String × String)
  deriving Repr

namespace FileTree

def parts (path : String) : List String := (path.splitOn "/").filter fun part => part != ""

def ofPaths (files : List (String × String)) : FileTree := ⟨files.map fun (path, text) => (parts path, text)⟩

def entryOf (t : FileTree) (names : List String) : Entry :=
  match t.files.find? (·.1 == names) with
  | some (_, text) => .file text
  | none => if names == [] || t.files.any (names.isPrefixOf ·.1) then .directory else .missing

/-- What stands at the end of a path.  The first argument says how far above the root the path has come, the second
where it has come below the root, last name first. -/
def follow (t : FileTree) : Nat → List String → List String → Entry
  | 0, here, [] => t.entryOf here.reverse
  | _ + 1, _, [] => .directory
  | above, here, part :: rest =>
    if above = 0 && t.entryOf here.reverse != .directory then .missing
    else if part == "." then t.follow above here rest
    else if part == ".." then
      match above, here with
      | 0, _ :: up => t.follow 0 up rest
      | above, _ => t.follow (above + 1) [] rest
    else if above = 0 then t.follow 0 (part :: here) rest
    else .missing

/-- What stands at a path.  A path that ends with a slash leads to a directory or nowhere. -/
def entry (t : FileTree) (path : String) : Entry :=
  if path.isEmpty then .missing
  else if path.startsWith "/" then
    if (parts path).all fun part => part == "." || part == ".." then .directory else .missing
  else if path.endsWith "/" then t.follow 0 [] (parts path ++ ["."])
  else t.follow 0 [] (parts path)

/-- A host with these files and these variables. -/
def host (t : FileTree) (env : List (String × String)) : Host where
  entry := t.entry
  environment := .ofTexts env
  envFile :=
    match t.entry ".env" with
    | .file text => some text
    | _ => none

end FileTree
end TableAccess
