import Mathlib
import TableAccess.FileTree
import TableAccess.Proofs.Layers
import TableAccess.Proofs.Startup
import TableAccess.Text.Parts
/-!
# Trees with a file less

A path is followed part by part, and only a directory leads on.  So a file that is taken out of the root of a tree is
missed at the paths that lead to it and nowhere else (`FileTree.entry_without`).
-/
namespace TableAccess
namespace FileTree

theorem parts_eq (path : String) :
    parts path = ((path.toList.splitOn '/').map String.ofList).filter fun part => part != "" := by
  rw [parts, show "/" = String.singleton '/' from rfl, Text.splitOn_singleton]

/-- The tree without the file of this name in its root. -/
def without (t : FileTree) (name : String) : FileTree := ⟨t.files.filter fun file => file.1 != [name]⟩

/-- **A file in the root of a tree** with this text, in which no other files are. -/
structure HasFile (t : FileTree) (name text : String) : Prop where
  entry : t.entryOf [name] = .file text
  leaf : ∀ file ∈ t.files, [name] <+: file.1 → file.1 = [name]

variable {t : FileTree} {name text : String}

/-- An entry that is kept, or was the file that is gone. -/
def Kept (text : String) (before after : Entry) : Prop := after = before ∨ before = .file text ∧ after = .missing

theorem entryOf_without_self (h : t.HasFile name text) : (t.without name).entryOf [name] = .missing := by
  have hfind : (t.without name).files.find? (·.1 == [name]) = none := by
    simp [without]
  have hany : (t.without name).files.any ([name].isPrefixOf ·.1) = false := by
    rw [List.any_eq_false]
    intro file hm hp
    obtain ⟨hf, hn⟩ := List.mem_filter.1 hm
    exact bne_iff_ne.1 hn (h.leaf file hf (List.isPrefixOf_iff_prefix.1 hp))
  rw [entryOf, hfind, hany]
  rfl

theorem entryOf_without_of_ne {names : List String} (hn : names ≠ [name]) :
    (t.without name).entryOf names = t.entryOf names := by
  have hfind : (t.without name).files.find? (·.1 == names) = t.files.find? (·.1 == names) := by
    rw [without, List.find?_filter]
    refine congrArg (List.find? · t.files) (funext fun file => ?_)
    by_cases hf : file.1 = names <;> simp [hf, hn]
  -- the root is a directory anyway
  have hany : (names == [] || (t.without name).files.any (names.isPrefixOf ·.1)) =
      (names == [] || t.files.any (names.isPrefixOf ·.1)) := by
    cases names with
    | nil => rfl
    | cons part rest =>
      refine congrArg (false || ·) ?_
      rw [without, List.any_filter]
      refine congrArg (List.any t.files) (funext fun file => ?_)
      by_cases hf : file.1 = [name]
      · have hp : (part :: rest).isPrefixOf [name] = false := by
          rw [Bool.eq_false_iff, Ne, List.isPrefixOf_iff_prefix]
          rintro ⟨more, hm⟩
          obtain ⟨rfl, hnil⟩ := List.cons.inj hm
          exact hn (by rw [(List.append_eq_nil_iff.1 hnil).1])
        rw [hf, hp, Bool.and_false]
      · rw [bne_iff_ne.2 hf, Bool.true_and]
  unfold entryOf
  rw [hfind, hany]

theorem entryOf_without (h : t.HasFile name text) (names : List String) :
    Kept text (t.entryOf names) ((t.without name).entryOf names) := by
  by_cases hn : names = [name]
  · subst hn
    exact .inr ⟨h.entry, entryOf_without_self h⟩
  · exact .inl (entryOf_without_of_ne hn)

theorem Kept.directory {before after : Entry} (h : Kept text before after) :
    (after != .directory) = (before != .directory) := by
  rcases h with rfl | ⟨rfl, rfl⟩ <;> rfl

theorem follow_cons (above : Nat) (here : List String) (part : String) (rest : List String) :
    t.follow above here (part :: rest) =
      if (decide (above = 0) && t.entryOf here.reverse != .directory) = true then .missing
      else if (part == ".") = true then t.follow above here rest
      else if (part == "..") = true then
        match above, here with
        | 0, _ :: up => t.follow 0 up rest
        | above, _ => t.follow (above + 1) [] rest
      else if above = 0 then t.follow 0 (part :: here) rest
      else .missing := by
  rw [follow.eq_def]
  cases above <;> rfl

/-- Two trees lead on in the same directories. -/
theorem follow_without (h : t.HasFile name text) : ∀ (path : List String) (above : Nat) (here : List String),
    Kept text (t.follow above here path) ((t.without name).follow above here path)
  | [], 0, here => by
    rw [follow, follow]
    exact entryOf_without h _
  | [], above + 1, here => .inl rfl
  | part :: rest, above, here => by
    have ih := follow_without h rest
    rw [follow_cons, follow_cons, (entryOf_without h here.reverse).directory]
    split
    · exact .inl rfl
    · split
      · exact ih above here
      · split
        · split
          · exact ih 0 _
          · exact ih (above + 1) []
        · split
          · exact ih 0 (part :: here)
          · exact .inl rfl

/-- **A file that is gone is missed at the paths that led to it, and nowhere else.** -/
theorem entry_without (h : t.HasFile name text) (path : String) :
    Kept text (t.entry path) ((t.without name).entry path) := by
  unfold entry
  split
  · exact .inl rfl
  · split
    · exact .inl rfl
    · split
      · exact follow_without h _ 0 []
      · exact follow_without h _ 0 []

/-! ## The file `.env` -/

theorem entry_of_relative {path : String} (hs : path.startsWith "/" = false) (he : path.endsWith "/" = false)
    (hn : path.isEmpty = false) : t.entry path = t.follow 0 [] (parts path) := by
  rw [entry, hs, he, hn]
  rfl

theorem entry_of_absolute {path : String} (hs : path.startsWith "/" = true) (hn : path.isEmpty = false) :
    t.entry path = if (parts path).all fun part => part == "." || part == ".." then .directory else .missing := by
  rw [entry, hs, hn]
  rfl

theorem parts_dot : parts ".env" = [".env"] := by
  rw [parts_eq]
  decide

theorem entry_without_dot (h : t.HasFile ".env" text) : (t.without ".env").entry ".env" = .missing := by
  rw [entry_of_relative (by decide +kernel) (by decide +kernel) (by decide +kernel), parts_dot, follow_cons]
  split
  · rfl
  · exact entryOf_without_self h

theorem envFile_without_dot (h : t.HasFile ".env" text) (env : List (String × String)) :
    ((t.without ".env").host env).envFile = none := by
  rw [host]
  simp only [entry_without_dot h]

/-- A tree with no file but `.env`. -/
def dotTree (text : String) : FileTree := .ofPaths [(".env", text)]

theorem dotTree_files (text : String) : dotTree text = ⟨[([".env"], text)]⟩ :=
  congrArg (fun names => (⟨[(names, text)]⟩ : FileTree)) parts_dot

theorem hasFile_dotTree (text : String) : (dotTree text).HasFile ".env" text := by
  rw [dotTree_files]
  refine ⟨rfl, fun file hm _ => ?_⟩
  rw [List.mem_singleton.1 hm]

theorem bindings_dotTree (text : String) : ((dotTree text).host []).bindings = EnvFile.pairs [] text := by
  have he : (dotTree text).entry ".env" = .file text := by
    rw [entry_of_relative (by decide +kernel) (by decide +kernel) (by decide +kernel), parts_dot, dotTree_files]
    rfl
  have hf : ((dotTree text).host []).envFile = some text := by
    rw [host]
    simp only [he]
  rw [Host.bindings, hf]
  rfl

theorem dotTree_entry (text : String) : ∀ q ∈ ["tables-authz.toml", ".tables-authz.toml",
    "~/.config/tables-authz/config.toml", "/etc/tables-authz/config.toml"], (dotTree text).entry q = .missing := by
  intro q hq
  simp only [List.mem_cons, List.not_mem_nil, or_false] at hq
  rw [dotTree_files]
  rcases hq with rfl | rfl | rfl | rfl
  · rw [entry_of_relative (by decide +kernel) (by decide +kernel) (by decide +kernel), parts_eq]
    rfl
  · rw [entry_of_relative (by decide +kernel) (by decide +kernel) (by decide +kernel), parts_eq]
    rfl
  · rw [entry_of_relative (by decide +kernel) (by decide +kernel) (by decide +kernel), parts_eq]
    rfl
  · rw [entry_of_absolute (by decide +kernel) (by decide +kernel), parts_eq]
    rfl

end FileTree

namespace Config

theorem fileSettings_dotTree {text : String} {env : Environment} (hh : env.get? "HOME" = none) :
    fileSettings (((FileTree.dotTree text).host []).withEnvironment env) none = .ok [] := by
  have hpaths : usualPaths (((FileTree.dotTree text).host []).withEnvironment env) =
      ["tables-authz.toml", ".tables-authz.toml", "~/.config/tables-authz/config.toml",
        "/etc/tables-authz/config.toml"] := by
    have hhome : (((FileTree.dotTree text).host []).withEnvironment env).home? = none := by
      rw [Host.home?, Host.withEnvironment, hh]
      rfl
    rw [usualPaths, homePath, hhome]
    rfl
  exact fileSettings_of_missing (by rw [hpaths]; exact FileTree.dotTree_entry text)

/-- Without another file, a configuration has its defaults. -/
theorem load_dotTree {text : String} {env : Environment} (hh : env.get? "HOME" = none)
    (hv : variableSettings env = .ok []) :
    load (((FileTree.dotTree text).host []).withEnvironment env) none = .ok {} := by
  rw [load_eq (fileSettings_dotTree hh) hv]
  exact show ofSettings .listed [] [] = .ok {} by decide

theorem hasRoom_dotTree {text : String} {env : Environment} (hh : env.get? "HOME" = none)
    (hv : variableSettings env = .ok []) :
    hasRoom (((FileTree.dotTree text).host []).withEnvironment env) none = true :=
  hasRoom_eq (fileSettings_dotTree hh) hv

end Config

end TableAccess
