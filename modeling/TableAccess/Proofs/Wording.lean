import TableAccess.CommandLine.Request
import TableAccess.Proofs.PermissionName
import TableAccess.Text.Mark
/-!
# Command lines as they are written

A request can be written down: its settings, each joined to the name of its option, then the name of the command, and
the words of the command itself.  A permission stands there in any letter case, and a scope in any form that it is read
from.  Whatever the texts are, the words are read as the request that they put (`Request.read_words`).
-/
namespace TableAccess

/-! ## Names of permissions -/

namespace Permission

/-- **A permission is read from its name in any letter case.** -/
theorem parse_of_sameFolded {p : Permission} {name : String} (h : Text.sameFolded p.name name = true) :
    parse name = .ok p :=
  parse_eq_ok_iff.2 (parse?_eq_some_iff.2 (sameFolded_name_iff.1 h))

/-- No spelling of a permission looks like an option. -/
theorem head?_ne_dash {p : Permission} {name : String} (h : Text.sameFolded p.name name = true) :
    name.toList.head? ≠ some '-' := by
  have hl := (Text.sameFolded_iff _ _).1 h
  intro hd
  have hn : (name.toList.map Char.toLower).head? = some '-' := by rw [List.head?_map, hd]; rfl
  rw [← hl] at hn
  revert hn
  cases p <;> decide

end Permission

namespace CommandLine

/-! ## Options and words -/

/-- An option with its value joined to it. -/
def joined (long value : String) : String := "--" ++ long ++ "=" ++ value

def given (long : String) (value : Option String) : List String := (value.map (joined long)).toList

/-- The grammar has an option of this name, which takes a value. -/
def Grammar.Takes (g : Grammar) (long : String) : Prop :=
  (g.options.find? (·.long == long)).map (·.use) = some .value ∧ '=' ∉ long.toList

instance (g : Grammar) (long : String) : Decidable (g.Takes long) := inferInstanceAs (Decidable (_ ∧ _))

variable {g : Grammar} {long name : String} {rest : List String}

theorem Grammar.longSign_joined (h : g.Takes long) (value : List Char) :
    g.longSign (long.toList ++ '=' :: value) = .item (.option long (String.ofList value)) := by
  obtain ⟨ho, he⟩ := h
  obtain ⟨o, hf, hu⟩ := Option.map_eq_some_iff.1 ho
  have hlong : o.long = long := by simpa using List.find?_some hf
  have hname := Text.takeWhile_mark he value
  have hvalue := Text.dropWhile_mark he value
  simp only [longSign, hname, hvalue, String.ofList_toList, hf, Opt.sign, hu, hlong, beq_self_eq_true, if_true]

/-- **A joined option is read as it stands**, whatever its value: no value is taken for an option, and none is cut. -/
theorem Grammar.sign_joined (h : g.Takes long) (value : String) :
    g.sign (joined long value) = .item (.option long value) := by
  have ht : (joined long value).toList = '-' :: '-' :: (long.toList ++ '=' :: value.toList) := by
    simp [joined]
  have hs := g.longSign_joined h value.toList
  rw [String.ofList_toList] at hs
  rw [sign, ht]
  cases hc : long.toList ++ '=' :: value.toList with
  | nil => simp at hc
  | cons c cs =>
    rw [hc] at hs
    exact hs

theorem Grammar.sign_word (h : name.toList.head? ≠ some '-') : g.sign name = .word := by
  unfold sign
  split <;> simp_all

theorem scan_given (h : g.Takes long) (value : Option String) (rest : List String) :
    scan g (given long value ++ rest) = ((value.map (.option long)).toList ++ (scan g rest).1, (scan g rest).2) := by
  cases value with
  | none => rfl
  | some v =>
    show scan g (joined long v :: rest) = _
    rw [scan, g.sign_joined h]
    rfl

theorem scan_operand (hc : g.hasCommands = false) (h : name.toList.head? ≠ some '-') :
    scan g [name] = ([.operand name], .done) := by
  rw [scan, g.sign_word h]
  simp [hc, scan]

theorem scan_command (hc : g.hasCommands = true) (h : name.toList.head? ≠ some '-') :
    scan g (name :: rest) = ([], .command name rest) := by
  rw [scan, g.sign_word h]
  simp [hc]

/-! ## Settings -/

def Settings.words (s : Settings) : List String :=
  given "config" s.config ++ (given "log-level" s.logLevel ++ given "user" s.user)

def Settings.items (s : Settings) : List Item :=
  (s.config.map (.option "config")).toList ++
    ((s.logLevel.map (.option "log-level")).toList ++ (s.user.map (.option "user")).toList)

theorem scan_settings (s : Settings) (rest : List String) : scan settingsGrammar (s.words ++ rest) =
    (s.items ++ (scan settingsGrammar rest).1, (scan settingsGrammar rest).2) := by
  have hc : settingsGrammar.Takes "config" := by decide
  have hl : settingsGrammar.Takes "log-level" := by decide
  have hu : settingsGrammar.Takes "user" := by decide
  simp only [Settings.words, Settings.items, List.append_assoc, scan_given hc, scan_given hl, scan_given hu]

theorem Settings.take_items (s : Settings) : s.items.foldlM Settings.take {} = .ok s := by
  rcases s with ⟨_ | c, _ | l, _ | u⟩ <;> rfl

/-! ## Commands -/

theorem CommandKind.ofName?_name (kind : CommandKind) : ofName? kind.name = some kind := by cases kind <;> rfl

theorem CommandKind.head?_ne_dash (kind : CommandKind) : kind.name.toList.head? ≠ some '-' := by cases kind <;> decide

def Command.kind : Command → CommandKind
  | .permissions _ => .permissions
  | .check _ _ => .check
  | .has _ _ => .has
  | .filter _ _ _ _ => .filter
  | .scopes => .scopes
  | .roles => .roles

/-- The words of a command, with a permission and a scope as they are spelled. -/
def Command.words (permission : String) (scope : Option String) : Command → List String
  | .permissions table => given "table" (some table.text)
  | .check table _ => given "table" (some table.text) ++ [permission]
  | .has table _ => given "table" (some table.text) ++ [permission]
  | .filter table _ row _ =>
    given "table" (some table.text) ++ (given "row" (some row) ++ (given "scope" scope ++ [permission]))
  | .scopes => []
  | .roles => []

/-- **How a command may be spelled**: its permission in any letter case, and its scope as a text that is read as it. -/
def Command.Spelled (permission : String) (scope : Option String) : Command → Prop
  | .check _ p => Text.sameFolded p.name permission = true
  | .has _ p => Text.sameFolded p.name permission = true
  | .filter _ p _ s => Text.sameFolded p.name permission = true ∧ scope.map Scope.parse = s.map .ok
  | _ => True

def Command.items (permission : String) (scope : Option String) : Command → List Item
  | .permissions table => [.option "table" table.text]
  | .check table _ => [.option "table" table.text, .operand permission]
  | .has table _ => [.option "table" table.text, .operand permission]
  | .filter table _ row _ =>
    [.option "table" table.text, .option "row" row] ++ ((scope.map (.option "scope")).toList ++ [.operand permission])
  | .scopes => []
  | .roles => []

def Command.draft : Command → Draft
  | .permissions table => { table := some table }
  | .check table p => { table := some table, permission := some p }
  | .has table p => { table := some table, permission := some p }
  | .filter table p row s => { table := some table, permission := some p, row := some row, scope := s }
  | .scopes => {}
  | .roles => {}

variable {kind : CommandKind} {command : Command} {draft : Draft} {permission : String} {scope : Option String}
  {p : Permission}

theorem scan_table_permission (ht : kind.grammar.Takes "table") (h : Text.sameFolded p.name permission = true)
    (table : TableId) : scan kind.grammar (given "table" (some table.text) ++ [permission]) =
      ([.option "table" table.text, .operand permission], .done) := by
  rw [scan_given ht, scan_operand rfl (Permission.head?_ne_dash h)]
  rfl

theorem Command.scan_words (h : command.Spelled permission scope) :
    scan command.kind.grammar (command.words permission scope) = (command.items permission scope, .done) := by
  cases command with
  | permissions table =>
    have ht : CommandKind.permissions.grammar.Takes "table" := by decide
    rw [words, ← List.append_nil (given _ _), kind, scan_given ht]
    rfl
  | check table p =>
    have ht : CommandKind.check.grammar.Takes "table" := by decide
    exact scan_table_permission ht h table
  | has table p =>
    have ht : CommandKind.has.grammar.Takes "table" := by decide
    exact scan_table_permission ht h table
  | filter table p row s =>
    have ht : CommandKind.filter.grammar.Takes "table" := by decide
    have hr : CommandKind.filter.grammar.Takes "row" := by decide
    have hs : CommandKind.filter.grammar.Takes "scope" := by decide
    rw [words, kind, scan_given ht, scan_given hr, scan_given hs, scan_operand rfl (Permission.head?_ne_dash h.1)]
    rfl
  | scopes => rfl
  | roles => rfl

theorem take_permission (hk : kind.takesPermission = true) (hd : draft.permission = none)
    (h : Text.sameFolded p.name permission = true) :
    draft.take kind (.operand permission) = .ok { draft with permission := some p } := by
  simp only [Draft.take, hk, hd, Permission.parse_of_sameFolded h, Option.isNone_none, Bool.and_self, if_true]
  rfl

theorem take_table_permission (hk : kind.takesPermission = true) (h : Text.sameFolded p.name permission = true)
    (table : TableId) : [Item.option "table" table.text, .operand permission].foldlM (Draft.take kind) {} =
      .ok { table := some table, permission := some p } := by
  show (Draft.take kind { table := some table } (.operand permission) >>= pure) = _
  rw [take_permission hk rfl h]
  rfl

theorem take_scope (hd : draft.scope = none) {s : Option Scope} (hs : scope.map Scope.parse = s.map .ok) :
    (scope.map (Item.option "scope")).toList.foldlM (Draft.take kind) draft = .ok { draft with scope := s } := by
  rcases scope with _ | text <;> rcases s with _ | s
  · rw [← hd]
    rfl
  · cases hs
  · cases hs
  · have hp : Scope.parse text = .ok s := Option.some.inj hs
    show (draft.take kind (.option "scope" text) >>= pure) = _
    simp only [Draft.take, hp, hd]
    rfl

theorem Command.take_items (h : command.Spelled permission scope) :
    (command.items permission scope).foldlM (Draft.take command.kind) {} = .ok command.draft := by
  cases command with
  | permissions table => rfl
  | check table p => exact take_table_permission rfl h table
  | has table p => exact take_table_permission rfl h table
  | filter table p row s =>
    rw [items, List.foldlM_append]
    show ((scope.map (Item.option "scope")).toList ++ [Item.operand permission]).foldlM (Draft.take .filter)
      { table := some table, row := some row } = _
    rw [List.foldlM_append, take_scope rfl h.2]
    show (Draft.take .filter { table := some table, row := some row, scope := s } (.operand permission) >>= pure) = _
    rw [take_permission rfl rfl h.1]
    rfl
  | scopes => rfl
  | roles => rfl

theorem Command.draft_command (command : Command) : command.draft.command command.kind = .ok command := by
  cases command <;> rfl

/-- **The words of a command are read as the command.** -/
theorem readCommand_words (h : command.Spelled permission scope) :
    readCommand command.kind (command.words permission scope) = .ok command := by
  rw [readCommand, Command.scan_words h]
  dsimp only
  rw [Command.take_items h]
  exact command.draft_command

theorem readNamed_words (h : command.Spelled permission scope) :
    readNamed command.kind.name (command.words permission scope) = .ok command := by
  rw [readNamed, CommandKind.ofName?_name]
  exact readCommand_words h

/-! ## Requests -/

/-- A request in words. -/
def Request.words (permission : String) (scope : Option String) (r : Request) : List String :=
  r.settings.words ++ r.command.kind.name :: r.command.words permission scope

/-- **A request is read from its words**, whatever its texts are, with the permission in any letter case; what it leaves
open, the environment adds. -/
theorem Request.read_words {r : Request} (h : r.command.Spelled permission scope) {env : Environment} {s : Settings}
    (hs : r.settings.withEnvironment env = .ok s) : Request.read env (r.words permission scope) = .ok ⟨s, r.command⟩ := by
  rw [read, words, scan_settings, scan_command rfl r.command.kind.head?_ne_dash, List.append_nil]
  dsimp only
  rw [Settings.take_items]
  show (readNamed r.command.kind.name (r.command.words permission scope) >>= _) = _
  rw [readNamed_words h]
  show (r.settings.withEnvironment env >>= _) = _
  rw [hs]
  rfl

end CommandLine
end TableAccess
