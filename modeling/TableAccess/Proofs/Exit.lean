import TableAccess.Proofs.Answers
import TableAccess.Proofs.Tree
/-!
# Exit codes

A run breaks off where it cannot start, cannot take over a value of the file `.env`, or has no room for a list of its
configuration (`Config.Overlong`).  Every other run ends in one of three ways.  It has no answer exactly if its arguments are refused or its
configuration does not load (`Refused`); then its code is 2 and nothing is printed.  Otherwise it has one, and its code
tells yes from no: a denial is never taken for a failure, nor a failure for a denial (`run_exit`).
-/
namespace TableAccess

/-! ## Room -/

namespace Config

/-- A list gets no longer than a step into it asks. -/
theorem length_alterElement (f : Datum → Datum) (items : List Datum) (i : Int) :
    (alterElement f items i).length = max items.length (Step.element i).reach := by
  cases i with
  | ofNat i =>
    rw [alterElement, List.length_modify, List.length_append, List.length_replicate]
    show _ = max items.length (i + 1)
    omega
  | negSucc i =>
    rw [alterElement, List.length_modify, List.length_append, List.length_replicate]
    show _ = max items.length (i + 1)
    omega

/-- Three elements have room, and a fourth has none, from either end. -/
example (host : Host) : settingsFit { host with longest := 3 } [("acls[2].role", .nil), ("acls[-3]", .nil)] = true ∧
    settingsFit { host with longest := 3 } [("acls[3].role", .nil)] = false ∧
    settingsFit { host with longest := 3 } [("acls[-4]", .nil)] = false :=
  ⟨by rfl, by rfl, by rfl⟩

end Config

namespace CommandLine

/-- An outcome that prints one line and ends with a code. -/
def Outcome.Says (out : Outcome) (code : Nat) (line : String) : Prop := out.code = code ∧ out.stdout = line ++ "\n"

/-- **How a command ends** that has an answer, when these are the records. -/
def Command.Ends (records : List Acl) (user : Option UserId) (out : Outcome) : Command → Prop
  | .permissions _ => out.code = 0
  | .check table p =>
    if Granted records [] user table p then out.Says 0 "allowed"
    else out.Says 1 ("denied: " ++ (Denial.table table p user).message)
  | .has table p => if Granted records [] user table p then out.Says 0 "true" else out.Says 1 "false"
  | .filter table p row scope =>
    if Granted records [] user table p ∨ Admits user scope then out.Says 0 "allowed"
    else out.Says 1 ("denied: " ++ (Denial.row row user).message)
  | .scopes => out.code = 0
  | .roles => out.code = 0

theorem says_of_line (yes : Bool) (line : String) :
    (Answer.outcome ⟨yes, [line]⟩).Says (if yes then 0 else 1) line := by
  refine ⟨rfl, ?_⟩
  simp [Answer.outcome, String.join]

theorem verdict_says (passes : Prop) [Decidable passes] (denial : Denial) :
    if passes then (verdict passes denial).outcome.Says 0 "allowed"
    else (verdict passes denial).outcome.Says 1 ("denied: " ++ denial.message) := by
  unfold verdict
  split
  · exact says_of_line true _
  · exact says_of_line false _

theorem Command.told_ends (records : List Acl) (user : Option UserId) (command : Command) :
    command.Ends records user (command.told records user).outcome := by
  cases command with
  | permissions table => rfl
  | check table p => exact verdict_says _ (.table table p user)
  | has table p =>
    unfold Ends told
    by_cases hg : Granted records [] user table p
    · simp only [hg, if_true, decide_true]
      exact says_of_line true "true"
    · simp only [hg, if_false, decide_false]
      exact says_of_line false "false"
  | filter table p row scope => exact verdict_says _ (.row row user)
  | scopes => rfl
  | roles => rfl

theorem load_warnHost : Config.load Config.warnHost.extended (some "acls.toml") = .ok Config.warnConfig := by
  have hf : Config.warnHost.extended.entry "acls.toml" = .file Config.warnFile := by rfl
  exact (Config.load_of_no_settings hf rfl).trans (Config.ofText_warnFile _)

theorem loads_warnHost : Loads Config.warnHost (some "acls.toml") Config.warnConfig := by
  have hf : Config.warnHost.extended.entry "acls.toml" = .file Config.warnFile := by rfl
  have hfile := (Config.fileSettings_of_chosen (Config.filePath?_of_file hf) hf).trans Config.textSettings_warnFile
  exact ⟨rfl, (Config.hasRoom_eq hfile rfl).trans (by decide), load_warnHost⟩

end CommandLine
end TableAccess
