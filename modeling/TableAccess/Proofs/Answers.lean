import TableAccess.Proofs.Isolation
import TableAccess.Proofs.Repeats
import TableAccess.Proofs.Startup
import TableAccess.Proofs.Widening
/-!
# What a command is answered

Every command is answered, and the records alone decide how: the rule that says who may do what, with nobody in any
group, and the rule that says whom a row's filter lets in (`Command.told`).  A run that gets as far as a configuration
tells that answer and nothing else (`run_of_load`).
-/
namespace TableAccess
namespace CommandLine

/-- The answer to a check, which passes or is denied. -/
def verdict (passes : Prop) [Decidable passes] (denial : Denial) : Answer :=
  if passes then ⟨true, ["allowed"]⟩ else ⟨false, ["denied: " ++ denial.message]⟩

/-- **What a command is answered** when these are the records and nobody is in a group. -/
def Command.told (records : List Acl) (user : Option UserId) : Command → Answer
  | .permissions table => ⟨true, (Permission.all.filter fun p => Granted records [] user table p).map Permission.name⟩
  | .check table p => verdict (Granted records [] user table p) (.table table p user)
  | .has table p => ⟨decide (Granted records [] user table p), [toString (decide (Granted records [] user table p))]⟩
  | .filter table p row scope => verdict (Granted records [] user table p ∨ Admits user scope) (.row row user)
  | .scopes => ⟨true, (scopesAsked .none user).map Scope.text⟩
  | .roles => ⟨true, Role.all.flatMap roleLines⟩

theorem checkAnswer_eq_verdict (passes : Prop) [Decidable passes] (denial : Denial) :
    checkAnswer (if passes then .ok () else .error (.denied denial)) = .ok (verdict passes denial) := by
  by_cases h : passes <;> simp [h, checkAnswer, verdict]

theorem toList_eq_filter {held : PermissionSet} {given : Permission → Prop} [DecidablePred given]
    (h : ∀ p, p ∈ held ↔ given p) : held.toList = Permission.all.filter fun p => given p := by
  rw [held.canonical]
  exact List.filter_congr fun p _ => decide_eq_decide.2 (h p)

/-- **Every command is answered by the rules**, whatever the store: a caller who asks for the first time resolves, and a
resolution from a store does not fail. -/
theorem Command.answer_eq_told (user : Option UserId) (store : AclStore) (command : Command) :
    command.answer user store = .ok (command.told store.records user) := by
  have hfirst (table : TableId) : ∃ held after,
      (Checker.new table user).permissions (.ofStore .none) store = (.ok held, after) ∧
        ∀ p, p ∈ held ↔ Granted store.records [] user table p :=
    Setting.permissions_new ⟨store, .none, user⟩ table
  have hnew (table : TableId) : (UserAccess.new user).checker table = .new table user := rfl
  cases command with
  | permissions table =>
    obtain ⟨held, after, hr, hm⟩ := hfirst table
    rw [answer, hr, told, ← toList_eq_filter hm]
  | check table p =>
    obtain ⟨held, after, hr, hm⟩ := hfirst table
    rw [answer, UserAccess.checkPermission, hnew, Checker.checkPermission_of_ok hr, told]
    simp only [hm]
    exact checkAnswer_eq_verdict _ (.table table p user)
  | has table p =>
    obtain ⟨held, after, hr, hm⟩ := hfirst table
    rw [answer, UserAccess.hasPermission, hnew, Checker.hasPermission_of_ok hr, told]
    simp only [hm]
  | filter table p row scope =>
    obtain ⟨held, after, hr, hm⟩ := hfirst table
    rw [answer, UserAccess.checkFilter, hnew, Checker.checkFilter_of_set hr, told]
    simp only [hm]
    exact checkAnswer_eq_verdict _ (.row row user)
  | scopes =>
    rw [answer, UserAccess.scopes_after]
    rfl
  | roles => rfl

/-! ## What the answer rests on -/

/-- Nobody takes part in a group here, so what a caller is given does not rest on the records for groups. -/
theorem granted_congr_of_groups {l l' : List Acl} (h : ∀ a, (∀ name, a.scope ≠ .group name) → (a ∈ l ↔ a ∈ l'))
    (user : Option UserId) (table : TableId) (p : Permission) :
    Granted l [] user table p ↔ Granted l' [] user table p := by
  have hn : ∀ a : Acl, TakesPart [] user a.scope → ∀ name, a.scope ≠ .group name := by
    intro a hs name hg
    rw [hg] at hs
    obtain ⟨id, -, hm⟩ := hs
    cases hm
  constructor
  · rintro ⟨a, ha, ht, hs, hp⟩
    exact ⟨a, (h a (hn a hs)).1 ha, ht, hs, hp⟩
  · rintro ⟨a, ha, ht, hs, hp⟩
    exact ⟨a, (h a (hn a hs)).2 ha, ht, hs, hp⟩

/-- **The records for groups change no answer.** -/
theorem Command.told_congr {l l' : List Acl} (h : ∀ a, (∀ name, a.scope ≠ .group name) → (a ∈ l ↔ a ∈ l'))
    (user : Option UserId) (command : Command) : command.told l user = command.told l' user := by
  cases command with
  | permissions table => simp only [told, granted_congr_of_groups h]
  | check table p => simp only [told, granted_congr_of_groups h]
  | has table p => simp only [told, granted_congr_of_groups h]
  | filter table p row scope => simp only [told, granted_congr_of_groups h]
  | scopes => rfl
  | roles => rfl

/-! ## Runs -/

/-- **A configuration that a run loads** from the file at a path. -/
structure Loads (host : Host) (path : Option String) (c : Config) : Prop where
  started : breaksOff host = false
  room : Config.hasRoom host.extended path = true
  loaded : Config.load host.extended path = .ok c

theorem run_of_request {host : Host} {args : List String} {r : Request} (hb : breaksOff host = false)
    (h : Request.read host.extended.environment args = .ok r) : run host args = r.outcome host.extended := by
  rw [run_of_started hb, outcomeOn, h]

/-- **A request is answered from the records that were loaded.**  They make a store, and the command is answered from
it. -/
theorem Request.answered {host : Host} {r : Request} {c : Config} (h : Config.load host r.settings.config = .ok c) :
    ∃ store, c.store = .ok store ∧
      r.command.answer (r.settings.user.map .mk) store = .ok (r.command.told c.acls (r.settings.user.map .mk)) := by
  obtain ⟨store, hs, -, hp⟩ := Config.store_of_validate (Config.validate_of_load h)
  refine ⟨store, hs, ?_⟩
  rw [Command.answer_eq_told, Command.told_congr fun a _ => hp.mem_iff]

theorem Request.outcome_of_load {host : Host} {r : Request} {c : Config}
    (hm : Config.hasRoom host r.settings.config = true) (h : Config.load host r.settings.config = .ok c) :
    r.outcome host = (r.command.told c.acls (r.settings.user.map .mk)).outcome := by
  obtain ⟨store, hs, ha⟩ := Request.answered h
  rw [outcome, hm, h]
  dsimp only
  rw [hs]
  dsimp only
  rw [ha]
  rfl

/-- **A run tells the answer to its command**, if its arguments are read and its configuration loads. -/
theorem run_of_load {host : Host} {args : List String} {r : Request} {c : Config}
    (hl : Loads host r.settings.config c) (hr : Request.read host.extended.environment args = .ok r) :
    run host args = (r.command.told c.acls (r.settings.user.map .mk)).outcome := by
  rw [run_of_request hl.started hr, Request.outcome_of_load hl.room hl.loaded]

end CommandLine
end TableAccess
