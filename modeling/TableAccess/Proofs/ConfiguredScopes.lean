import TableAccess.Proofs.ScopeText
import TableAccess.Proofs.Validity
import TableAccess.Proofs.Wording
/-!
# Scopes that are configured

A scope on a command line was read from a text (`CommandLine.Request.read_filter`), so a scope that no text says cannot be
asked for.  Validation lets through one such scope and no other: that of a user whose identifier is empty
(`Config.scope_nameable_iff`).
-/
namespace TableAccess

/-! ## Scopes on a command line -/

namespace CommandLine

/-- **A draft whose scope, if it has one, was read from a text.** -/
def Draft.ScopeRead (d : Draft) : Prop := ∀ scope, d.scope = some scope → ∃ text, Scope.parse text = .ok scope

/-- An item that is taken leaves a scope that was read from a text. -/
theorem Draft.take_scopeRead {kind : CommandKind} {d d' : Draft} {item : Item} (hd : d.ScopeRead)
    (h : d.take kind item = .ok d') : d'.ScopeRead := by
  unfold take at h
  split at h
  · obtain ⟨v, -, rfl⟩ := map_eq_ok.1 h
    exact hd
  · obtain ⟨v, -, rfl⟩ := map_eq_ok.1 h
    exact hd
  · rename_i text
    obtain ⟨scope, hs, hm⟩ := bind_eq_ok.1 h
    obtain ⟨v, hv, rfl⟩ := map_eq_ok.1 hm
    have hp : Scope.parse text = .ok scope := by
      cases hp : Scope.parse text with
      | error e => rw [hp] at hs; cases hs
      | ok read => rw [hp] at hs; cases hs; rfl
    intro found hf
    obtain ⟨-, rfl⟩ := once_eq_ok.1 hv
    exact ⟨text, Option.some.inj hf ▸ hp⟩
  · cases h
  · split at h
    · obtain ⟨permission, -, hm⟩ := bind_eq_ok.1 h
      cases hm
      exact hd
    · cases h

/-- All the items that are taken leave one. -/
theorem Draft.foldlM_take_scopeRead {kind : CommandKind} : ∀ {items : List Item} {d d' : Draft}, d.ScopeRead →
    items.foldlM (Draft.take kind) d = .ok d' → d'.ScopeRead
  | [], d, d', hd, h => by
    cases h
    exact hd
  | item :: items, d, d', hd, h => by
    rw [List.foldlM_cons] at h
    obtain ⟨next, hn, hrest⟩ := bind_eq_ok.1 h
    exact foldlM_take_scopeRead (take_scopeRead hd hn) hrest

theorem Draft.command_filter {kind : CommandKind} {d : Draft} {table : TableId} {p : Permission} {row : String}
    {scope : Option Scope} (h : d.command kind = .ok (.filter table p row scope)) : d.scope = scope := by
  cases kind with
  | filter =>
    obtain ⟨table', -, h⟩ := bind_eq_ok.1 h
    obtain ⟨p', -, h⟩ := bind_eq_ok.1 h
    obtain ⟨row', -, h⟩ := bind_eq_ok.1 h
    cases h
    rfl
  | permissions =>
    obtain ⟨table', -, h⟩ := bind_eq_ok.1 h
    cases h
  | check =>
    obtain ⟨table', -, h⟩ := bind_eq_ok.1 h
    obtain ⟨p', -, h⟩ := bind_eq_ok.1 h
    cases h
  | has =>
    obtain ⟨table', -, h⟩ := bind_eq_ok.1 h
    obtain ⟨p', -, h⟩ := bind_eq_ok.1 h
    cases h
  | scopes => cases h
  | roles => cases h

theorem readCommand_filter {kind : CommandKind} {args : List String} {table : TableId} {p : Permission} {row : String}
    {scope : Scope} (h : readCommand kind args = .ok (.filter table p row (some scope))) :
    ∃ text, Scope.parse text = .ok scope := by
  unfold readCommand at h
  dsimp only at h
  obtain ⟨draft, hd, h⟩ := bind_eq_ok.1 h
  have hr : draft.ScopeRead := Draft.foldlM_take_scopeRead (fun _ hs => by cases hs) hd
  split at h
  · exact hr scope (Draft.command_filter h)
  · cases h
  · cases h
  · cases h
  · cases h

/-- **A scope on a command line was read from a text.** -/
theorem Request.read_filter {env : Environment} {args : List String} {settings : Settings} {table : TableId}
    {p : Permission} {row : String} {scope : Scope}
    (h : Request.read env args = .ok ⟨settings, .filter table p row (some scope)⟩) :
    ∃ text, Scope.parse text = .ok scope := by
  unfold Request.read at h
  dsimp only at h
  obtain ⟨before, -, h⟩ := bind_eq_ok.1 h
  split at h
  · rename_i name rest _
    obtain ⟨command, hc, h⟩ := bind_eq_ok.1 h
    obtain ⟨after, -, h⟩ := bind_eq_ok.1 h
    cases h
    unfold readNamed at hc
    split at hc
    · exact readCommand_filter hc
    · split at hc <;> cases hc
  · cases h
  · cases h
  · cases h
  · cases h

end CommandLine

/-! ## Scopes of a valid configuration -/

namespace Config

/-- **A configuration that was accepted**: it was read from a text, or loaded on a host. -/
def Accepted (c : Config) : Prop := (∃ text order, ofText text order = .ok c) ∨ ∃ host path, load host path = .ok c

theorem Accepted.grantable {c : Config} (h : Accepted c) : ∀ a ∈ c.acls, a.Grantable := by
  have hv : validate c = .ok () := by
    rcases h with ⟨text, order, ht⟩ | ⟨host, path, hl⟩
    · exact validate_of_ofText ht
    · exact validate_of_load hl
  exact (validate_eq_ok_iff.1 hv).2.1

/-- Of the scopes whose value is empty, validation knows the group's only. -/
theorem emptyValued_iff {a : Acl} (h : a.Grantable) : a.scope.EmptyValued ↔ a.scope = .user (some ⟨""⟩) :=
  or_iff_left h.named

/-- **Which configured scopes can be named.**  The scope of a record of an accepted configuration is read from its own text
unless it is that of a user whose identifier is empty; that one is read from no text at all.  So every other configured
scope can be given on a command line, joined to its option in its own text, and that one cannot be given in any way. -/
theorem scope_nameable_iff {c : Config} {a : Acl} (hc : Accepted c) (ha : a ∈ c.acls) :
    (Scope.parse a.scope.text = .ok a.scope ↔ a.scope ≠ .user (some ⟨""⟩)) ∧
    ((∃ text, Scope.parse text = .ok a.scope) ↔ a.scope ≠ .user (some ⟨""⟩)) ∧
    ∀ env table p row,
      (a.scope ≠ .user (some ⟨""⟩) → ∃ args settings, CommandLine.joined "scope" a.scope.text ∈ args ∧
        CommandLine.Request.read env args = .ok ⟨settings, .filter table p row (some a.scope)⟩) ∧
      (a.scope = .user (some ⟨""⟩) → ¬ ∃ args settings,
        CommandLine.Request.read env args = .ok ⟨settings, .filter table p row (some a.scope)⟩) := by
  have he : ¬ a.scope.EmptyValued ↔ a.scope ≠ .user (some ⟨""⟩) := not_congr (emptyValued_iff (hc.grantable a ha))
  have hown (h : a.scope ≠ .user (some ⟨""⟩)) : Scope.parse a.scope.text = .ok a.scope :=
    Scope.parse_of_written (Scope.written_text (he.2 h))
  have hany (h : ∃ text, Scope.parse text = .ok a.scope) : a.scope ≠ .user (some ⟨""⟩) := by
    obtain ⟨text, hp⟩ := h
    exact he.1 (Scope.not_emptyValued_of_written (Scope.written_of_parse hp))
  refine ⟨⟨fun h => hany ⟨_, h⟩, hown⟩, ⟨hany, fun h => ⟨_, hown h⟩⟩, fun env table p row => ⟨fun h => ?_, ?_⟩⟩
  · have hs : (CommandLine.Command.filter table p row (some a.scope)).Spelled p.name (some a.scope.text) :=
      ⟨beq_self_eq_true _, by rw [Option.map_some, hown h]; rfl⟩
    -- with every setting given, no variable stands in for one
    let r : CommandLine.Request := ⟨⟨some "", some "", some ""⟩, .filter table p row (some a.scope)⟩
    have hr : CommandLine.Request.read env (r.words p.name (some a.scope.text)) = .ok r :=
      CommandLine.Request.read_words hs rfl
    exact ⟨_, _, by simp [r, CommandLine.Request.words, CommandLine.Command.words, CommandLine.given], hr⟩
  · rintro h ⟨args, settings, hr⟩
    exact hany (CommandLine.Request.read_filter hr) h

/-- Two users have a record here: one whose identifier is empty, and one whose identifier has a colon in it. -/
def namelessFile : String :=
  "[[acls]]\ntable_id=\"visits\"\nrole=\"OWNER\"\nscope.type=\"USER\"\nscope.value=\"\"\n" ++
  "[[acls]]\ntable_id=\"visits\"\nrole=\"OWNER\"\nscope.type=\"USER\"\nscope.value=\"username:Mitch\"\n"

def namelessConfig : Config :=
  ⟨{}, [⟨⟨"visits"⟩, .user (some ⟨""⟩), .owner⟩, ⟨⟨"visits"⟩, .user (some ⟨"username:Mitch"⟩), .owner⟩]⟩

theorem ofText_namelessFile : ofText namelessFile = .ok namelessConfig := by cbv

/-- **A configured scope that has no name.**  The file is accepted, and the text of the first record's scope is refused. -/
theorem scope_nameless :
    ofText namelessFile = .ok namelessConfig ∧
    ∃ a ∈ namelessConfig.acls, Scope.parse a.scope.text = .error (.scope "user:") :=
  ⟨ofText_namelessFile, _, List.mem_cons_self, by decide⟩

/-- The second user's scope can be named, and the first one's cannot. -/
theorem scope_nameable_of_mitch :
    Accepted namelessConfig ∧
    Scope.parse "user:username:Mitch" = .ok (.user (some ⟨"username:Mitch"⟩)) ∧
    ¬ ∃ args settings, CommandLine.Request.read [] args =
      .ok ⟨settings, .filter ⟨"visits"⟩ .readRow "row-1" (some (.user (some ⟨""⟩)))⟩ := by
  have hc : Accepted namelessConfig := .inl ⟨namelessFile, .listed, ofText_namelessFile⟩
  have hmitch : ⟨⟨"visits"⟩, .user (some ⟨"username:Mitch"⟩), .owner⟩ ∈ namelessConfig.acls := by decide
  have hfirst : ⟨⟨"visits"⟩, .user (some ⟨""⟩), .owner⟩ ∈ namelessConfig.acls := by decide
  refine ⟨hc, (scope_nameable_iff hc hmitch).1.2 (by decide), fun h => ?_⟩
  exact ((scope_nameable_iff hc hfirst).2.2 _ _ _ _).2 rfl h

end Config
end TableAccess
