import TableAccess.Proofs.PerTable
/-!
# Two runs side by side

The same questions are put in two runs, over different collaborators.  If these are alike to the caller on a table
(`Sources.AlikeFor`) whenever something is asked, the runs look the same there: all that is asked about the table gets
the same answers and puts the same questions (`Checker.run_alike`, `UserAccess.run_alike`), however the collaborators
differ otherwise and whatever else the caller asks.
-/
namespace TableAccess

variable {σ τ α : Type} {R : σ → τ → Prop} {src : Sources σ} {dst : Sources τ}

/-! ## The questions asked -/

/-- Related states, in which the same questions have been asked. -/
def AskedAlike (R : σ → τ → Prop) (p : σ × List Lookup) (q : τ × List Lookup) : Prop := R p.1 q.1 ∧ p.2 = q.2

/-- **Collaborators that are alike to a caller are asked the same questions.** -/
theorem Sources.AlikeFor.recorded {user : Option UserId} {table : TableId} (h : src.AlikeFor R dst user table) :
    src.recorded.AlikeFor (AskedAlike R) dst.recorded user table where
  everyone := by
    rintro ⟨w, asked⟩ ⟨v, _⟩ ⟨hr, rfl⟩
    obtain ⟨ha, hs⟩ := h.everyone w v hr
    exact ⟨ha, hs, rfl⟩
  own id hu := by
    rintro ⟨w, asked⟩ ⟨v, _⟩ ⟨hr, rfl⟩
    obtain ⟨ha, hs⟩ := h.own id hu w v hr
    exact ⟨ha, hs, rfl⟩
  groups id hu := by
    rintro ⟨w, asked⟩ ⟨v, _⟩ ⟨hr, rfl⟩
    obtain ⟨ha, hs⟩ := h.groups id hu w v hr
    exact ⟨ha, hs, rfl⟩
  group id hu names := by
    rintro ⟨w, asked⟩ after hn name hm ⟨w', asked'⟩ ⟨v', _⟩ ⟨hr, rfl⟩
    have hf : (src.recorded.groups id (w, asked)).1 = .ok names := by rw [hn]
    have hw : src.groups id w = (.ok names, (src.groups id w).2) := Prod.ext hf rfl
    obtain ⟨ha, hs⟩ := h.group id hu names w _ hw name hm w' v' hr
    exact ⟨ha, hs, rfl⟩

/-- The moments of two runs: the same is asked in related states. -/
abbrev Alongside (R : σ → τ → Prop) (l : List (σ × α)) (k : List (τ × α)) : Prop :=
  List.Forall₂ (fun m n => R m.1 n.1 ∧ m.2 = n.2) l k

/-! ## One table -/

namespace Checker

variable {c : Checker} {w : σ} {v : τ}

theorem permissions_alike (h : src.AlikeFor R dst c.user c.table) (hr : R w v) :
    (c.permissions src w).1 = (c.permissions dst v).1 ∧ (c.permissions src w).2.1 = (c.permissions dst v).2.1 ∧
      R (c.permissions src w).2.2 (c.permissions dst v).2.2 := by
  cases hk : c.known with
  | some held =>
    -- nobody is asked, so the states stay as they are
    rw [permissions_of_known hk, permissions_of_known hk]
    exact ⟨rfl, rfl, hr⟩
  | none =>
    obtain ⟨ha, hs⟩ := resolve_alike h w v hr
    rcases hw : resolve src c.user c.table w with ⟨e | held, w'⟩ <;>
      rcases hv : resolve dst c.user c.table v with ⟨e' | held', v'⟩ <;> rw [hw, hv] at ha hs
    · cases ha
      rw [permissions_of_failed hk hw, permissions_of_failed hk hv]
      exact ⟨rfl, rfl, hs⟩
    · cases ha
    · cases ha
    · cases ha
      rw [permissions_of_resolved hk hw, permissions_of_resolved hk hv]
      exact ⟨rfl, rfl, hs⟩

theorem ask_alike (h : src.AlikeFor R dst c.user c.table) (hr : R w v) (q : Question) :
    (c.ask src w q).1 = (c.ask dst v q).1 ∧ (c.ask src w q).2.1 = (c.ask dst v q).2.1 ∧
      R (c.ask src w q).2.2 (c.ask dst v q).2.2 := by
  obtain ⟨ha, hl, hs⟩ := permissions_alike h hr
  rcases hw : c.permissions src w with ⟨answer, left, w'⟩
  rcases hv : c.permissions dst v with ⟨answer', left', v'⟩
  rw [hw, hv] at ha hl hs
  cases ha
  cases hl
  cases answer with
  | error e =>
    rw [ask_of_error hw, ask_of_error hv]
    exact ⟨rfl, rfl, hs⟩
  | ok held =>
    rw [ask_of_ok hw, ask_of_ok hv]
    exact ⟨rfl, rfl, hs⟩

/-- **A question in related states** gets the same reply, asks the same, and leaves the same checker. -/
theorem call_alike (h : src.AlikeFor R dst c.user c.table) (hr : R w v) (q : Question) :
    (c.call src w q).reply = (c.call dst v q).reply ∧ (c.call src w q).lookups = (c.call dst v q).lookups ∧
      (c.call src w q).left = (c.call dst v q).left := by
  obtain ⟨ha, hl, -⟩ := ask_alike h hr q
  have hn : AskedAlike R (w, []) (v, []) := ⟨hr, rfl⟩
  obtain ⟨-, -, -, hx⟩ := ask_alike h.recorded hn q
  exact ⟨ha, hx, hl⟩

end Checker

/-- What a caller sees of a call. -/
def Call.seen (call : Call σ) : Question × Reply × List Lookup := (call.question, call.reply, call.lookups)

/-- **Runs of a checker alongside each other look the same.** -/
theorem Checker.run_alike {c : Checker} {l : List (σ × Question)} {k : List (τ × Question)}
    (h : src.AlikeFor R dst c.user c.table) (hm : Alongside R l k) :
    (c.run src l).map Call.seen = (c.run dst k).map Call.seen := by
  induction hm generalizing c with
  | nil => rfl
  | @cons m n l k hmn _ ih =>
    obtain ⟨w, q⟩ := m
    obtain ⟨v, q'⟩ := n
    obtain ⟨hr, rfl⟩ : R w v ∧ q = q' := hmn
    -- one checker goes on in both runs, because the calls leave the same one
    obtain ⟨ha, hx, hl⟩ := call_alike h hr q
    have hleft : src.AlikeFor R dst (c.call src w q).left.user (c.call src w q).left.table := by
      rw [show (c.call src w q).left.user = c.user from ask_user src c w q,
        show (c.call src w q).left.table = c.table from ask_table src c w q]
      exact h
    have hseen : (c.call src w q).seen = (c.call dst v q).seen := by rw [Call.seen, Call.seen, ha, hx]; rfl
    rw [run, run, List.map_cons, List.map_cons, hseen, ih hleft, hl]

/-! ## Any table -/

/-- A request about a table, or about none. -/
def Request.concerns (table : TableId) (r : Request) : Bool := r.target?.all (·.1 = table)

/-- What a turn shows to a caller who looks at one table. -/
def Turn.seen? (table : TableId) (turn : Turn σ) : Option (Request × Outcome × List Lookup) :=
  if turn.request.concerns table then some (turn.request, turn.outcome, turn.lookups) else none

namespace UserAccess

/-- **Two callers' checks that look the same on one table**: the same caller, the same checker for it, and checkers for
the same tables. -/
structure SameOn (table : TableId) (u u' : UserAccess) : Prop where
  user : u.user = u'.user
  owner : (u.checker table).user = u.user
  checker : u.checker table = u'.checker table
  tables : u.tables = u'.tables

variable {u u' : UserAccess} {table : TableId} {w : σ} {v : τ}

theorem sameOn_new (table : TableId) (user : Option UserId) : SameOn table (new user) (new user) :=
  ⟨rfl, rfl, rfl, rfl⟩

theorem scopes_alike (h : src.AlikeFor R dst u.user table) (hs : SameOn table u u') :
    Query.Related R (u.scopes src) (u'.scopes dst) := by
  rw [scopes, scopes, ← hs.user]
  exact scopesOf_alike h

theorem hasFilterScope_alike (h : src.AlikeFor R dst u.user table) (hs : SameOn table u u') (scope : Scope) :
    Query.Related R (u.hasFilterScope src scope) (u'.hasFilterScope dst scope) :=
  (scopes_alike h hs).bind fun _ => Query.Related.pure R _

/-- A request about a table gives it a checker in both, so only the checker for the table looked at is left to compare. -/
theorem SameOn.turn (hs : SameOn table u u') {r : Request} {t : TableId} {q : Question} (ht : r.target? = some (t, q))
    (ho : ((u.turn src w r).left.checker table).user = u.user)
    (hk : (u.turn src w r).left.checker table = (u'.turn dst v r).left.checker table) :
    SameOn table (u.turn src w r).left (u'.turn dst v r).left where
  user := by rw [user_turn, user_turn, hs.user]
  owner := by rw [ho, user_turn]
  checker := hk
  tables := by rw [tables_turn src u w ht, tables_turn dst u' v ht, hs.tables]

/-- A request about the table itself looks the same and leaves the same behind. -/
theorem turn_alike_on (h : src.AlikeFor R dst u.user table) (hs : SameOn table u u') (hr : R w v) {r : Request}
    {q : Question} (ht : r.target? = some (table, q)) :
    (u.turn src w r).seen? table = (u'.turn dst v r).seen? table ∧
      SameOn table (u.turn src w r).left (u'.turn dst v r).left := by
  have hc : src.AlikeFor R dst (u.checker table).user (u.checker table).table := by
    rw [hs.owner, checker_table]
    exact h
  obtain ⟨ha, hx, hl⟩ := Checker.call_alike hc hr q
  have hon : r.on? table = some q := by simp [Request.on?, ht]
  obtain ⟨-, hk⟩ := turn_on src u w hon
  obtain ⟨-, hk'⟩ := turn_on dst u' v hon
  rw [← hs.checker] at hk'
  refine ⟨?_, hs.turn ht ?_ ?_⟩
  · rw [turn_target src u w ht, turn_target dst u' v ht, ← hs.checker]
    simp only [Turn.seen?, ha, hx]
  · rw [hk, ← hs.owner]
    exact Checker.ask_user src (u.checker table) w q
  · rw [hk, hk', hl]

/-- A request about another table does not show, and changes nothing here. -/
theorem turn_alike_off (hs : SameOn table u u') (w : σ) (v : τ) {r : Request} {t : TableId} {q : Question}
    (ht : r.target? = some (t, q)) (hne : t ≠ table) :
    (u.turn src w r).seen? table = (u'.turn dst v r).seen? table ∧
      SameOn table (u.turn src w r).left (u'.turn dst v r).left := by
  have hoff : r.on? table = none := by simp [Request.on?, ht, hne]
  have hc : r.isClear = false := by
    cases r with
    | clear => cases ht
    | _ => rfl
  have hi : r.concerns table = false := by simp [Request.concerns, ht, hne]
  obtain ⟨-, hk⟩ := turn_off src u w hoff hc
  obtain ⟨-, hk'⟩ := turn_off dst u' v hoff hc
  refine ⟨?_, hs.turn ht ?_ ?_⟩
  · rw [turn_target src u w ht, turn_target dst u' v ht]
    simp only [Turn.seen?, hi, Bool.false_eq_true, if_false]
  · rw [hk, hs.owner]
  · rw [hk, hk', hs.checker]

theorem turn_scopes (src : Sources σ) (u : UserAccess) (w : σ) : u.turn src w .scopes =
    ⟨.scopes, w, .scopes (u.scopes src w).1, (u.scopes src.recorded (w, [])).2.2, u, (u.scopes src w).2⟩ := rfl

theorem turn_hasFilterScope (src : Sources σ) (u : UserAccess) (w : σ) (scope : Scope) :
    u.turn src w (.hasFilterScope scope) =
      ⟨.hasFilterScope scope, w, .hasFilterScope (u.hasFilterScope src scope w).1,
        (u.hasFilterScope src.recorded scope (w, [])).2.2, u, (u.hasFilterScope src scope w).2⟩ := rfl

theorem turn_cachedTables (src : Sources σ) (u : UserAccess) (w : σ) :
    u.turn src w .cachedTables = ⟨.cachedTables, w, .count u.cachedTables, [], u, w⟩ := rfl

/-- A request about no table looks the same. -/
theorem turn_alike_untargeted (h : src.AlikeFor R dst u.user table) (hs : SameOn table u u') (hr : R w v) {r : Request}
    (ht : r.target? = none) :
    (u.turn src w r).seen? table = (u'.turn dst v r).seen? table ∧
      SameOn table (u.turn src w r).left (u'.turn dst v r).left := by
  have hn : AskedAlike R (w, []) (v, []) := ⟨hr, rfl⟩
  cases r with
  | has | check | filter => cases ht
  | scopes =>
    have ha := (scopes_alike h hs w v hr).1
    have hx := (scopes_alike h.recorded hs (w, []) (v, []) hn).2.2
    refine ⟨?_, hs⟩
    rw [turn_scopes, turn_scopes, Turn.seen?, Turn.seen?, ha, hx]
  | hasFilterScope scope =>
    have ha := (hasFilterScope_alike h hs scope w v hr).1
    have hx := (hasFilterScope_alike h.recorded hs scope (w, []) (v, []) hn).2.2
    refine ⟨?_, hs⟩
    rw [turn_hasFilterScope, turn_hasFilterScope, Turn.seen?, Turn.seen?, ha, hx]
  | cachedTables =>
    have hc : u.cachedTables = u'.cachedTables := by
      have hl := congrArg List.length hs.tables
      rwa [tables, tables, List.length_map, List.length_map] at hl
    refine ⟨?_, hs⟩
    rw [turn_cachedTables, turn_cachedTables, Turn.seen?, Turn.seen?, hc]
  | clear =>
    refine ⟨rfl, hs.user, rfl, ?_, rfl⟩
    show Checker.new table u.user = Checker.new table u'.user
    rw [hs.user]

/-- **One turn in each of two runs.** -/
theorem turn_alike (h : src.AlikeFor R dst u.user table) (hs : SameOn table u u') (hr : R w v) (r : Request) :
    (u.turn src w r).seen? table = (u'.turn dst v r).seen? table ∧
      SameOn table (u.turn src w r).left (u'.turn dst v r).left := by
  cases ht : r.target? with
  | none => exact turn_alike_untargeted h hs hr ht
  | some target =>
    obtain ⟨t, q⟩ := target
    by_cases hne : t = table
    · subst hne
      exact turn_alike_on h hs hr ht
    · exact turn_alike_off hs w v ht hne

/-- **Runs alongside each other look the same on a table.** -/
theorem run_alike {l : List (σ × Request)} {k : List (τ × Request)} (h : src.AlikeFor R dst u.user table)
    (hs : SameOn table u u') (hm : Alongside R l k) :
    (u.run src l).filterMap (Turn.seen? table) = (u'.run dst k).filterMap (Turn.seen? table) := by
  induction hm generalizing u u' with
  | nil => rfl
  | @cons m n l k hmn _ ih =>
    obtain ⟨w, r⟩ := m
    obtain ⟨v, r'⟩ := n
    obtain ⟨hr, rfl⟩ : R w v ∧ r = r' := hmn
    obtain ⟨hseen, hleft⟩ := turn_alike h hs hr r
    have hu : src.AlikeFor R dst (u.turn src w r).left.user table := by rw [user_turn]; exact h
    rw [run, run, List.filterMap_cons, List.filterMap_cons, hseen, ih hu hleft]

end UserAccess
end TableAccess
