import Mathlib.Data.List.Dedup
import Mathlib.Data.List.DropRight
import TableAccess.Proofs.Memory
import TableAccess.UserAccess
/-!
# One checker for each table

A caller's checks on several tables are independent of each other.  A run puts requests one after the other, each when
the collaborators are in a state that does not depend on what was asked before.  Of what was asked since the checkers
were last forgotten, the part about one table is a run of one checker that was made for that table and was asked
nothing else (`UserAccess.run_perTable`), and the number of checkers is the number of tables in it.
-/
namespace TableAccess

variable {σ : Type}

inductive Request where
  | has (table : TableId) (p : Permission)
  | check (table : TableId) (p : Permission)
  | filter (table : TableId) (p : Permission) (row : String) (scope : Option Scope)
  | scopes
  | hasFilterScope (scope : Scope)
  | cachedTables
  | clear

namespace Request

/-- The table that a request is about and the question that it puts to the checker of that table. -/
def target? : Request → Option (TableId × Question)
  | has table p => some (table, .has p)
  | check table p => some (table, .check p)
  | filter table p row scope => some (table, .filter p row scope)
  | _ => none

def on? (table : TableId) (r : Request) : Option Question :=
  match r.target? with
  | some (t, q) => if t = table then some q else none
  | none => none

def isClear : Request → Bool
  | clear => true
  | _ => false

theorem target?_of_on? {r : Request} {table : TableId} {q : Question} (h : r.on? table = some q) :
    r.target? = some (table, q) := by
  unfold on? at h
  split at h
  · rename_i t q' ht
    split at h
    · rename_i hs
      rw [ht, hs, Option.some.inj h]
    · cases h
  · cases h

theorem ne_of_on?_none {r : Request} {table t : TableId} {q : Question} (h : r.on? table = none)
    (ht : r.target? = some (t, q)) : t ≠ table := by
  intro hs
  simp [on?, ht, hs] at h

end Request

inductive Outcome where
  | reply (reply : Reply)
  | scopes (answer : Except StoreError (List Scope))
  | hasFilterScope (answer : Except StoreError Bool)
  | count (n : Nat)
  | done

/-- The part of a row of requests that comes after the last of them that forgets the checkers. -/
def sinceClear {α : Type} (request : α → Request) (l : List α) : List α := l.rtakeWhile fun x => !(request x).isClear

theorem sinceClear_concat {α : Type} (request : α → Request) (l : List α) (x : α) :
    sinceClear request (l ++ [x]) = if (request x).isClear then [] else sinceClear request l ++ [x] := by
  rw [sinceClear, List.rtakeWhile_concat]
  cases (request x).isClear <;> rfl

theorem isClear_of_mem {α : Type} {request : α → Request} {l : List α} {x : α} (h : x ∈ sinceClear request l) :
    (request x).isClear = false := by
  have hx := List.mem_rtakeWhile_imp h
  simpa using hx

namespace UserAccess

/-! ## The checker that is kept for a table -/

theorem checker_table (u : UserAccess) (table : TableId) : (u.checker table).table = table := by
  unfold checker
  cases h : u.checkers.find? (·.table = table) with
  | none => rfl
  | some c => simpa using List.find?_some h

theorem table_replaced (c : Checker) : (Checker.table ∘ fun old => if old.table = c.table then c else old) =
    Checker.table := by
  funext old
  by_cases h : old.table = c.table <;> simp [h]

theorem find?_replaced (c : Checker) (table : TableId) (l : List Checker) :
    (l.map fun old => if old.table = c.table then c else old).find? (·.table = table) =
      (l.find? (·.table = table)).map fun old => if old.table = c.table then c else old := by
  have hp : ((fun old : Checker => decide (old.table = table)) ∘ fun old => if old.table = c.table then c else old) =
      fun old => decide (old.table = table) := by
    funext old
    exact congrArg (fun t => decide (t = table)) (congrFun (table_replaced c) old)
  rw [List.find?_map, hp]

theorem checker_keep_self (u : UserAccess) (c : Checker) : (u.keep c).checker c.table = c := by
  unfold keep checker
  split
  · rename_i ha
    obtain ⟨old, hm, ht⟩ := List.any_eq_true.1 ha
    cases hf : u.checkers.find? (·.table = c.table) with
    | none => exact absurd ht (List.find?_eq_none.1 hf old hm)
    | some found =>
      have hs : found.table = c.table := by simpa using List.find?_some hf
      simp only [find?_replaced, hf, Option.map_some, hs, if_true, Option.getD_some]
  · rename_i ha
    have hn : u.checkers.find? (·.table = c.table) = none := by
      rw [List.find?_eq_none]
      exact fun old hm ht => ha (List.any_eq_true.2 ⟨old, hm, ht⟩)
    simp only [List.find?_append, hn, Option.none_or, List.find?_cons, decide_true, Option.getD_some]

theorem checker_keep_of_ne (u : UserAccess) {c : Checker} {table : TableId} (h : c.table ≠ table) :
    (u.keep c).checker table = u.checker table := by
  unfold keep checker
  split
  · simp only [find?_replaced]
    cases hf : u.checkers.find? (·.table = table) with
    | none => rfl
    | some found =>
      have ht : found.table = table := by simpa using List.find?_some hf
      simp only [Option.map_some, ht, h.symm, if_false]
  · simp only [List.find?_append, List.find?_cons, List.find?_nil, h, decide_false, Option.or_none]

/-! ## Runs -/

def handle (src : Sources σ) (u : UserAccess) (w : σ) : Request → Outcome × UserAccess × σ
  | .has table p =>
    let (answer, after) := u.hasPermission src table p w
    (.reply (.has answer), after)
  | .check table p =>
    let (answer, after) := u.checkPermission src table p w
    (.reply (.verdict answer), after)
  | .filter table p row scope =>
    let (answer, after) := u.checkFilter src table p row scope w
    (.reply (.verdict answer), after)
  | .scopes =>
    let (answer, after) := u.scopes src w
    (.scopes answer, u, after)
  | .hasFilterScope scope =>
    let (answer, after) := u.hasFilterScope src scope w
    (.hasFilterScope answer, u, after)
  | .cachedTables => (.count u.cachedTables, u, w)
  | .clear => (.done, u.clear, w)

/-- **A request about a table is a question to the checker of that table**, which is kept. -/
theorem handle_target (src : Sources σ) (u : UserAccess) (w : σ) {r : Request} {table : TableId} {q : Question}
    (h : r.target? = some (table, q)) :
    u.handle src w r =
      let (reply, c, after) := (u.checker table).ask src w q
      (.reply reply, u.keep c, after) := by
  cases r <;> cases h <;> rfl

end UserAccess

/-- One request of a run: what it was, in which state of the collaborators it was made, and what came of it. -/
structure Turn (σ : Type) where
  request : Request
  before  : σ
  outcome : Outcome
  lookups : List Lookup
  left    : UserAccess
  after   : σ

/-- What a turn is to the checker of a table, if it puts a question to it. -/
def Turn.call? (table : TableId) (turn : Turn σ) : Option (Call σ) :=
  match turn.request.on? table, turn.outcome with
  | some q, .reply reply => some ⟨q, turn.before, reply, turn.lookups, turn.left.checker table, turn.after⟩
  | _, _ => none

namespace UserAccess

def turn (src : Sources σ) (u : UserAccess) (w : σ) (r : Request) : Turn σ :=
  let (outcome, left, after) := u.handle src w r
  ⟨r, w, outcome, (u.handle src.recorded (w, []) r).2.2.2, left, after⟩

def run (src : Sources σ) : UserAccess → List (σ × Request) → List (Turn σ)
  | _, [] => []
  | u, (w, r) :: rest => u.turn src w r :: (u.turn src w r).left.run src rest

def final (src : Sources σ) (u : UserAccess) (moments : List (σ × Request)) : UserAccess :=
  moments.foldl (fun u m => (u.turn src m.1 m.2).left) u

theorem run_append (src : Sources σ) : ∀ (u : UserAccess) (l k : List (σ × Request)),
    u.run src (l ++ k) = u.run src l ++ (u.final src l).run src k
  | _, [], _ => rfl
  | u, (w, r) :: l, k => by
    rw [List.cons_append, run, run, run_append src _ l k, List.cons_append]
    rfl

theorem final_append (src : Sources σ) (u : UserAccess) (l k : List (σ × Request)) :
    u.final src (l ++ k) = (u.final src l).final src k := List.foldl_append

variable (src : Sources σ) (u : UserAccess) (w : σ)

theorem call_table (table : TableId) (q : Question) : ((u.checker table).call src w q).left.table = table :=
  (Checker.ask_table src (u.checker table) w q).trans (checker_table u table)

/-- **A request about a table is a call to the checker of that table**, and keeps what the call leaves. -/
theorem turn_target {r : Request} {table : TableId} {q : Question} (h : r.target? = some (table, q)) :
    let call := (u.checker table).call src w q
    u.turn src w r = ⟨r, w, .reply call.reply, call.lookups, u.keep call.left, call.after⟩ := by
  rw [turn, handle_target src u w h, handle_target src.recorded u (w, []) h]
  rfl

theorem turn_on {r : Request} {table : TableId} {q : Question} (h : r.on? table = some q) :
    (u.turn src w r).call? table = some ((u.checker table).call src w q) ∧
      (u.turn src w r).left.checker table = ((u.checker table).call src w q).left := by
  have hk : (u.keep ((u.checker table).call src w q).left).checker table = ((u.checker table).call src w q).left := by
    have hs := checker_keep_self u ((u.checker table).call src w q).left
    rwa [call_table] at hs
  rw [turn_target src u w (Request.target?_of_on? h), Turn.call?]
  simp only [h, hk, and_true]
  rfl

theorem turn_left {r : Request} (h : r.target? = none) (hc : r.isClear = false) : (u.turn src w r).left = u := by
  cases r with
  | has | check | filter => cases h
  | scopes | hasFilterScope | cachedTables => rfl
  | clear => cases hc

theorem turn_off {r : Request} {table : TableId} (h : r.on? table = none) (hc : r.isClear = false) :
    (u.turn src w r).call? table = none ∧ (u.turn src w r).left.checker table = u.checker table := by
  have hn : (u.turn src w r).call? table = none := by
    have hr : (u.turn src w r).request.on? table = none := h
    rw [Turn.call?, hr]
  refine ⟨hn, ?_⟩
  cases ht : r.target? with
  | none => rw [turn_left src u w ht hc]
  | some target =>
    obtain ⟨t, q⟩ := target
    rw [turn_target src u w ht]
    refine checker_keep_of_ne u ?_
    rw [call_table]
    exact Request.ne_of_on?_none h ht

def asked (table : TableId) (moments : List (σ × Request)) : List (σ × Question) :=
  moments.filterMap fun m => (m.2.on? table).map fun q => (m.1, q)

/-- **What a run is to one table.**  As long as nothing is forgotten, the calls to the checker of a table are a run of
that checker alone. -/
theorem calls_run (table : TableId) : ∀ (u : UserAccess) (moments : List (σ × Request)),
    (∀ m ∈ moments, m.2.isClear = false) →
      (u.run src moments).filterMap (Turn.call? table) = (u.checker table).run src (asked table moments)
  | _, [], _ => rfl
  | u, (w, r) :: rest, hm => by
    have ih := calls_run table (u.turn src w r).left rest fun m h => hm m (List.mem_cons_of_mem _ h)
    rw [run, List.filterMap_cons, asked, List.filterMap_cons]
    -- a request about another table changes `u`, but not its checker for this one
    cases h : r.on? table with
    | none =>
      obtain ⟨hcall, hleft⟩ := turn_off src u w h (hm (w, r) List.mem_cons_self)
      rw [hleft] at ih
      rw [hcall, ih]
      rfl
    | some q =>
      obtain ⟨hcall, hleft⟩ := turn_on src u w h
      rw [hleft] at ih
      rw [hcall, ih]
      rfl

/-! ## The tables with a checker -/

def tables (u : UserAccess) : List TableId := u.checkers.map Checker.table

theorem tables_keep (u : UserAccess) (c : Checker) :
    (u.keep c).tables = if c.table ∈ u.tables then u.tables else u.tables ++ [c.table] := by
  have ha : u.checkers.any (·.table = c.table) = true ↔ c.table ∈ u.tables := by
    rw [List.any_eq_true, tables, List.mem_map]
    simp only [decide_eq_true_iff]
  unfold keep
  by_cases hm : c.table ∈ u.tables
  · rw [if_pos hm, ha.2 hm, if_pos rfl, tables, List.map_map, table_replaced, tables]
  · have hn : u.checkers.any (·.table = c.table) = false := by rw [← Bool.not_eq_true, ha]; exact hm
    rw [if_neg hm, hn, if_neg Bool.false_ne_true, tables, List.map_append, tables, List.map_singleton]

theorem tables_turn {r : Request} {table : TableId} {q : Question} (h : r.target? = some (table, q)) :
    (u.turn src w r).left.tables = if table ∈ u.tables then u.tables else u.tables ++ [table] := by
  rw [turn_target src u w h, tables_keep, call_table]

theorem mem_tables_turn {r : Request} {table : TableId} {q : Question} (h : r.target? = some (table, q))
    (hu : u.tables.Nodup) :
    (u.turn src w r).left.tables.Nodup ∧ ∀ t, t ∈ (u.turn src w r).left.tables ↔ t ∈ u.tables ∨ t = table := by
  rw [tables_turn src u w h]
  by_cases hm : table ∈ u.tables
  · rw [if_pos hm]
    exact ⟨hu, fun t => ⟨.inl, fun ht => ht.elim id fun he => he ▸ hm⟩⟩
  · rw [if_neg hm]
    refine ⟨hu.append (List.nodup_singleton _) (List.disjoint_singleton.2 hm), fun t => ?_⟩
    rw [List.mem_append, List.mem_singleton]

def askedTables (moments : List (σ × Request)) : List TableId := moments.filterMap fun m => m.2.target?.map Prod.fst

/-- No table has two checkers, and as long as nothing is forgotten the tables with one are those asked about. -/
theorem tables_final : ∀ (u : UserAccess) (moments : List (σ × Request)), (∀ m ∈ moments, m.2.isClear = false) →
    u.tables.Nodup → (u.final src moments).tables.Nodup ∧
      ∀ t, t ∈ (u.final src moments).tables ↔ t ∈ u.tables ∨ t ∈ askedTables moments
  | u, [], _, hu => ⟨hu, fun t => by simp [final, askedTables]⟩
  | u, (w, r) :: rest, hm, hu => by
    have ih := tables_final (u.turn src w r).left rest fun m h => hm m (List.mem_cons_of_mem _ h)
    rw [show u.final src ((w, r) :: rest) = (u.turn src w r).left.final src rest from rfl, askedTables,
      List.filterMap_cons]
    cases h : r.target? with
    | none =>
      rw [turn_left src u w h (hm (w, r) List.mem_cons_self)] at ih ⊢
      exact ih hu
    | some target =>
      obtain ⟨hn, ht⟩ := mem_tables_turn src u w h hu
      obtain ⟨hf, hi⟩ := ih hn
      refine ⟨hf, fun t => ?_⟩
      rw [hi, ht, or_assoc]
      simp only [Option.map_some, List.mem_cons]
      rfl

theorem cachedTables_final (user : Option UserId) (moments : List (σ × Request))
    (hm : ∀ m ∈ moments, m.2.isClear = false) :
    ((new user).final src moments).cachedTables = (askedTables moments).dedup.length := by
  obtain ⟨hn, ht⟩ := tables_final src (new user) moments hm List.nodup_nil
  have hp : ((new user).final src moments).tables.Perm (askedTables moments).dedup := by
    rw [List.perm_ext_iff_of_nodup hn (List.nodup_dedup _)]
    intro t
    rw [ht, List.mem_dedup]
    exact or_iff_right List.not_mem_nil
  rw [cachedTables, ← hp.length_eq, tables, List.length_map]

/-! ## What was forgotten -/

theorem user_turn (r : Request) : (u.turn src w r).left.user = u.user := by
  cases r <;> rfl

theorem user_final : ∀ (u : UserAccess) (moments : List (σ × Request)), (u.final src moments).user = u.user
  | _, [] => rfl
  | u, (w, r) :: rest => (user_final (u.turn src w r).left rest).trans (user_turn src u w r)

/-- After the checkers are forgotten a run goes on as if it began there. -/
theorem sinceClear_run (user : Option UserId) (moments : List (σ × Request)) :
    sinceClear Turn.request ((new user).run src moments) = (new user).run src (sinceClear Prod.snd moments) ∧
      (new user).final src moments = (new user).final src (sinceClear Prod.snd moments) := by
  -- from the end, since the last request decides whether anything is left
  induction moments using List.reverseRecOn with
  | nil => exact ⟨rfl, rfl⟩
  | append_singleton moments m ih =>
    obtain ⟨hr, hf⟩ := ih
    obtain ⟨w, r⟩ := m
    have hq : (((new user).final src moments).turn src w r).request.isClear = r.isClear := rfl
    rw [run_append, final_append, run, run, sinceClear_concat, sinceClear_concat, hq]
    cases hc : r.isClear with
    | true =>
      have hn : (((new user).final src moments).turn src w r).left = new user := by
        cases r <;> cases hc
        show ((new user).final src moments).clear = new user
        rw [clear, user_final]
        rfl
      exact ⟨rfl, hn⟩
    | false =>
      simp only [Bool.false_eq_true, if_false]
      rw [hr, hf, run_append, final_append]
      exact ⟨rfl, rfl⟩

/-! ## Requests for scopes -/

theorem scopes_lookups : (u.scopes src.recorded (w, [])).2.2 = u.user.toList.map Lookup.groups := by
  rw [scopes]
  cases u.user with
  | none => rfl
  | some id =>
    rcases h : src.groups id w with ⟨answer, after⟩
    have ha : src.recorded.groups id (w, []) = (answer, after, [.groups id]) := by simp [Sources.recorded, h]
    cases answer with
    | error e => rw [scopesOf, Query.bind_error ha]; rfl
    | ok groups => rw [scopesOf, Query.bind_ok ha]; rfl

theorem hasFilterScope_lookups (scope : Scope) :
    (u.hasFilterScope src.recorded scope (w, [])).2.2 = u.user.toList.map Lookup.groups := by
  have hs := scopes_lookups src u w
  rw [hasFilterScope, Query.bind_apply]
  rcases h : u.scopes src.recorded (w, []) with ⟨_ | _, after⟩ <;> rw [h] at hs <;> exact hs

/-- **A caller's checks are one checker for each table.**  Of the turns since the checkers were last forgotten, those
about a table are the run of a checker that was made for that table and this caller and was asked these questions
only, in the same states.  There are as many checkers as tables were asked about since, whatever the answers were.
Asking for scopes looks up no record and changes no checker. -/
theorem run_perTable (src : Sources σ) (user : Option UserId) (moments : List (σ × Request)) :
    (∀ table, (sinceClear Turn.request ((new user).run src moments)).filterMap (Turn.call? table) =
      (Checker.new table user).run src (asked table (sinceClear Prod.snd moments))) ∧
    ((new user).final src moments).cachedTables = (askedTables (sinceClear Prod.snd moments)).dedup.length ∧
    ∀ w scope,
      let u := (new user).final src moments
      (u.turn src w .scopes).left = u ∧ (u.turn src w (.hasFilterScope scope)).left = u ∧
        (u.turn src w .scopes).lookups = user.toList.map Lookup.groups ∧
        (u.turn src w (.hasFilterScope scope)).lookups = user.toList.map Lookup.groups := by
  have hm : ∀ m ∈ sinceClear Prod.snd moments, m.2.isClear = false := fun m h => isClear_of_mem h
  obtain ⟨hr, hf⟩ := sinceClear_run src user moments
  refine ⟨fun table => ?_, ?_, fun w scope => ⟨rfl, rfl, ?_, ?_⟩⟩
  · rw [hr]
    exact calls_run src table (new user) _ hm
  · rw [hf]
    exact cachedTables_final src user _ hm
  · have hs := scopes_lookups src ((new user).final src moments) w
    rw [user_final] at hs
    exact hs
  · have hs := hasFilterScope_lookups src ((new user).final src moments) w scope
    rw [user_final] at hs
    exact hs

end UserAccess
end TableAccess
