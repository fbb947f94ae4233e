import TableAccess.Checker
import TableAccess.Proofs.FailFast
/-!
# What a checker remembers

A run puts questions to one checker, each when the collaborators are in some state: others may act on them between two
questions, so nothing ties that state to the one the last question left.  Every run has two parts
(`Checker.run_phases`).  In the first, each question resolves anew and is answered with the failure of its resolution,
and the checker stays as it was made.  The second begins with the first resolution that succeeds; what it gave is the
answer to all later questions, and these ask nobody.
-/
namespace TableAccess

variable {σ : Type}

inductive Question where
  | permissions
  | has (p : Permission)
  | check (p : Permission)
  | filter (p : Permission) (row : String) (scope : Option Scope)

inductive Reply where
  | permissions (answer : Except StoreError PermissionSet)
  | has (answer : Except StoreError Bool)
  | verdict (answer : Except AccessError Unit)

namespace Question

def failure (e : StoreError) : Question → Reply
  | permissions => .permissions (.error e)
  | has _ => .has (.error e)
  | check _ => .verdict (.error (.storeUnavailable e))
  | filter _ _ _ => .verdict (.error (.storeUnavailable e))

def answer (table : TableId) (user : Option UserId) (held : PermissionSet) : Question → Reply
  | permissions => .permissions (.ok held)
  | has p => .has (.ok (decide (p ∈ held)))
  | check p => .verdict (if p ∈ held then .ok () else .error (.denied (.table table p user)))
  | filter p row scope =>
    .verdict (if p ∈ held ∨ filterAdmits user scope then .ok () else .error (.denied (.row row user)))

end Question

namespace Checker

def ask (src : Sources σ) (c : Checker) (w : σ) : Question → Reply × Checker × σ
  | .permissions =>
    let (answer, after) := c.permissions src w
    (.permissions answer, after)
  | .has p =>
    let (answer, after) := c.hasPermission src p w
    (.has answer, after)
  | .check p =>
    let (answer, after) := c.checkPermission src p w
    (.verdict answer, after)
  | .filter p row scope =>
    let (answer, after) := c.checkFilter src p row scope w
    (.verdict answer, after)

variable {src : Sources σ} {c : Checker} {w v : σ} {held : PermissionSet} {e : StoreError}

theorem hasPermission_of_ok {after : Checker × σ} (h : c.permissions src w = (.ok held, after)) (p : Permission) :
    c.hasPermission src p w = (.ok (decide (p ∈ held)), after) := by
  rw [hasPermission, h]
  rfl

theorem hasPermission_of_error {after : Checker × σ} (h : c.permissions src w = (.error e, after)) (p : Permission) :
    c.hasPermission src p w = (.error e, after) := by
  rw [hasPermission, h]
  rfl

theorem checkPermission_of_ok {after : Checker × σ} (h : c.permissions src w = (.ok held, after)) (p : Permission) :
    c.checkPermission src p w =
      (if p ∈ held then .ok () else .error (.denied (.table c.table p c.user)), after) := by
  rw [checkPermission, hasPermission_of_ok h]
  by_cases hp : p ∈ held <;> simp [hp]

theorem checkPermission_of_error {after : Checker × σ} (h : c.permissions src w = (.error e, after)) (p : Permission) :
    c.checkPermission src p w = (.error (.storeUnavailable e), after) := by
  rw [checkPermission, hasPermission_of_error h]

theorem checkFilter_of_ok {after : Checker × σ} (h : c.permissions src w = (.ok held, after)) (p : Permission)
    (row : String) (filter : Option Scope) :
    c.checkFilter src p row filter w =
      (if p ∈ held ∨ filterAdmits c.user filter then .ok () else .error (.denied (.row row c.user)), after) := by
  rw [checkFilter, hasPermission_of_ok h]
  by_cases hp : p ∈ held <;> simp [hp]

theorem checkFilter_of_error {after : Checker × σ} (h : c.permissions src w = (.error e, after)) (p : Permission)
    (row : String) (filter : Option Scope) :
    c.checkFilter src p row filter w = (.error (.storeUnavailable e), after) := by
  rw [checkFilter, hasPermission_of_error h]

/-- **Every question is decided by the permissions**, and leaves what these leave. -/
theorem ask_of_ok {after : Checker × σ} (h : c.permissions src w = (.ok held, after)) (q : Question) :
    c.ask src w q = (q.answer c.table c.user held, after) := by
  cases q with
  | permissions => rw [ask, h]; rfl
  | has p => rw [ask, hasPermission_of_ok h]; rfl
  | check p => rw [ask, checkPermission_of_ok h]; rfl
  | filter p row scope => rw [ask, checkFilter_of_ok h]; rfl

/-- **No question is decided without the permissions.** -/
theorem ask_of_error {after : Checker × σ} (h : c.permissions src w = (.error e, after)) (q : Question) :
    c.ask src w q = (q.failure e, after) := by
  cases q with
  | permissions => rw [ask, h]; rfl
  | has p => rw [ask, hasPermission_of_error h]; rfl
  | check p => rw [ask, checkPermission_of_error h]; rfl
  | filter p row scope => rw [ask, checkFilter_of_error h]; rfl

theorem permissions_left (src : Sources σ) (c : Checker) (w : σ) :
    (c.permissions src w).2.1 = { c with known := (c.permissions src w).2.1.known } := by
  unfold permissions
  split
  · rfl
  · split <;> rfl

/-- A question changes nothing in a checker but what it knows. -/
theorem ask_left (src : Sources σ) (c : Checker) (w : σ) (q : Question) :
    (c.ask src w q).2.1 = { c with known := (c.ask src w q).2.1.known } := by
  have hl := permissions_left src c w
  rcases h : c.permissions src w with ⟨e | held, after⟩ <;> rw [h] at hl
  · rw [ask_of_error h]; exact hl
  · rw [ask_of_ok h]; exact hl

theorem ask_table (src : Sources σ) (c : Checker) (w : σ) (q : Question) : (c.ask src w q).2.1.table = c.table := by
  rw [ask_left]

theorem ask_user (src : Sources σ) (c : Checker) (w : σ) (q : Question) : (c.ask src w q).2.1.user = c.user := by
  rw [ask_left]

theorem permissions_of_known (h : c.known = some held) (src : Sources σ) (w : σ) :
    c.permissions src w = (.ok held, c, w) := by
  rw [permissions, h]

theorem permissions_of_resolved (h : c.known = none) (hr : resolve src c.user c.table w = (.ok held, v)) :
    c.permissions src w = (.ok held, { c with known := some held }, v) := by
  rw [permissions, h]
  simp only [hr]

theorem permissions_of_failed (h : c.known = none) (hr : resolve src c.user c.table w = (.error e, v)) :
    c.permissions src w = (.error e, c, v) := by
  rw [permissions, h]
  simp only [hr]

end Checker

/-! ## Runs -/

/-- One question of a run: what it was, in which state of the collaborators it was put, and what came of it. -/
structure Call (σ : Type) where
  question : Question
  before   : σ
  reply    : Reply
  lookups  : List Lookup
  left     : Checker
  after    : σ

namespace Checker

/-- Puts a question.  What the collaborators are asked is what a record of it would show. -/
def call (src : Sources σ) (c : Checker) (w : σ) (q : Question) : Call σ :=
  let (reply, left, after) := c.ask src w q
  ⟨q, w, reply, (c.ask src.recorded (w, []) q).2.2.2, left, after⟩

def run (src : Sources σ) : Checker → List (σ × Question) → List (Call σ)
  | _, [] => []
  | c, (w, q) :: rest => c.call src w q :: (c.call src w q).left.run src rest

end Checker

namespace Call

variable (src : Sources σ) (table : TableId) (user : Option UserId)

/-- The question resolved anew, failed, and left the checker as it was made. -/
structure Failed (e : StoreError) (call : Call σ) : Prop where
  resolution : resolve src user table call.before = (.error e, call.after)
  lookups : call.lookups = (resolve src.recorded user table (call.before, [])).2.2
  begins : call.lookups.head? = some (.acl table .default)
  reply : call.reply = call.question.failure e
  left : call.left = .new table user

/-- The question resolved anew, was answered from what that gave, and the checker keeps it. -/
structure Resolved (held : PermissionSet) (call : Call σ) : Prop where
  resolution : resolve src user table call.before = (.ok held, call.after)
  lookups : call.lookups = (resolve src.recorded user table (call.before, [])).2.2
  begins : call.lookups.head? = some (.acl table .default)
  reply : call.reply = call.question.answer table user held
  left : call.left = { Checker.new table user with known := some held }

/-- The question was answered from what the checker knew, and nobody was asked. -/
structure Remembered (table : TableId) (user : Option UserId) (held : PermissionSet) (call : Call σ) : Prop where
  lookups : call.lookups = []
  after : call.after = call.before
  reply : call.reply = call.question.answer table user held
  left : call.left = { Checker.new table user with known := some held }

end Call

namespace Checker

theorem call_remembered (src : Sources σ) (table : TableId) (user : Option UserId) (held : PermissionSet) (w : σ)
    (q : Question) : (call src { new table user with known := some held } w q).Remembered table user held := by
  have hk : ({ new table user with known := some held } : Checker).known = some held := rfl
  rw [call, ask_of_ok (permissions_of_known hk src w), ask_of_ok (permissions_of_known hk src.recorded (w, []))]
  exact ⟨rfl, rfl, rfl, rfl⟩

theorem call_new (src : Sources σ) (table : TableId) (user : Option UserId) (w : σ) (q : Question) :
    (∃ e, ((new table user).call src w q).Failed src table user e) ∨
      ∃ held, ((new table user).call src w q).Resolved src table user held := by
  have hk : (new table user).known = none := rfl
  have hb := resolve_asks_default src user table w
  obtain ⟨trace, answer, after, -, hr, hs, -⟩ := resolve_recorded src user table w
  cases answer with
  | error e =>
    refine .inl ⟨e, ?_⟩
    rw [call, ask_of_error (permissions_of_failed hk hs), ask_of_error (permissions_of_failed hk hr)]
    rw [hr] at hb
    exact ⟨hs, by rw [hr], hb, rfl, rfl⟩
  | ok held =>
    refine .inr ⟨held, ?_⟩
    rw [call, ask_of_ok (permissions_of_resolved hk hs), ask_of_ok (permissions_of_resolved hk hr)]
    rw [hr] at hb
    exact ⟨hs, by rw [hr], hb, rfl, rfl⟩

theorem run_remembered (src : Sources σ) (table : TableId) (user : Option UserId) (held : PermissionSet) :
    ∀ moments, ∀ call ∈ run src { new table user with known := some held } moments, call.Remembered table user held
  | [], _, h => nomatch h
  | (w, q) :: rest, call, h => by
    have hc := call_remembered src table user held w q
    rcases List.mem_cons.1 h with rfl | h
    · exact hc
    · rw [hc.left] at h
      exact run_remembered src table user held rest call h

theorem map_run (src : Sources σ) : ∀ (c : Checker) (moments : List (σ × Question)),
    (c.run src moments).map (fun call => (call.before, call.question)) = moments
  | _, [] => rfl
  | c, (w, q) :: rest => by
    rw [run, List.map_cons, map_run src _ rest]
    rfl

theorem run_split (src : Sources σ) (table : TableId) (user : Option UserId) : ∀ moments : List (σ × Question),
    ∃ failed answered, (new table user).run src moments = failed ++ answered ∧
      (∀ call ∈ failed, ∃ e, call.Failed src table user e) ∧
      (answered = [] ∨ ∃ held first later, answered = first :: later ∧ first.Resolved src table user held ∧
        ∀ call ∈ later, call.Remembered table user held)
  | [] => ⟨[], [], rfl, fun _ h => (nomatch h), .inl rfl⟩
  | (w, q) :: rest => by
    rw [run]
    rcases call_new src table user w q with ⟨e, hc⟩ | ⟨held, hc⟩
    · -- the checker is as it was made, so the rest is a run of its own
      obtain ⟨failed, answered, hr, hf, ha⟩ := run_split src table user rest
      refine ⟨(new table user).call src w q :: failed, answered, ?_, ?_, ha⟩
      · rw [hc.left, hr, List.cons_append]
      · intro call h
        rcases List.mem_cons.1 h with rfl | h
        · exact ⟨e, hc⟩
        · exact hf call h
    · refine ⟨[], _, rfl, fun _ h => (nomatch h), .inr ⟨held, _, _, rfl, hc, ?_⟩⟩
      rw [hc.left]
      exact run_remembered src table user held rest

/-- **A checker resolves until it succeeds once.**  Up to the first resolution that succeeds, every question resolves
anew, fails with that resolution and leaves the checker as it was made.  What that first one gives is kept: it is the
answer to every later question, whatever the collaborators have become, and these are asked nothing more. -/
theorem run_phases (src : Sources σ) (table : TableId) (user : Option UserId) (moments : List (σ × Question)) :
    ∃ failed answered, (new table user).run src moments = failed ++ answered ∧
      (failed ++ answered).map (fun call => (call.before, call.question)) = moments ∧
      (∀ call ∈ failed, ∃ e, call.Failed src table user e) ∧
      (answered = [] ∨ ∃ held first later, answered = first :: later ∧ first.Resolved src table user held ∧
        ∀ call ∈ later, call.Remembered table user held) := by
  obtain ⟨failed, answered, hr, hf, ha⟩ := run_split src table user moments
  refine ⟨failed, answered, hr, ?_, hf, ha⟩
  rw [← hr]
  exact map_run src (new table user) moments

end Checker
end TableAccess
