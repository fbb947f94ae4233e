import TableAccess.Proofs.Query
/-!
# What a resolution asks, and where it stops

`traced` keeps every question with the answer it got.  `plan` is the row of questions that a resolution would ask if
none failed; its last part depends on the groups that were listed on the way.  A resolution asks the questions of its
plan in order.  It either asks them all and gives the union of what the records gave, or it stops at the first that
fails and gives that failure (`resolve_failFast`).

Nothing is assumed of the collaborators: they answer and fail as they like, and may answer the same question
differently the second time.
-/
namespace TableAccess

variable {σ : Type}

inductive Exchange where
  | acl (table : TableId) (scope : Scope) (answer : Except StoreError (Option Acl))
  | groups (user : UserId) (answer : Except StoreError (List String))

namespace Exchange

def lookup : Exchange → Lookup
  | acl table scope _ => .acl table scope
  | groups user _ => .groups user

def failure? : Exchange → Option StoreError
  | acl _ _ (.error e) => some e
  | groups _ (.error e) => some e
  | _ => none

def listed : Exchange → List String
  | groups _ (.ok names) => names
  | _ => []

def given : Exchange → List Permission
  | acl _ _ (.ok (some record)) => record.role.permissions
  | _ => []

end Exchange

/-- The same answers, with each question and its answer added to a list. -/
def Sources.traced (src : Sources σ) : Sources (σ × List Exchange) where
  acl table scope := fun (w, trace) =>
    let (answer, w) := src.acl table scope w
    (answer, w, trace ++ [.acl table scope answer])
  groups user := fun (w, trace) =>
    let (answer, w) := src.groups user w
    (answer, w, trace ++ [.groups user answer])

theorem Sources.traced_related (src : Sources σ) : src.traced.Related (fun p w => p.1 = w) src where
  acl _ _ := fun _ _ h => by subst h; exact ⟨rfl, rfl⟩
  groups _ := fun _ _ h => by subst h; exact ⟨rfl, rfl⟩

theorem Sources.traced_recorded (src : Sources σ) :
    src.traced.Related (fun p q => p.1 = q.1 ∧ p.2.map Exchange.lookup = q.2) src.recorded where
  acl table scope := by
    rintro ⟨w, trace⟩ ⟨_, _⟩ ⟨rfl, rfl⟩
    exact ⟨rfl, rfl, List.map_append⟩
  groups user := by
    rintro ⟨w, trace⟩ ⟨_, _⟩ ⟨rfl, rfl⟩
    exact ⟨rfl, rfl, List.map_append⟩

/-- The questions of a resolution, given the groups of the caller. -/
def plan (table : TableId) : Option UserId → List String → List Lookup
  | none, _ => [.acl table .default]
  | some id, groups =>
    .acl table .default :: .acl table (.user (some id)) :: .groups id ::
      groups.map fun group => .acl table (.group group)

/-- **The two ways to go through a plan** with a set that is held already: every question of the plan is answered and
what they gave is added to the set, or the questions up to one are answered, that one fails, and its failure is the
answer. -/
inductive FailFast : List Lookup → PermissionSet → List Exchange → Except StoreError PermissionSet → Prop
  | done {held : PermissionSet} {trace : List Exchange} (answered : ∀ x ∈ trace, x.failure? = none) :
    FailFast (trace.map Exchange.lookup) held trace (.ok (held.grant (trace.flatMap Exchange.given)))
  | failed {held : PermissionSet} {before : List Exchange} {last : Exchange} {e : StoreError} {unasked : List Lookup}
    (answered : ∀ x ∈ before, x.failure? = none) (fails : last.failure? = some e) :
    FailFast ((before ++ [last]).map Exchange.lookup ++ unasked) held (before ++ [last]) (.error e)

namespace FailFast

variable {p q : List Lookup} {held mid : PermissionSet} {trace more : List Exchange}
  {answer : Except StoreError PermissionSet} {e : StoreError}

theorem stop (h : FailFast p held trace (.error e)) (q : List Lookup) : FailFast (p ++ q) held trace (.error e) := by
  cases h with
  | failed answered fails =>
    rw [List.append_assoc]
    exact .failed answered fails

theorem asked_prefix (h : FailFast p held trace answer) : trace.map Exchange.lookup <+: p := by
  cases h with
  | done => exact List.prefix_rfl
  | failed => exact List.prefix_append _ _

theorem asked_first {x : Lookup} (h : FailFast (x :: p) held trace answer) :
    ∃ rest, trace.map Exchange.lookup = x :: rest ∧ rest <+: p := by
  rcases List.prefix_cons_iff.1 h.asked_prefix with hn | hr
  · rw [List.map_eq_nil_iff] at hn
    generalize hq : x :: p = q at h
    cases h with
    | done => rw [hn] at hq; cases hq
    | failed => cases (List.append_eq_nil_iff.1 hn).2
  · exact hr

theorem append (h : FailFast p held trace (.ok mid)) (k : FailFast q mid more answer) :
    FailFast (p ++ q) held (trace ++ more) answer := by
  cases h with
  | done answered =>
    cases k with
    | done answered' =>
      rw [← List.map_append, PermissionSet.grant_grant, ← List.flatMap_append]
      exact .done fun x hx => (List.mem_append.1 hx).elim (answered x) (answered' x)
    | failed answered' fails =>
      rw [← List.append_assoc, ← List.map_append, ← List.append_assoc]
      exact .failed (fun x hx => (List.mem_append.1 hx).elim (answered x) (answered' x)) fails

theorem answered {x : Exchange} (h : x.failure? = none) (held : PermissionSet) :
    FailFast [x.lookup] held [x] (.ok (held.grant x.given)) := by
  have hx : FailFast _ held [x] _ := .done fun y hy => by rw [List.mem_singleton.1 hy, h]
  simpa using hx

theorem unanswered {x : Exchange} (h : x.failure? = some e) (held : PermissionSet) :
    FailFast [x.lookup] held [x] (.error e) := by
  have hx : FailFast (([] ++ [x]).map Exchange.lookup ++ []) held ([] ++ [x]) _ := .failed (fun _ hx => nomatch hx) h
  exact hx

/-- A resolution gives a set exactly when none of its questions fails. -/
theorem answered_iff (h : FailFast p held trace answer) :
    (∀ x ∈ trace, x.failure? = none) ↔ ∃ found, answer = .ok found := by
  cases h with
  | done answered => exact ⟨fun _ => ⟨_, rfl⟩, fun _ => answered⟩
  | failed _ fails =>
    constructor
    · intro h
      rw [h _ (List.mem_append_right _ (List.mem_singleton_self _))] at fails
      cases fails
    · rintro ⟨found, hf⟩
      cases hf

end FailFast

/-- A stretch of a resolution that lists no groups: from every state it goes through a plan, and its exchanges come
after those before it. -/
def GoesThrough (p : List Lookup) (held : PermissionSet) (x : Query (σ × List Exchange) PermissionSet) : Prop :=
  ∀ w before, ∃ trace answer after, x (w, before) = (answer, after, before ++ trace) ∧
    FailFast p held trace answer ∧ trace.flatMap Exchange.listed = []

namespace GoesThrough

variable {p q : List Lookup} {held : PermissionSet} {x : Query (σ × List Exchange) PermissionSet}
  {f : PermissionSet → Query (σ × List Exchange) PermissionSet}

theorem pure (held : PermissionSet) : GoesThrough [] held (Pure.pure held : Query (σ × List Exchange) _) := by
  intro w before
  have h : FailFast _ held [] _ := .done fun _ hx => nomatch hx
  rw [List.flatMap_nil, PermissionSet.grant_nil] at h
  exact ⟨[], .ok held, w, by rw [List.append_nil]; rfl, h, rfl⟩

theorem bind (hx : GoesThrough p held x) (hf : ∀ mid, GoesThrough q mid (f mid)) :
    GoesThrough (p ++ q) held (x >>= f) := by
  intro w before
  obtain ⟨trace, answer, after, hw, hp, hl⟩ := hx w before
  cases answer with
  | error e => exact ⟨trace, .error e, after, Query.bind_error hw, hp.stop q, hl⟩
  | ok mid =>
    obtain ⟨more, answer, last, hv, hq, hm⟩ := hf mid after (before ++ trace)
    refine ⟨trace ++ more, answer, last, ?_, hp.append hq, ?_⟩
    · rw [Query.bind_ok hw, hv, List.append_assoc]
    · rw [List.flatMap_append, hl, hm, List.append_nil]

end GoesThrough

theorem addScope_goesThrough (src : Sources σ) (table : TableId) (held : PermissionSet) (scope : Scope) :
    GoesThrough [.acl table scope] held (addScope src.traced table held scope) := by
  intro w before
  rcases h : src.acl table scope w with ⟨answer, after⟩
  have ha : src.traced.acl table scope (w, before) = (answer, after, before ++ [.acl table scope answer]) := by
    simp only [Sources.traced, h]
  cases answer with
  | error e =>
    have hx : (Exchange.acl table scope (.error e)).failure? = some e := rfl
    exact ⟨_, _, _, Query.bind_error ha, .unanswered hx held, rfl⟩
  | ok found =>
    have hx : (Exchange.acl table scope (.ok found)).failure? = none := rfl
    have hd := FailFast.answered hx held
    cases found with
    | none =>
      rw [show (Exchange.acl table scope (.ok none)).given = [] from rfl, PermissionSet.grant_nil] at hd
      exact ⟨_, .ok held, after, Query.bind_ok ha, hd, rfl⟩
    | some acl => exact ⟨_, .ok (held.grant acl.role.permissions), after, Query.bind_ok ha, hd, rfl⟩

theorem addGroups_goesThrough (src : Sources σ) (table : TableId) :
    ∀ (groups : List String) (held : PermissionSet),
      GoesThrough (groups.map fun group => .acl table (.group group)) held
        (groups.foldlM (fun held group => addScope src.traced table held (.group group)) held)
  | [], held => GoesThrough.pure held
  | group :: groups, held => by
    rw [List.foldlM_cons, List.map_cons, ← List.singleton_append]
    exact (addScope_goesThrough src table held (.group group)).bind (addGroups_goesThrough src table groups)

def addOwnGroups (src : Sources σ) (table : TableId) (id : UserId) (held : PermissionSet) : Query σ PermissionSet := do
  let groups ← src.groups id
  groups.foldlM (fun held group => addScope src table held (.group group)) held

theorem addOwnGroups_traced (src : Sources σ) (table : TableId) (id : UserId) (held : PermissionSet) (w : σ)
    (before : List Exchange) :
    ∃ trace answer after, addOwnGroups src.traced table id held (w, before) = (answer, after, before ++ trace) ∧
      FailFast (.groups id :: (trace.flatMap Exchange.listed).map fun group => .acl table (.group group))
        held trace answer := by
  rcases h : src.groups id w with ⟨answer, after⟩
  have ha : src.traced.groups id (w, before) = (answer, after, before ++ [.groups id answer]) := by
    simp only [Sources.traced, h]
  cases answer with
  | error e =>
    have hx : (Exchange.groups id (.error e)).failure? = some e := rfl
    exact ⟨[.groups id (.error e)], _, _, Query.bind_error ha, .unanswered hx held⟩
  | ok groups =>
    have hx : (Exchange.groups id (.ok groups)).failure? = none := rfl
    have hd := FailFast.answered hx held
    rw [show (Exchange.groups id (.ok groups)).given = [] from rfl, PermissionSet.grant_nil] at hd
    obtain ⟨more, answer, last, hv, hp, hl⟩ :=
      addGroups_goesThrough src table groups held after (before ++ [.groups id (.ok groups)])
    refine ⟨.groups id (.ok groups) :: more, answer, last, ?_, ?_⟩
    · rw [addOwnGroups, Query.bind_ok ha, hv, List.append_assoc, List.singleton_append]
    · rw [List.flatMap_cons, hl, List.append_nil]
      exact hd.append hp

/-- **A resolution goes through its plan**, whose last part is made of the groups that were listed on the way. -/
theorem resolve_traced (src : Sources σ) (user : Option UserId) (table : TableId) (w : σ) :
    ∃ trace answer after, resolve src.traced user table (w, []) = (answer, after, trace) ∧
      FailFast (plan table user (trace.flatMap Exchange.listed)) ∅ trace answer := by
  cases user with
  | none =>
    obtain ⟨trace, answer, after, hw, hp, -⟩ :=
      ((addScope_goesThrough src table ∅ .default).bind GoesThrough.pure) w []
    exact ⟨trace, answer, after, hw, hp⟩
  | some id =>
    -- the plan is known up to the groups, which are first listed after these two
    obtain ⟨trace, answer, after, hw, hp, hl⟩ := ((addScope_goesThrough src table ∅ .default).bind
      fun held => addScope_goesThrough src table held (.user (some id))) w []
    rw [List.nil_append] at hw
    have hr : resolve src.traced (some id) table = (addScope src.traced table ∅ .default >>= fun held =>
        addScope src.traced table held (.user (some id))) >>= addOwnGroups src.traced table id := by
      rw [bind_assoc]; rfl
    rw [hr]
    cases answer with
    | error e =>
      refine ⟨trace, .error e, after, Query.bind_error hw, ?_⟩
      rw [hl]
      exact hp.stop [.groups id]
    | ok mid =>
      obtain ⟨more, answer, last, hv, hq⟩ := addOwnGroups_traced src table id mid after trace
      refine ⟨trace ++ more, answer, last, (Query.bind_ok hw).trans hv, ?_⟩
      rw [List.flatMap_append, hl, List.nil_append]
      exact hp.append hq

theorem resolve_recorded (src : Sources σ) (user : Option UserId) (table : TableId) (w : σ) :
    ∃ trace answer after, resolve src.traced user table (w, []) = (answer, after, trace) ∧
      resolve src.recorded user table (w, []) = (answer, after, trace.map Exchange.lookup) ∧
      resolve src user table w = (answer, after) ∧
      FailFast (plan table user (trace.flatMap Exchange.listed)) ∅ trace answer := by
  obtain ⟨trace, answer, after, hw, hp⟩ := resolve_traced src user table w
  obtain ⟨ha, hs⟩ := resolve_related src.traced_related user table (w, []) w rfl
  obtain ⟨hb, hr, hl⟩ := resolve_related src.traced_recorded user table (w, []) (w, []) ⟨rfl, rfl⟩
  rw [hw] at ha hs hb hr hl
  exact ⟨trace, answer, after, hw, Prod.ext hb.symm (Prod.ext hr.symm hl.symm), Prod.ext ha.symm hs.symm, hp⟩

theorem resolve_asks_default (src : Sources σ) (user : Option UserId) (table : TableId) (w : σ) :
    (resolve src.recorded user table (w, [])).2.2.head? = some (.acl table .default) := by
  obtain ⟨trace, answer, after, -, hr, -, hp⟩ := resolve_recorded src user table w
  have hf : ∃ rest, trace.map Exchange.lookup = .acl table .default :: rest := by
    cases user with
    | none => exact hp.asked_first.imp fun _ h => h.1
    | some id => exact hp.asked_first.imp fun _ h => h.1
  obtain ⟨rest, hf⟩ := hf
  rw [hr, hf, List.head?_cons]

/-- **A resolution stops at the first failure and answers with it.**  Whatever the collaborators do, the questions are
the front of the plan, each is put once, and the answer is the failure of the last or, when none fails, the union of
what the records gave.  For a caller without an identity there is one question, and who lists the groups does not
matter. -/
theorem resolve_failFast (src : Sources σ) (user : Option UserId) (table : TableId) (w : σ) :
    (∃ trace answer after,
      resolve src.traced user table (w, []) = (answer, after, trace) ∧
      resolve src.recorded user table (w, []) = (answer, after, trace.map Exchange.lookup) ∧
      resolve src user table w = (answer, after) ∧
      trace.map Exchange.lookup <+: plan table user (trace.flatMap Exchange.listed) ∧
      FailFast (plan table user (trace.flatMap Exchange.listed)) ∅ trace answer) ∧
    (resolve src.recorded none table (w, [])).2.2 = [.acl table .default] ∧
    ∀ groups, resolve { src with groups := groups } none table w = resolve src none table w := by
  refine ⟨?_, ?_, fun groups => rfl⟩
  · obtain ⟨trace, answer, after, hw, hr, hs, hp⟩ := resolve_recorded src user table w
    exact ⟨trace, answer, after, hw, hr, hs, hp.asked_prefix, hp⟩
  · obtain ⟨trace, answer, after, -, hr, -, hp⟩ := resolve_recorded src none table w
    obtain ⟨rest, ha, hn⟩ := hp.asked_first
    rw [hr, ha, List.prefix_nil.1 hn]

end TableAccess
