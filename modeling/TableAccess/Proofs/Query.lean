import TableAccess.Resolution
/-!
# Questions to related collaborators

A question is a function of the collaborators' state, and questions that follow each other pass the state on until one
of them fails (`Query.bind_apply`).  Two collaborators that answer alike from related states, and stay related, lead
to the same resolution (`resolve_related`).  So neither a list of the questions asked nor anything else that is kept
beside a state changes what is answered.  They need not answer everything alike: what the caller is told about the table
rests on the scopes that the caller takes part in (`resolve_alike`).
-/
namespace TableAccess

variable {σ τ α β : Type}

namespace Query

/-- **The second question is put where the first was answered**, in the state that the first has left. -/
theorem bind_apply (x : Query σ α) (f : α → Query σ β) (w : σ) :
    (x >>= f) w = match x w with
      | (.ok a, w) => f a w
      | (.error e, w) => (.error e, w) := by
  show (ExceptT.bindCont f (x w).1) (x w).2 = _
  rcases x w with ⟨_ | _, _⟩ <;> rfl

theorem bind_ok {x : Query σ α} {f : α → Query σ β} {w v : σ} {a : α} (h : x w = (.ok a, v)) :
    (x >>= f) w = f a v := by
  rw [bind_apply, h]

theorem bind_error {x : Query σ α} {f : α → Query σ β} {w v : σ} {e : StoreError} (h : x w = (.error e, v)) :
    (x >>= f) w = (.error e, v) := by
  rw [bind_apply, h]

/-- Two questions get the same answer from related states, and leave related states. -/
def Related (R : σ → τ → Prop) (x : Query σ α) (y : Query τ α) : Prop :=
  ∀ w v, R w v → (x w).1 = (y v).1 ∧ R (x w).2 (y v).2

variable {R : σ → τ → Prop}

theorem Related.pure (R : σ → τ → Prop) (a : α) : Related R (pure a : Query σ α) (pure a : Query τ α) :=
  fun _ _ h => ⟨rfl, h⟩

/-- The second question need be related for the answers that the first can get. -/
theorem Related.bind_answer {x : Query σ α} {y : Query τ α} {f : α → Query σ β} {g : α → Query τ β}
    (hx : Related R x y) (hf : ∀ a w v, x w = (.ok a, v) → Related R (f a) (g a)) : Related R (x >>= f) (y >>= g) := by
  intro w v h
  obtain ⟨ha, hs⟩ := hx w v h
  rw [bind_apply, bind_apply]
  rcases hxw : x w with ⟨_ | a, w'⟩ <;> rcases hyv : y v with ⟨_ | b, v'⟩ <;> rw [hxw, hyv] at ha hs
  · exact ⟨by cases ha; rfl, hs⟩
  · cases ha
  · cases ha
  · cases ha
    exact hf a w w' hxw w' v' hs

theorem Related.bind {x : Query σ α} {y : Query τ α} {f : α → Query σ β} {g : α → Query τ β}
    (hx : Related R x y) (hf : ∀ a, Related R (f a) (g a)) : Related R (x >>= f) (y >>= g) :=
  hx.bind_answer fun a _ _ _ => hf a

theorem Related.foldlM {f : β → α → Query σ β} {g : β → α → Query τ β} :
    ∀ (l : List α), (∀ b, ∀ a ∈ l, Related R (f b a) (g b a)) → ∀ b, Related R (l.foldlM f b) (l.foldlM g b)
  | [], _, b => Related.pure R b
  | a :: l, hf, b => by
    rw [List.foldlM_cons, List.foldlM_cons]
    exact (hf b a List.mem_cons_self).bind (Related.foldlM l fun b a ha => hf b a (List.mem_cons_of_mem _ ha))

end Query

open Query

/-- Collaborators that answer every question alike from related states. -/
structure Sources.Related (R : σ → τ → Prop) (src : Sources σ) (dst : Sources τ) : Prop where
  acl : ∀ table scope, Query.Related R (src.acl table scope) (dst.acl table scope)
  groups : ∀ user, Query.Related R (src.groups user) (dst.groups user)

/-- **Collaborators that are alike to a caller on a table**: from related states they list the same groups, and give the
same answers about the records for everyone, for the caller, and for each group that they list. -/
structure Sources.AlikeFor (R : σ → τ → Prop) (src : Sources σ) (dst : Sources τ) (user : Option UserId)
    (table : TableId) : Prop where
  everyone : Query.Related R (src.acl table .default) (dst.acl table .default)
  own : ∀ id ∈ user, Query.Related R (src.acl table (.user (some id))) (dst.acl table (.user (some id)))
  groups : ∀ id ∈ user, Query.Related R (src.groups id) (dst.groups id)
  group : ∀ id ∈ user, ∀ names w v, src.groups id w = (.ok names, v) →
    ∀ name ∈ names, Query.Related R (src.acl table (.group name)) (dst.acl table (.group name))

variable {R : σ → τ → Prop} {src : Sources σ} {dst : Sources τ} {user : Option UserId} {table : TableId}

theorem Sources.Related.alikeFor (h : src.Related R dst) (user : Option UserId) (table : TableId) :
    src.AlikeFor R dst user table where
  everyone := h.acl table .default
  own id _ := h.acl table (.user (some id))
  groups id _ := h.groups id
  group _ _ _ _ _ _ name _ := h.acl table (.group name)

theorem addScope_alike {scope : Scope} (h : Query.Related R (src.acl table scope) (dst.acl table scope))
    (held : PermissionSet) : Query.Related R (addScope src table held scope) (addScope dst table held scope) := by
  refine h.bind fun found => ?_
  cases found with
  | none => exact Related.pure R held
  | some acl => exact Related.pure R _

/-- **Collaborators that are alike to a caller lead to the same resolution**, and stay related. -/
theorem resolve_alike (h : src.AlikeFor R dst user table) :
    Query.Related R (resolve src user table) (resolve dst user table) := by
  refine (addScope_alike h.everyone ∅).bind fun held => ?_
  cases user with
  | none => exact Related.pure R held
  | some id =>
    refine (addScope_alike (h.own id rfl) held).bind fun held => ?_
    refine (h.groups id rfl).bind_answer fun names w v hn => ?_
    exact Related.foldlM names (fun held name hm => addScope_alike (h.group id rfl names w v hn name hm) held) held

theorem resolve_related (h : src.Related R dst) (user : Option UserId) (table : TableId) :
    Query.Related R (resolve src user table) (resolve dst user table) :=
  resolve_alike (h.alikeFor user table)

theorem scopesOf_alike (h : src.AlikeFor R dst user table) :
    Query.Related R (scopesOf src user) (scopesOf dst user) := by
  cases user with
  | none => exact Related.pure R _
  | some id => exact (h.groups id rfl).bind fun names => Related.pure R _

end TableAccess
