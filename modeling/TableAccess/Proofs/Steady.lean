import Mathlib
import TableAccess.Proofs.Members
/-!
# What the order of members decides

A record is read from a table field by field, and a field is found wherever it stands.  So what is read does not hang on
the order of members, at any depth, but for the scopes: the value of a scope is read to the letter where it comes before
the type.  That matters only if the value is a number or a truth value (`Reading.scope_steady`), and a whole
configuration is read alike in every order exactly if the scopes of its records are (`Reading.config_steady`,
`Reading.acls_of_config_steady`).
-/
namespace TableAccess

/-! ## The same data in another order -/

namespace Datum

/-- What does not look into tables and lists does not see an order. -/
theorem Rearranged.eq_of_shape {α : Type} {f : Datum → α} {d e : Datum} (h : d.Rearranged e)
    (htable : ∀ ms ms', f (.table ms) = f (.table ms')) (hlist : ∀ ds ds', f (.list ds) = f (.list ds')) :
    f d = f e := by
  induction h with
  | refl d => rfl
  | members h => exact htable _ _
  | member before after name h ih => exact htable _ _
  | item before after h ih => exact hlist _ _
  | trans h h' ih ih' => exact ih.trans ih'

theorem Rearranged.isNil_eq {d e : Datum} (h : d.Rearranged e) : d.isNil = e.isNil :=
  h.eq_of_shape (fun _ _ => rfl) fun _ _ => rfl

/-- What a value is, its members and elements aside. -/
def shape : Datum → Datum
  | .table _ => .table []
  | .list _ => .list []
  | d => d

theorem forall₂_trans : ∀ {ds es fs : List Datum}, List.Forall₂ Rearranged ds es → List.Forall₂ Rearranged es fs →
    List.Forall₂ Rearranged ds fs
  | _, _, _, .nil, .nil => .nil
  | _, _, _, .cons h t, .cons h' t' => .cons (h.trans h') (forall₂_trans t t')

/-- The elements of a list stay where they are. -/
theorem Rearranged.items {d e : Datum} (h : d.Rearranged e) : List.Forall₂ Rearranged d.items e.items := by
  induction h with
  | refl d => exact List.forall₂_same.2 fun x _ => .refl x
  | members h => exact .nil
  | member before after name h ih => exact .nil
  | item before after h ih =>
    exact List.rel_append (List.forall₂_same.2 fun x _ => .refl x) (.cons h (List.forall₂_same.2 fun x _ => .refl x))
  | trans h h' ih ih' => exact forall₂_trans ih ih'

/-- **What data in another order are**: a table of the same, a list of the same, or themselves. -/
theorem Rearranged.cases {d e : Datum} (h : d.Rearranged e) :
    (∃ ms ms', d = .table ms ∧ e = .table ms') ∨
      (∃ ds es, d = .list ds ∧ e = .list es ∧ List.Forall₂ Rearranged ds es) ∨ e = d := by
  have hs : d.shape = e.shape := h.eq_of_shape (fun _ _ => rfl) fun _ _ => rfl
  have hi := h.items
  cases d <;> cases e <;> simp_all [shape, Datum.items]

/-- The first of the members of a name in another order. -/
theorem rearranged_setMember {name : String} {x y : Datum} (h : x.Rearranged y) :
    ∀ {ms : List (String × Datum)}, memberOf? name ms = some x →
      (Datum.table ms).Rearranged (.table (setMember name y ms)) := by
  intro ms hm
  obtain ⟨p, hp, rfl⟩ := Option.map_eq_some_iff.1 hm
  obtain ⟨hn, before, after, rfl, hb⟩ := List.find?_eq_some_iff_append.1 hp
  obtain ⟨n, d⟩ := p
  obtain rfl : n = name := beq_iff_eq.1 hn
  have hset : ∀ {before : List (String × Datum)}, (∀ q ∈ before, (!q.1 == n) = true) →
      setMember n y (before ++ (n, d) :: after) = before ++ (n, y) :: after := by
    intro before hb
    induction before with
    | nil => simp [setMember]
    | cons q before ih =>
      have hq := hb q List.mem_cons_self
      rw [List.cons_append, setMember, ih fun q hq => hb q (List.mem_cons_of_mem _ hq)]
      simp_all
  rw [hset hb]
  exact .member before after n h

end Datum

namespace Reading

open Datum (Rearranged)

variable {α : Type} {r : Reading} {name : String} {d e : Datum} {ms ms' : List (String × Datum)}

/-! ## Fields -/

/-- A list of at most one element has no other order. -/
theorem eq_of_perm {β : Type} (f : List β → α) {l l' : List β} (h : l.Perm l')
    (hmany : ∀ p q rest p' q' rest', f (p :: q :: rest) = f (p' :: q' :: rest')) : f l = f l' := by
  have hl := h.length_eq
  rcases l with _ | ⟨p, _ | ⟨q, rest⟩⟩
  · rw [List.nil_perm.1 h]
  · rw [List.singleton_perm.1 h]
  · rcases l' with _ | ⟨p', _ | ⟨q', rest'⟩⟩
    · cases hl
    · cases hl
    · exact hmany _ _ _ _ _ _

/-- The value among the members of one name, of which there may be one at most. -/
def soleValue : List (String × Datum) → Option (Option Datum)
  | [] => some none
  | [(_, d)] => some (some d)
  | _ => none

theorem field_eq_soleValue (name : String) (ms : List (String × Datum)) :
    field name ms = soleValue (ms.filter (·.1 == name)) := rfl

/-- **A field is found wherever it stands.** -/
theorem field_perm (h : ms.Perm ms') : field name ms = field name ms' := by
  rw [field_eq_soleValue, field_eq_soleValue]
  exact eq_of_perm soleValue (h.filter (·.1 == name)) fun _ _ _ _ _ _ => rfl

/-- Fields of the same data in another order: both are there and in another order themselves, or neither is. -/
abbrev FieldsRearranged : Option (Option Datum) → Option (Option Datum) → Prop := Option.Rel (Option.Rel Rearranged)

theorem FieldsRearranged.refl : ∀ x : Option (Option Datum), FieldsRearranged x x
  | none => .none
  | some none => .some .none
  | some (some d) => .some (.some (.refl d))

theorem FieldsRearranged.trans : ∀ {x y z : Option (Option Datum)}, FieldsRearranged x y → FieldsRearranged y z →
    FieldsRearranged x z
  | _, _, _, .none, .none => .none
  | _, _, _, .some .none, .some .none => .some .none
  | _, _, _, .some (.some h), .some (.some h') => .some (.some (h.trans h'))

theorem field_of_rearranged (name : String) (h : d.Rearranged e) :
    FieldsRearranged (field name d.members) (field name e.members) := by
  induction h with
  | refl d => exact .refl _
  | @members ms ms' h =>
    show FieldsRearranged (field name ms) (field name ms')
    rw [field_perm h]
    exact .refl _
  | @member before after other d e h ih =>
    show FieldsRearranged (field name (before ++ (other, d) :: after)) (field name (before ++ (other, e) :: after))
    rw [field_eq_soleValue, field_eq_soleValue]
    simp only [List.filter_append, List.filter_cons]
    by_cases hn : other = name
    · -- the field is read only if no other member has its name
      simp only [hn, beq_self_eq_true, if_true]
      generalize before.filter (·.1 == name) = first
      generalize after.filter (·.1 == name) = last
      rcases first with _ | ⟨p, _ | ⟨q, first⟩⟩
      · cases last with
        | nil => exact .some (.some h)
        | cons q last => exact .none
      · exact .none
      · exact .none
    · rw [if_neg (fun h => hn (beq_iff_eq.1 h)), if_neg (fun h => hn (beq_iff_eq.1 h))]
      exact .refl _
  | item before after h ih => exact .refl _
  | trans h h' ih ih' => exact ih.trans ih'

/-- What is read from a field is the same in another order, if what is there is read the same. -/
theorem bind_field_of_rearranged {g : Option Datum → Option α} (h : (Datum.table ms).Rearranged (.table ms'))
    (hg : ∀ x y, field name ms = some (some x) → x.Rearranged y → g (some y) = g (some x)) :
    (field name ms').bind g = (field name ms).bind g := by
  have hf : FieldsRearranged (field name ms) (field name ms') := field_of_rearranged name h
  revert hg hf
  generalize field name ms = x
  generalize field name ms' = y
  rintro hg ((hxy | -) | -)
  · exact hg _ _ rfl hxy
  · rfl
  · rfl

theorem bind_required_eq {g : Datum → Option α} : (required name ms).bind g = (field name ms).bind (·.bind g) := by
  rw [required]
  cases field name ms <;> rfl

theorem bind_required_of_rearranged {g : Datum → Option α} (h : (Datum.table ms).Rearranged (.table ms'))
    (hg : ∀ x y, required name ms = some x → x.Rearranged y → g y = g x) :
    (required name ms').bind g = (required name ms).bind g := by
  rw [bind_required_eq, bind_required_eq]
  refine bind_field_of_rearranged h fun x y hx hxy => hg x y ?_ hxy
  rw [required, hx]
  rfl

theorem endsWith_of_rearranged (r : Reading) {ds es : List Datum} (h : List.Forall₂ Rearranged ds es) :
    r.endsWith es = r.endsWith ds := by
  cases h <;> rfl

/-! ## Readings that do not see the order -/

/-- **What is read does not hang on the order of members.** -/
def Steady (read : Datum → Option α) (d : Datum) : Prop := ∀ e, d.Rearranged e → read e = read d

theorem text_steady (r : Reading) (d : Datum) : Steady r.text d := fun _ h =>
  (h.eq_of_shape (fun _ _ => rfl) fun _ _ => rfl).symm

theorem choice_steady (r : Reading) (choices : List (String × α)) (d : Datum) : Steady (r.choice choices) d := by
  intro e h
  induction h with
  | refl d => rfl
  | members h => exact (eq_of_perm (fun ms => r.choice choices (.table ms)) h fun _ _ _ _ _ _ => rfl).symm
  | member before after name h ih =>
    rcases before with _ | ⟨p, _ | ⟨q, before⟩⟩
    · cases after with
      | nil =>
        show (if _ then _ else _) = if _ then _ else _
        rw [h.isNil_eq]
      | cons q after => rfl
    · rfl
    · rfl
  | item before after h ih => rfl
  | trans h h' ih ih' => exact ih'.trans ih

theorem role_steady (r : Reading) (d : Datum) : Steady r.role d := choice_steady r _ d

theorem logFormat_steady (r : Reading) (d : Datum) : Steady r.logFormat d := choice_steady r _ d

/-- **Of the logging everything is read alike in every order.** -/
theorem logging_steady (r : Reading) (d : Datum) : Steady r.logging d := by
  intro e h
  have htext {x y : Datum} (hxy : x.Rearranged y) : r.text y = r.text x := text_steady r x y hxy
  have hformat {x y : Datum} (hxy : x.Rearranged y) : r.logFormat y = r.logFormat x := logFormat_steady r x y hxy
  rcases h.cases with ⟨ms, ms', rfl, rfl⟩ | ⟨ds, es, rfl, rfl, hes⟩ | rfl
  · refine Option.ext fun l => ?_
    rw [logging_eq_some, logging_eq_some, bind_field_of_rearranged h fun x y _ hxy => htext hxy,
      bind_field_of_rearranged h fun x y _ hxy => hformat hxy]
  · have hend := endsWith_of_rearranged r (List.forall₂_drop 2 hes)
    rcases hes with _ | ⟨hlevel, _ | ⟨hform, hrest⟩⟩
    · rfl
    · simp [logging, withDefault, htext hlevel, endsWith]
    · simp [logging, withDefault, htext hlevel, hformat hform] at hend ⊢
      rw [hend]
  · rfl

/-! ## Scopes -/

/-- **A table whose value is a number or a truth value.** -/
def LiteralValue (d : Datum) : Prop := ∃ t, field "value" d.members = some (some (.literal t))

instance (d : Datum) : Decidable (LiteralValue d) :=
  match h : field "value" d.members with
  | some (some (.literal t)) => isTrue ⟨t, h⟩
  | none => isFalse fun ⟨t, ht⟩ => by rw [h] at ht; cases ht
  | some none => isFalse fun ⟨t, ht⟩ => by rw [h] at ht; cases ht
  | some (some .nil) => isFalse fun ⟨t, ht⟩ => by rw [h] at ht; cases ht
  | some (some (.text s)) => isFalse fun ⟨t, ht⟩ => by rw [h] at ht; cases ht
  | some (some (.list ds)) => isFalse fun ⟨t, ht⟩ => by rw [h] at ht; cases ht
  | some (some (.table ms)) => isFalse fun ⟨t, ht⟩ => by rw [h] at ht; cases ht

theorem text_putAside (r : Reading) {d : Datum} (h : ∀ t, d ≠ .literal t) : r.putAside.text d = r.text d := by
  cases d with
  | literal t => exact absurd rfl (h t)
  | _ => rfl

/-- Nothing but a number or a truth value is read otherwise when it was put aside. -/
theorem scopeOf_putAside (r : Reading) (kind : ScopeKind) {x : Option Datum} (h : ∀ t, x ≠ some (.literal t)) :
    r.putAside.scopeOf kind x = r.scopeOf kind x := by
  rcases x with _ | d
  · cases kind <;> rfl
  · have ht := text_putAside r (d := d) fun t hd => h t (hd ▸ rfl)
    cases kind <;> simp only [scopeOf, ht]

theorem scope_eq_some (hv : ¬ LiteralValue (.table ms)) {s : Scope} : r.scope (.table ms) = some s ↔
    ∃ kind, (required "type" ms).bind (r.choice scopeKinds) = some kind ∧
      (field "value" ms).bind (r.scopeOf kind) = some s := by
  have hput (kind : ScopeKind) :
      (field "value" ms).bind ((if valueFirst ms then r.putAside else r).scopeOf kind) =
        (field "value" ms).bind (r.scopeOf kind) := by
    split
    · refine Option.bind_congr fun x hx => scopeOf_putAside r kind fun t ht => ?_
      exact hv ⟨t, by rw [← ht]; exact hx⟩
    · rfl
  simp only [scope, Option.bind_eq_bind, hput]
  rw [← Option.bind_assoc, Option.bind_eq_some_iff]

theorem literalValue_of_rearranged (h : d.Rearranged e) : LiteralValue e → LiteralValue d := by
  rintro ⟨t, ht⟩
  have hf := field_of_rearranged "value" h
  rw [ht] at hf
  generalize hx : field "value" d.members = x at hf
  rcases hf with ((hxy | -) | -)
  rename_i y
  have hy : y.shape = Datum.shape (.literal t) := hxy.eq_of_shape (fun _ _ => rfl) fun _ _ => rfl
  cases y <;> cases hy
  exact ⟨t, hx⟩

theorem scopeOf_of_rearranged (r : Reading) (kind : ScopeKind) {x y : Datum} (h : x.Rearranged y) :
    r.scopeOf kind (some y) = r.scopeOf kind (some x) := by
  have hn := h.isNil_eq
  have ht : r.text y = r.text x := text_steady r x y h
  cases kind <;> simp only [scopeOf, hn, ht]

/-- **A scope is read alike in every order if its value is neither a number nor a truth value.** -/
theorem scope_steady (r : Reading) (hv : ¬ LiteralValue d) : Steady r.scope d := by
  intro e h
  rcases h.cases with ⟨ms, ms', rfl, rfl⟩ | ⟨ds, es, rfl, rfl, hes⟩ | rfl
  · have hv' : ¬ LiteralValue (.table ms') := fun hl => hv (literalValue_of_rearranged h hl)
    refine Option.ext fun s => ?_
    rw [scope_eq_some hv, scope_eq_some hv',
      bind_required_of_rearranged h fun x y _ hxy => choice_steady r scopeKinds x y hxy]
    refine exists_congr fun kind => ?_
    rw [bind_field_of_rearranged h fun x y _ hxy => scopeOf_of_rearranged r kind hxy]
  · rcases hes with _ | ⟨hkind, _ | ⟨hvalue, hrest⟩⟩
    · rfl
    · rfl
    · simp only [scope, endsWith_of_rearranged r hrest, choice_steady r scopeKinds _ _ hkind,
        scopeOf_of_rearranged r _ hvalue]
  · rfl

/-! ## Records -/

/-- What a record has for its scope. -/
def scopeDatum? : Datum → Option Datum
  | .table members => required "scope" members
  | .list (_ :: scope :: _) => some scope
  | _ => none

/-- **A record is read alike in every order if its scope is.** -/
theorem acl_steady (h : ∀ s ∈ scopeDatum? d, Steady r.scope s) : Steady r.acl d := by
  intro e he
  rcases he.cases with ⟨ms, ms', rfl, rfl⟩ | ⟨ds, es, rfl, rfl, hes⟩ | rfl
  · refine Option.ext fun a => ?_
    rw [acl_eq_some, acl_eq_some, bind_required_of_rearranged he fun x y _ hxy => text_steady r x y hxy,
      bind_required_of_rearranged he fun x y hx hxy => h x hx y hxy,
      bind_required_of_rearranged he fun x y _ hxy => role_steady r x y hxy]
  · rcases hes with _ | ⟨htable, _ | ⟨hscope, _ | ⟨hrole, hrest⟩⟩⟩
    · rfl
    · rfl
    · rfl
    · simp only [acl, endsWith_of_rearranged r hrest, text_steady r _ _ htable, h _ rfl _ hscope,
        role_steady r _ _ hrole]
  · rfl

theorem required_eq_some {x : Datum} : required name ms = some x ↔ field name ms = some (some x) := by
  rw [required, Option.join_eq_some_iff]

theorem scope_steady_of_acl_steady {a : Acl} (ha : r.acl d = some a) (h : Steady r.acl d) :
    ∀ s ∈ scopeDatum? d, Steady r.scope s := by
  intro s hs t hst
  cases d with
  | table ms =>
    have hf : field "scope" ms = some (some s) := required_eq_some.1 hs
    have he := h _ (Datum.rearranged_setMember hst (field_eq_memberOf? hf))
    rw [ha] at he
    obtain ⟨-, hread, -⟩ := acl_eq_some.1 ha
    obtain ⟨-, hread', -⟩ := acl_eq_some.1 he
    rw [required_eq_some.2 hf] at hread
    rw [required_eq_some.2 (field_setMember_self (by rw [hf]; rfl))] at hread'
    exact hread'.trans hread.symm
  | list ds =>
    rcases ds with _ | ⟨table, _ | ⟨scope, _ | ⟨role, rest⟩⟩⟩
    · cases hs
    · cases hs
    · cases ha
    · obtain rfl : scope = s := Option.some.inj hs
      have he := h _ (.item [table] (role :: rest) hst)
      rw [ha] at he
      simp only [acl, List.cons_append, List.nil_append, Option.bind_eq_bind, Option.bind_eq_some_iff,
        Option.pure_def, Option.some.injEq] at ha he
      grind
  | nil => cases hs
  | literal t => cases hs
  | text s => cases hs

/-! ## Configurations -/

theorem mapM_of_forall₂ {read : Datum → Option α} : ∀ {ds es : List Datum}, (∀ d ∈ ds, Steady read d) →
    List.Forall₂ Rearranged ds es → es.mapM read = ds.mapM read
  | _, _, _, .nil => rfl
  | d :: ds, e :: es, h, .cons hde hes => by
    rw [List.mapM_cons, List.mapM_cons, h d List.mem_cons_self e hde,
      mapM_of_forall₂ (fun d hd => h d (List.mem_cons_of_mem _ hd)) hes]

theorem acls_steady (h : ∀ x ∈ d.items, Steady r.acl x) : Steady r.acls d := by
  intro e he
  rcases he.cases with ⟨ms, ms', rfl, rfl⟩ | ⟨ds, es, rfl, rfl, hes⟩ | rfl
  · rfl
  · exact mapM_of_forall₂ h hes
  · rfl

theorem acl_steady_of_acls_steady {l : List Acl} (hl : r.acls d = some l) (h : Steady r.acls d) :
    ∀ x ∈ d.items, Steady r.acl x := by
  intro x hx y hxy
  cases d with
  | list items =>
    obtain ⟨before, after, rfl⟩ := List.append_of_mem hx
    have he := h _ (.item before after hxy)
    rw [hl] at he
    have hat (z : Datum) : (before ++ z :: after)[before.length]? = some z := by simp
    have hread := getElem?_of_mapM hl before.length
    have hread' := getElem?_of_mapM he before.length
    rw [hat] at hread hread'
    exact hread'.symm.trans hread
  | _ => cases hx

/-- **A configuration is read alike in every order if its records are.** -/
theorem config_steady (h : ∀ x, field "acls" ms = some (some x) → Steady r.acls x) :
    Steady r.config (.table ms) := by
  intro e he
  obtain ⟨_, ms', hms, rfl⟩ | ⟨ds, es, hds, -⟩ | rfl := he.cases
  · obtain rfl := Datum.table.inj hms
    refine Option.ext fun c => ?_
    rw [config_eq_some, config_eq_some, bind_field_of_rearranged he fun x y _ hxy => logging_steady r x y hxy,
      bind_field_of_rearranged he fun x y hx hxy => h x hx y hxy]
  · cases hds
  · rfl

theorem acls_of_config_steady {c : Config} (hc : r.config (.table ms) = some c) (h : Steady r.config (.table ms)) :
    ∀ x, field "acls" ms = some (some x) → Steady r.acls x := by
  intro x hf y hxy
  have he := h _ (Datum.rearranged_setMember hxy (field_eq_memberOf? hf))
  rw [hc] at he
  obtain ⟨-, hread⟩ := config_eq_some.1 hc
  obtain ⟨-, hread'⟩ := config_eq_some.1 he
  rw [hf] at hread
  rw [field_setMember_self (by rw [hf]; rfl)] at hread'
  exact hread'.trans hread.symm

end Reading
end TableAccess
