import Mathlib
import TableAccess.Datum.Reading
/-!
# One member changed

A record is read from a table member by member, so where one member is changed the record that is read differs in one
field (`Reading.logging_level`, `Reading.acl_table`, `Reading.config_logging`, `Reading.config_acls`).  A member that
stands twice is not read at all, and a change would keep it so; the tables here are ones that were read.
-/
namespace TableAccess

section
variable {α : Type} {name other : String} {value : α}

theorem memberOf?_setMember_self : ∀ ms : List (String × α), memberOf? name (setMember name value ms) = some value
  | [] => by simp [setMember, memberOf?]
  | (n, v) :: ms => by
    have ih := memberOf?_setMember_self ms
    by_cases hn : n = name <;> simp_all [setMember, memberOf?]

theorem filter_setMember_of_ne (h : other ≠ name) : ∀ ms : List (String × α),
    (setMember other value ms).filter (·.1 == name) = ms.filter (·.1 == name)
  | [] => by simp [setMember, h]
  | (n, v) :: ms => by
    have ih := filter_setMember_of_ne h ms
    by_cases hn : n = other
    · simp [setMember, hn, h]
    · simp [setMember, hn, List.filter_cons, ih]

theorem memberOf?_setMember_of_ne (h : other ≠ name) (ms : List (String × α)) :
    memberOf? name (setMember other value ms) = memberOf? name ms := by
  unfold memberOf?
  rw [← List.head?_filter, ← List.head?_filter, filter_setMember_of_ne h]

/-- The first of a name is replaced, and the others of that name are kept. -/
theorem filter_setMember_self : ∀ ms : List (String × α),
    (setMember name value ms).filter (·.1 == name) = (name, value) :: (ms.filter (·.1 == name)).tail
  | [] => by simp [setMember]
  | (n, v) :: ms => by
    have ih := filter_setMember_self ms
    by_cases hn : n = name
    · simp [setMember, hn]
    · simp [setMember, hn, ih]

end

namespace Reading

variable {r : Reading} {name other : String} {d : Datum} {ms : List (String × Datum)}

theorem field_eq_memberOf? {x : Option Datum} (h : field name ms = some x) : memberOf? name ms = x := by
  unfold field at h
  unfold memberOf?
  rw [← List.head?_filter]
  split at h
  · rename_i hf
    rw [hf]
    exact Option.some.inj h
  · rename_i hf
    rw [hf]
    exact Option.some.inj h
  · cases h

theorem field_setMember_of_ne (h : other ≠ name) : field name (setMember other d ms) = field name ms := by
  unfold field
  rw [filter_setMember_of_ne h]

theorem field_setMember_self (h : (field name ms).isSome) : field name (setMember name d ms) = some (some d) := by
  have ht : (ms.filter (·.1 == name)).tail = [] := by
    unfold field at h
    split at h
    · rename_i hf
      rw [hf]
      rfl
    · rename_i hf
      rw [hf]
      rfl
    · cases h
  unfold field
  rw [filter_setMember_self, ht]

/-! ## The members that make a record -/

theorem logging_eq_some {l : Logging} : r.logging (.table ms) = some l ↔
    (field "level" ms).bind (withDefault r.text "info") = some l.level ∧
    (field "format" ms).bind (withDefault r.logFormat .pretty) = some l.format := by
  obtain ⟨level, format⟩ := l
  simp only [logging, Option.bind_eq_bind, Option.bind_eq_some_iff, Option.pure_def, Option.some.injEq,
    Logging.mk.injEq]
  grind

theorem acl_eq_some {a : Acl} : r.acl (.table ms) = some a ↔
    (required "table_id" ms).bind r.text = some a.table.text ∧ (required "scope" ms).bind r.scope = some a.scope ∧
    (required "role" ms).bind r.role = some a.role := by
  obtain ⟨⟨table⟩, scope, role⟩ := a
  simp only [acl, Option.bind_eq_bind, Option.bind_eq_some_iff, Option.pure_def, Option.some.injEq, Acl.mk.injEq,
    TableId.mk.injEq]
  grind

theorem config_eq_some {c : Config} : r.config (.table ms) = some c ↔
    (field "logging" ms).bind (withDefault r.logging {}) = some c.logging ∧
    (field "acls" ms).bind (withDefault r.acls []) = some c.acls := by
  obtain ⟨logging, acls⟩ := c
  simp only [config, Option.bind_eq_bind, Option.bind_eq_some_iff, Option.pure_def, Option.some.injEq, Config.mk.injEq]
  grind

theorem isSome_of_bind {α β : Type} {x : Option α} {f : α → Option β} {b : β} (h : x.bind f = some b) : x.isSome := by
  obtain ⟨a, ha, -⟩ := Option.bind_eq_some_iff.1 h
  rw [ha]
  rfl

/-! ## The records that are read -/

/-- **Another level changes the level.** -/
theorem logging_level {l : Logging} {level : String} (h : r.logging (.table ms) = some l) (hd : r.text d = some level) :
    r.logging (.table (setMember "level" d ms)) = some ⟨level, l.format⟩ := by
  obtain ⟨hl, hf⟩ := logging_eq_some.1 h
  rw [logging_eq_some, field_setMember_self (isSome_of_bind hl), field_setMember_of_ne (by decide)]
  exact ⟨hd, hf⟩

/-- **Another table changes the table.** -/
theorem acl_table {a : Acl} {table : String} (h : r.acl (.table ms) = some a) (hd : r.text d = some table) :
    r.acl (.table (setMember "table_id" d ms)) = some ⟨⟨table⟩, a.scope, a.role⟩ := by
  obtain ⟨ht, hs, hr⟩ := acl_eq_some.1 h
  have hf : (field "table_id" ms).isSome := by
    obtain ⟨t, hj, -⟩ := Option.bind_eq_some_iff.1 ht
    rw [Option.join_eq_some_iff.1 hj]
    rfl
  rw [acl_eq_some]
  unfold required at hs hr ⊢
  rw [field_setMember_self hf, field_setMember_of_ne (by decide), field_setMember_of_ne (by decide)]
  exact ⟨hd, hs, hr⟩

/-- **What is said of logging changes the logging.** -/
theorem config_logging {c : Config} {l : Logging} (h : r.config (.table ms) = some c) (hd : r.logging d = some l) :
    r.config (.table (setMember "logging" d ms)) = some ⟨l, c.acls⟩ := by
  obtain ⟨hl, ha⟩ := config_eq_some.1 h
  rw [config_eq_some, field_setMember_self (isSome_of_bind hl), field_setMember_of_ne (by decide)]
  exact ⟨hd, ha⟩

/-- **What is said of the records changes the records.** -/
theorem config_acls {c : Config} {acls : List Acl} (h : r.config (.table ms) = some c) (hd : r.acls d = some acls) :
    r.config (.table (setMember "acls" d ms)) = some ⟨c.logging, acls⟩ := by
  obtain ⟨hl, ha⟩ := config_eq_some.1 h
  rw [config_eq_some, field_setMember_self (isSome_of_bind ha), field_setMember_of_ne (by decide)]
  exact ⟨hl, hd⟩

theorem getElem?_of_mapM {α β : Type} {read : α → Option β} :
    ∀ {items : List α} {l : List β}, items.mapM read = some l → ∀ i : Nat, l[i]? = items[i]?.bind read
  | [], l, h, i => by
    obtain rfl : [] = l := Option.some.inj h
    simp
  | x :: items, l, h, i => by
    rw [List.mapM_cons] at h
    obtain ⟨y, hy, h⟩ := Option.bind_eq_some_iff.1 h
    obtain ⟨ys, hys, h⟩ := Option.bind_eq_some_iff.1 h
    obtain rfl : y :: ys = l := Option.some.inj h
    cases i with
    | zero => simp [hy]
    | succ i => simpa using getElem?_of_mapM hys i

theorem exists_of_mapM {α β : Type} {read : α → Option β} : ∀ {items : List α} {l : List β}, items.mapM read = some l →
    ∀ x ∈ items, ∃ y, read x = some y
  | x :: items, l, h, z, hz => by
    rw [List.mapM_cons] at h
    obtain ⟨y, hy, h⟩ := Option.bind_eq_some_iff.1 h
    obtain ⟨ys, hys, -⟩ := Option.bind_eq_some_iff.1 h
    rcases List.mem_cons.1 hz with rfl | hz
    · exact ⟨y, hy⟩
    · exact exists_of_mapM hys z hz

/-- **Records read after one was changed** are the records with that one changed. -/
theorem mapM_modify {α β : Type} {read : α → Option β} {f : α → α} {u : β → β} :
    ∀ {items : List α} {l : List β} {i : Nat}, items.mapM read = some l →
      (∀ x y, items[i]? = some x → read x = some y → read (f x) = some (u y)) →
      (items.modify i f).mapM read = some (l.modify i u)
  | [], l, i, h, _ => by
    obtain rfl : [] = l := Option.some.inj h
    simp
  | x :: items, l, i, h, hf => by
    rw [List.mapM_cons] at h
    obtain ⟨y, hy, h⟩ := Option.bind_eq_some_iff.1 h
    obtain ⟨ys, hys, h⟩ := Option.bind_eq_some_iff.1 h
    obtain rfl : y :: ys = l := Option.some.inj h
    cases i with
    | zero =>
      have hx := hf x y rfl hy
      simp [List.mapM_cons, hx, hys]
    | succ i =>
      have ih := mapM_modify hys fun x y hx hy => hf x y (by simpa using hx) hy
      simp [List.mapM_cons, hy, ih]

end Reading
end TableAccess
