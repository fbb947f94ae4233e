import Mathlib
import TableAccess.Proofs.Keys
import TableAccess.Proofs.Steady
import TableAccess.Proofs.Validity
/-!
# Texts that say one thing

A load goes through the settings of a file, and through the members of tables, in an order that is not the text's.  Two
orders can give two configurations, but only where one setting is put on top of another or where the value of a scope is
a number or a truth value; a text without either says one thing (`Config.settled_of_definite`).  A text that describes
one configuration in every order goes on to do so however what it says is arranged (`Config.steady_of_ofText`).
-/
namespace TableAccess

/-! ## The order backwards -/

namespace Datum

mutual

/-- The members of every table from the last to the first. -/
def backwards : Datum → Datum
  | .table ms => .table (membersBackwards ms).reverse
  | .list ds => .list (itemsBackwards ds)
  | d => d

def membersBackwards : List (String × Datum) → List (String × Datum)
  | [] => []
  | (name, d) :: ms => (name, d.backwards) :: membersBackwards ms

def itemsBackwards : List Datum → List Datum
  | [] => []
  | d :: ds => d.backwards :: itemsBackwards ds

end

mutual

theorem rearranged_backwards : ∀ d : Datum, d.Rearranged d.backwards
  | .table ms => by
    rw [backwards]
    exact (rearranged_membersBackwards [] ms).trans (.members (List.reverse_perm _).symm)
  | .list ds => by
    rw [backwards]
    exact rearranged_itemsBackwards [] ds
  | .nil => .refl _
  | .literal _ => .refl _
  | .text _ => .refl _

theorem rearranged_membersBackwards (before : List (String × Datum)) : ∀ ms : List (String × Datum),
    (Datum.table (before ++ ms)).Rearranged (.table (before ++ membersBackwards ms))
  | [] => .refl _
  | (name, d) :: ms => by
    have hrest := rearranged_membersBackwards (before ++ [(name, d.backwards)]) ms
    rw [List.append_assoc, List.append_assoc] at hrest
    exact (Rearranged.member before ms name (rearranged_backwards d)).trans hrest

theorem rearranged_itemsBackwards (before : List Datum) : ∀ ds : List Datum,
    (Datum.list (before ++ ds)).Rearranged (.list (before ++ itemsBackwards ds))
  | [] => .refl _
  | d :: ds => by
    have hrest := rearranged_itemsBackwards (before ++ [d.backwards]) ds
    rw [List.append_assoc, List.append_assoc] at hrest
    exact (Rearranged.item before ds (rearranged_backwards d)).trans hrest

end

end Datum

/-- Everything from the last to the first. -/
def TableOrder.backwards : TableOrder :=
  ⟨List.reverse, List.reverse, Datum.backwards, List.reverse_perm, List.reverse_perm, Datum.rearranged_backwards⟩

namespace Config

/-- **What does not hang on the order** in which tables are gone through. -/
def Settled (f : TableOrder → Except ConfigError Config) : Prop := ∀ order order', f order = f order'

/-- **Orders that make no difference**: they are one, or none does. -/
def Alike (f : TableOrder → Except ConfigError Config) (order order' : TableOrder) : Prop := order = order' ∨ Settled f

theorem Alike.eq {f : TableOrder → Except ConfigError Config} {order order' : TableOrder} (h : Alike f order order') :
    f order = f order' := by
  rcases h with rfl | h
  · rfl
  · exact h _ _

/-! ## What a file says -/

/-- What the settings of a file make, when they are gone through in an order. -/
def fileDatum (order : TableOrder) (settings : List (String × Datum)) : Datum :=
  applySettings (.table []) (order.file settings)

variable {text : String} {settings : List (String × Datum)}

theorem environment_nil (order : TableOrder) : order.environment [] = [] := List.perm_nil.1 (order.environment_perm [])

theorem ofText_of_settings (ht : textSettings text = .ok settings) (order : TableOrder) :
    ofText text order = ofDatum (order.tables (fileDatum order settings)) := by
  rw [ofText, ht]
  show ofSettings order settings [] = _
  rw [ofSettings, environment_nil, List.append_nil]
  rfl

/-- **A text that describes one configuration in every order** is read as it in whatever way what it says is arranged. -/
theorem steady_of_ofText {c : Config} (hc : ∀ order, ofText text order = .ok c) (ht : textSettings text = .ok settings)
    (order : TableOrder) :
    Reading.lenient.config (fileDatum order settings) = some c ∧
      Reading.Steady Reading.lenient.config (fileDatum order settings) := by
  have hall : ∀ e, (fileDatum order settings).Rearranged e → Reading.lenient.config e = some c := by
    intro e he
    classical
    -- an order of its own arranges what this file says, and nothing else
    let order' : TableOrder :=
      { order with
        tables := fun d => if d = fileDatum order settings then e else d
        tables_rearranged := fun d => by
          split
          · rename_i h
            exact h ▸ he
          · exact .refl d }
    have hd : ofText text order' = ofDatum e := by
      rw [ofText_of_settings ht]
      exact congrArg ofDatum (if_pos rfl)
    exact (ofDatum_eq_ok.1 (hd.symm.trans (hc order'))).1
  exact ⟨hall _ (.refl _), fun e he => (hall e he).trans (hall _ (.refl _)).symm⟩

/-! ## Settings that lie apart -/

/-- The member that a key leads into. -/
def topOf (key : String) : String :=
  match address key with
  | .member name :: _ => name
  | _ => key

/-- The member that a setting makes by itself. -/
def placed (s : String × Datum) : String × Datum := (topOf s.1, alter (merge s.2) (address s.1).tail .nil)

theorem address_eq_topOf (key : String) : address key = .member (topOf key) :: (address key).tail := by
  obtain ⟨name, path, ha⟩ := address_eq_member key
  rw [topOf, ha]
  rfl

theorem applySetting_table (ms : List (String × Datum)) (s : String × Datum) : applySetting (.table ms) s =
    .table (setMember (topOf s.1)
      (alter (merge s.2) (address s.1).tail ((memberOf? (topOf s.1) ms).getD .nil)) ms) := by
  rw [applySetting, address_eq_topOf]
  rfl

theorem setMember_of_not_mem {name : String} {d : Datum} : ∀ {ms : List (String × Datum)}, name ∉ ms.map (·.1) →
    setMember name d ms = ms ++ [(name, d)]
  | [], _ => rfl
  | (n, v) :: ms, h => by
    rw [List.map_cons, List.mem_cons, not_or] at h
    rw [setMember, if_neg (by simpa using Ne.symm h.1), setMember_of_not_mem h.2]
    rfl

theorem memberOf?_of_not_mem {name : String} {ms : List (String × Datum)} (h : name ∉ ms.map (·.1)) :
    memberOf? name ms = none := by
  rw [memberOf?, Option.map_eq_none_iff, List.find?_eq_none]
  intro p hp hn
  exact h (List.mem_map.2 ⟨p, hp, beq_iff_eq.1 hn⟩)

/-- **Settings that lead into members of their own** make these members and no others. -/
theorem applySettings_of_apart : ∀ {settings ms : List (String × Datum)},
    (ms.map (·.1) ++ settings.map fun s => topOf s.1).Nodup →
      applySettings (.table ms) settings = .table (ms ++ settings.map placed)
  | [], ms, _ => by rw [List.map_nil, List.append_nil]; rfl
  | s :: settings, ms, h => by
    have hs : topOf s.1 ∉ ms.map (·.1) := fun hm =>
      List.disjoint_of_nodup_append h hm (List.mem_cons_self)
    have hrest : ((ms ++ [placed s]).map (·.1) ++ settings.map fun s => topOf s.1).Nodup := by
      rw [List.map_append, List.append_assoc]
      exact h
    rw [applySettings, List.foldl_cons, applySetting_table, memberOf?_of_not_mem hs, setMember_of_not_mem hs]
    refine (applySettings_of_apart hrest).trans ?_
    rw [List.append_assoc]
    rfl

/-! ## Texts that say one thing -/

/-- The records of a configuration, before they are read. -/
def recordsOf (d : Datum) : List Datum := ((memberOf? "acls" d.members).getD .nil).items

/-- **Settings whose order says nothing**: no two lead into one member, and no record has a number or a truth value for
the value of its scope. -/
structure Definite (settings : List (String × Datum)) : Prop where
  apart : (settings.map fun s => topOf s.1).Nodup
  scopes : ∀ record ∈ recordsOf (applySettings (.table []) settings),
    ∀ s ∈ Reading.scopeDatum? record, ¬ Reading.LiteralValue s

theorem Definite.fileDatum_eq (h : Definite settings) (order : TableOrder) :
    fileDatum order settings = .table ((order.file settings).map placed) := by
  have hp : ((order.file settings).map fun s => topOf s.1).Perm (settings.map fun s => topOf s.1) :=
    (order.file_perm settings).map _
  have hapart : ((order.file settings).map fun s => topOf s.1).Nodup := hp.nodup_iff.2 h.apart
  have ht : applySettings (.table []) (order.file settings) = .table ([] ++ (order.file settings).map placed) :=
    applySettings_of_apart hapart
  rwa [List.nil_append] at ht

theorem Definite.steady (h : Definite settings) :
    Reading.Steady Reading.lenient.config (applySettings (.table []) settings) := by
  obtain ⟨members, hm⟩ : ∃ members, applySettings (.table []) settings = .table members :=
    ⟨_, h.fileDatum_eq .listed⟩
  have hs := h.scopes
  rw [hm] at hs ⊢
  refine Reading.config_steady fun x hx => Reading.acls_steady fun record hr => Reading.acl_steady fun s hd => ?_
  have hmem : memberOf? "acls" members = some x := Reading.field_eq_memberOf? hx
  refine Reading.scope_steady _ (hs record ?_ s hd)
  show record ∈ ((memberOf? "acls" members).getD .nil).items
  rw [hmem]
  exact hr

/-- **A text says one thing** if its settings are definite. -/
theorem settled_of_definite (h : ∀ settings, textSettings text = .ok settings → Definite settings) :
    Settled (ofText text ·) := by
  suffices hall : ∀ order, ofText text order = ofText text .listed by
    intro order order'
    exact (hall order).trans (hall order').symm
  intro order
  cases ht : textSettings text with
  | error e => rw [ofText, ofText, ht]; rfl
  | ok settings =>
    have hd : Definite settings := h settings ht
    have hfile : (fileDatum .listed settings).Rearranged (fileDatum order settings) := by
      rw [hd.fileDatum_eq .listed, hd.fileDatum_eq order]
      exact .members ((order.file_perm settings).map placed).symm
    have hread : Reading.lenient.config (order.tables (fileDatum order settings)) =
        Reading.lenient.config (fileDatum .listed settings) :=
      hd.steady _ (hfile.trans (order.tables_rearranged _))
    rw [ofText_of_settings ht, ofText_of_settings ht, ofDatum, hread]
    rfl

/-! ## A text that says two things -/

/-- The value of the scope is a number and stands before the type. -/
def numberFile : String := "[[acls]]\ntable_id=\"visits\"\nrole=\"OWNER\"\nscope.value=5\nscope.type=\"USER\"\n"

def numberConfig : Config := ⟨{}, [⟨⟨"visits"⟩, .user (some ⟨"5"⟩), .owner⟩]⟩

def numberSettings : List (String × Datum) :=
  [("acls", .list [.table [("table_id", .text "visits"), ("role", .text "OWNER"),
    ("scope", .table [("value", .literal "5"), ("type", .text "USER")])]])]

theorem textSettings_numberFile : textSettings numberFile = .ok numberSettings := by
  rw [numberSettings]
  cbv

/-- **The order can decide**: this text describes a configuration in one order and none in another. -/
theorem ofText_numberFile : ofText numberFile .backwards = .ok numberConfig ∧ ∀ c, ofText numberFile .listed ≠ .ok c := by
  have hlisted : ofText numberFile .listed =
      .error (.load (.unreadable "the settings do not describe a configuration")) := by
    rw [ofText_of_settings textSettings_numberFile]
    decide
  refine ⟨?_, fun c h => ?_⟩
  · rw [ofText_of_settings textSettings_numberFile]
    decide
  · rw [hlisted] at h
    cases h

end Config
end TableAccess
