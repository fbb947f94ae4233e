import Mathlib
import TableAccess.Permission.Set
import TableAccess.Proofs.PermissionName
import TableAccess.Text.Mark
/-!
# What a set of permissions keeps of its history

A set begins empty, or is collected from a list, and from then on lists of permissions are granted to it.  Of all this it
keeps which permissions were mentioned (`PermissionSet.mem_history`): not how often, in what order, or in which of the
grants.  What a reader sees of it, its members in order, its text and its size, is decided by that as well
(`PermissionSet.history_canonical`).
-/
namespace TableAccess

namespace Permission

/-- Declared before. -/
def Before (p q : Permission) : Prop := p.ctorIdx < q.ctorIdx

instance (p q : Permission) : Decidable (p.Before q) := inferInstanceAs (Decidable (_ < _))

theorem Before.ne {p q : Permission} (h : p.Before q) : p ≠ q := by
  rintro rfl
  exact Nat.lt_irrefl _ h

theorem pairwise_all : all.Pairwise Before := by decide

/-- A name is a word: it can stand in a row with commas. -/
theorem name_isWord (p : Permission) : p.name.toList ≠ [] ∧ ',' ∉ p.name.toList := by cases p <;> decide

end Permission

namespace PermissionSet

/-! ## What a reader sees of a set -/

/-- **The members of a set stand in the order in which they are declared**, each once. -/
theorem pairwise_toList (s : PermissionSet) : s.toList.Pairwise Permission.Before := by
  rw [s.canonical]
  exact Permission.pairwise_all.filter _

theorem size_eq_ncard (s : PermissionSet) : s.size = {p | p ∈ s}.ncard := by
  have hn : s.toList.Nodup := s.pairwise_toList.imp Permission.Before.ne
  have hs : {p | p ∈ s} = (s.toList.toFinset : Set Permission) := by
    ext p
    simp
  rw [hs, Set.ncard_coe_finset, List.toFinset_card_of_nodup hn, size]

/-- A row of permissions, as the text of a set shows its members. -/
def listed (ps : List Permission) : String := "\x7b" ++ ", ".intercalate (ps.map Permission.name) ++ "\x7d"

/-- **Different rows are shown differently.** -/
theorem listed_inj {ps qs : List Permission} : listed ps = listed qs ↔ ps = qs := by
  refine ⟨fun h => ?_, congrArg listed⟩
  have hw (l : List Permission) : ∀ w ∈ l.map fun p => p.name.toList, w ≠ [] ∧ ',' ∉ w := by
    intro w hm
    obtain ⟨p, -, rfl⟩ := List.mem_map.1 hm
    exact p.name_isWord
  have hname : Function.Injective fun p : Permission => p.name.toList := by
    intro p q hp
    exact Permission.eq_of_lower_name_eq (congrArg Text.lower (String.toList_inj.1 hp))
  have hrow : [',', ' '].intercalate (ps.map fun p => p.name.toList) =
      [',', ' '].intercalate (qs.map fun p => p.name.toList) := by
    simpa [listed, ← String.toList_inj, Function.comp_def] using h
  exact List.map_injective_iff.2 hname (Text.eq_of_intercalate_eq (hw ps) (hw qs) hrow)

theorem text_eq_listed_iff {s : PermissionSet} {ps : List Permission} : s.text = listed ps ↔ ps = s.toList := by
  have ht : s.text = listed s.toList := rfl
  rw [ht, listed_inj, eq_comm]

theorem isSuperset_iff {s t : PermissionSet} : s.isSuperset t = true ↔ ∀ p ∈ t, p ∈ s := by
  simp [isSuperset]

theorem isSuperset_grant (s : PermissionSet) (ps : List Permission) : (s.grant ps).isSuperset s = true :=
  isSuperset_iff.2 fun _ hp => mem_grant.2 (.inl hp)

/-! ## Histories -/

/-- **How a set came about.** -/
inductive History where
  | new
  | collect (ps : List Permission)
  | grant (before : History) (ps : List Permission)

namespace History

def set : History → PermissionSet
  | new => ∅
  | collect ps => ofList ps
  | grant before ps => before.set.grant ps

/-- **The permissions that a history mentions**, in any of its lists. -/
def Mentions : History → Permission → Prop
  | new, _ => False
  | collect ps, p => p ∈ ps
  | grant before ps, p => before.Mentions p ∨ p ∈ ps

end History

/-- **A set has the permissions that its history mentions.** -/
theorem mem_history {p : Permission} : ∀ {h : History}, p ∈ h.set ↔ h.Mentions p
  | .new => iff_of_false (not_mem_empty p) id
  | .collect ps => mem_ofList
  | .grant before ps => by rw [History.set, mem_grant, mem_history, History.Mentions]

/-- **A set is what its history mentions.**  It contains a permission if one of the lists does.  Its members stand in the
order in which they are declared, each once; its text shows that row and no other; and its size is the number of
permissions mentioned.  Two sets are equal if their histories mention the same, and one is a superset of the other if its
history mentions all that the other's does.  A grant only adds. -/
theorem history_canonical (h : History) :
    (∀ p, h.set.contains p = true ↔ h.Mentions p) ∧
    (h.set.toList.Pairwise Permission.Before ∧ ∀ p, p ∈ h.set.toList ↔ h.Mentions p) ∧
    (∀ ps, h.set.text = listed ps ↔ ps = h.set.toList) ∧
    h.set.size = {p | h.Mentions p}.ncard ∧
    (∀ k : History, h.set = k.set ↔ ∀ p, h.Mentions p ↔ k.Mentions p) ∧
    (∀ k : History, h.set.isSuperset k.set = true ↔ ∀ p, k.Mentions p → h.Mentions p) ∧
    ∀ ps, (h.grant ps).set.isSuperset h.set = true := by
  refine ⟨fun p => contains_eq_true.trans mem_history, ⟨h.set.pairwise_toList, fun p => mem_toList.trans mem_history⟩,
    fun ps => text_eq_listed_iff, ?_, fun k => ⟨fun hs p => ?_, fun hm => ?_⟩, fun k => ?_, h.set.isSuperset_grant⟩
  · rw [size_eq_ncard]
    simp only [mem_history]
  · rw [← mem_history, hs, mem_history]
  · ext p
    rw [mem_history, mem_history, hm]
  · rw [isSuperset_iff]
    simp only [mem_history]

/-- Permissions that are named twice, and not in order. -/
example : ((History.collect [.writeRow, .readRow, .writeRow]).grant [.readRow]).set.text = "\x7bREAD_ROW, WRITE_ROW\x7d" := by
  decide

end PermissionSet
end TableAccess
