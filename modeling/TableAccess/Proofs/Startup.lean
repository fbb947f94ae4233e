import Mathlib
import TableAccess.CommandLine.Run
import TableAccess.Proofs.Members
/-!
# How a run starts

A run has its threads, and then takes over what the file `.env` gives to names that have no text: the first value of
each, and nothing else (`Environment.extendAll_eq_filled`, `Environment.text?_filled`).  It breaks off where it cannot have its threads, and where
one of these values has a null character (`CommandLine.breaksOff_iff`).
-/
namespace TableAccess

/-! ## The environment -/

namespace Environment

/-- The first value of each name. -/
def firsts : List (String × String) → List (String × String)
  | [] => []
  | p :: rest => p :: (firsts rest).filter fun q => q.1 != p.1

def put (env : Environment) (p : String × String) : Environment := setMember p.1 (.text p.2) env

/-- What a list of names and values has for the names that have no text in an environment: the first values. -/
def wanted (env : Environment) (pairs : List (String × String)) : List (String × String) :=
  (firsts pairs).filter fun p => (env.text? p.1).isNone

/-- **An environment filled up**: the names that have no text in it have their first values from the list. -/
def filled (env : Environment) (pairs : List (String × String)) : Environment := (env.wanted pairs).foldl put env

variable {env : Environment} {p : String × String} {name : String}

theorem get?_put_self (env : Environment) (p : String × String) : (env.put p).get? p.1 = some (.text p.2) :=
  memberOf?_setMember_self env

theorem get?_put_of_ne (h : p.1 ≠ name) : (env.put p).get? name = env.get? name :=
  memberOf?_setMember_of_ne h env

theorem text?_extend : (env.extend p.1 p.2).text? name =
    (env.text? name).or (if name = p.1 then some p.2 else none) := by
  unfold extend
  by_cases hn : name = p.1
  · subst hn
    split
    · rename_i hs
      rw [Option.or_of_isSome hs]
    · rename_i hs
      rw [Option.not_isSome_iff_eq_none.1 hs, if_pos rfl]
      show (env.put p).text? p.1 = _
      rw [text?, get?_put_self]
      rfl
  · rw [if_neg hn, Option.or_none]
    split
    · rfl
    · show (env.put p).text? name = _
      rw [text?, get?_put_of_ne (Ne.symm hn), text?]

/-- After a name was given a text, it has one, and no other name has one that had none. -/
theorem isNone_text?_extend : ((env.extend p.1 p.2).text? name).isNone = ((env.text? name).isNone && name != p.1) := by
  rw [text?_extend]
  by_cases hn : name = p.1 <;> simp [hn]

theorem wanted_extend (pairs : List (String × String)) :
    (env.extend p.1 p.2).wanted pairs = ((firsts pairs).filter fun q => q.1 != p.1).filter
      fun q => (env.text? q.1).isNone := by
  rw [wanted, List.filter_filter]
  exact List.filter_congr fun q _ => isNone_text?_extend

theorem wanted_cons (pairs : List (String × String)) : env.wanted (p :: pairs) =
    if (env.text? p.1).isNone then p :: (env.extend p.1 p.2).wanted pairs else (env.extend p.1 p.2).wanted pairs := by
  rw [wanted, firsts, List.filter_cons, wanted_extend]

theorem extend_eq : env.extend p.1 p.2 = if (env.text? p.1).isNone then env.put p else env := by
  unfold extend
  cases env.text? p.1 <;> rfl

/-- **Values that never replace a text fill an environment up.** -/
theorem extendAll_eq_filled : ∀ (pairs : List (String × String)) (env : Environment),
    env.extendAll pairs = env.filled pairs
  | [], _ => rfl
  | p :: pairs, env => by
    have ih := extendAll_eq_filled pairs (env.extend p.1 p.2)
    rw [extendAll, List.foldl_cons]
    refine ih.trans ?_
    rw [filled, filled, wanted_cons]
    by_cases hp : (env.text? p.1).isNone
    · rw [if_pos hp, List.foldl_cons, extend_eq, if_pos hp]
    · rw [if_neg hp]
      congr 1
      rw [extend_eq, if_neg hp]

/-- **What an environment says comes first**, and then the first value from the list. -/
theorem text?_filled (name : String) : ∀ (pairs : List (String × String)) (env : Environment),
    (env.filled pairs).text? name = (env.text? name).or ((pairs.find? fun p => p.1 == name).map Prod.snd)
  | [], env => Option.or_none.symm
  | p :: pairs, env => by
    have hstep : env.filled (p :: pairs) = (env.extend p.1 p.2).filled pairs := by
      rw [← extendAll_eq_filled, ← extendAll_eq_filled, extendAll, List.foldl_cons]
      rfl
    rw [hstep, text?_filled name pairs, text?_extend, Option.or_assoc]
    by_cases hn : name = p.1
    · simp [hn]
    · simp [hn, Ne.symm hn]

/-! ## Environments that differ in one name -/

/-- **The same environment, but for whether and how it binds a name.** -/
def SameBut (name : String) (env env' : Environment) : Prop :=
  (env.filter fun v => v.1 != name) = env'.filter fun v => v.1 != name

theorem SameBut.get? {name other : String} {env env' : Environment} (h : SameBut name env env') (hn : other ≠ name) :
    env.get? other = env'.get? other := by
  have hf (e : Environment) : Environment.get? (e.filter fun v => v.1 != name) other = e.get? other := by
    unfold Environment.get? memberOf?
    rw [List.find?_filter]
    congr 2
    funext v
    by_cases hv : v.1 = other
    · simp [hv, hn]
    · simp [hv]
  rw [← hf env, ← hf env', h]

end Environment

/-! ## The start -/

def Host.withEnvironment (host : Host) (env : Environment) : Host := { host with environment := env }

theorem Host.extended_environment (host : Host) :
    host.extended.environment = host.environment.filled host.bindings :=
  Environment.extendAll_eq_filled _ _

theorem Host.extended_eq (host : Host) : host.extended = host.withEnvironment host.extended.environment := rfl

theorem Host.extended_entry (host : Host) : host.extended.entry = host.entry := rfl

theorem Host.extended_of_no_file {host : Host} (h : host.envFile = none) : host.extended = host := by
  have hb : host.bindings = [] := by rw [bindings, h]
  rw [extended, hb]
  rfl

namespace CommandLine

variable {host : Host} {args : List String}

theorem breaksOff_of_no_file (h : host.envFile = none) : breaksOff host = !starts host := by
  have hb : host.bindings = [] := by rw [Host.bindings, h]
  rw [breaksOff, hb]
  exact Bool.or_false _

theorem run_of_brokenOff (h : breaksOff host = true) : run host args = .brokenOff := if_pos h

theorem run_of_started (h : breaksOff host = false) : run host args = outcomeOn host.extended args :=
  if_neg (Bool.eq_false_iff.1 h)

end CommandLine
end TableAccess
