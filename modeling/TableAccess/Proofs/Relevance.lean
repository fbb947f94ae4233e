import Mathlib
import TableAccess.Proofs.Layers
import TableAccess.Proofs.Startup
/-!
# What a load rests on

A load rests on the settings of the file that is in use and on those of the variables (`Config.SameLayers`), and then on
the order in which tables are gone through.  So it stays the same when files are gone that are not in use
(`Config.sameLayers_of_kept`), and when the environment changes in a name that is no setting and not that of the home
directory (`Config.sameLayers_of_sameBut`).
-/
namespace TableAccess

/-- A host that goes through tables in another order. -/
def Host.ordered (host : Host) (order : TableOrder) : Host := { host with order := order }

theorem Host.ordered_self (host : Host) : host.ordered host.order = host := rfl

namespace Config

/-- **A path that is in use**: the one that is chosen, or where that is a directory, the one with `.toml` after it. -/
def InUse (host : Host) (choice : Option String) (path : String) : Prop :=
  ∃ chosen, filePath? host choice = .ok (some chosen) ∧
    (path = chosen ∨ host.entry chosen = .directory ∧ suffixed? chosen = some path)

/-- **Two hosts on which a load collects the same settings**, with as much room for them. -/
structure SameLayers (host host' : Host) (choice : Option String) : Prop where
  file : fileSettings host choice = fileSettings host' choice
  environment : variableSettings host.environment = variableSettings host'.environment
  longest : host.longest = host'.longest

theorem SameLayers.load_eq {host host' : Host} {choice : Option String} (h : SameLayers host host' choice)
    (ho : host.order = host'.order) : load host choice = load host' choice := by
  rw [load, load, h.file, h.environment, ho]

theorem SameLayers.hasRoom_eq {host host' : Host} {choice : Option String} (h : SameLayers host host' choice) :
    hasRoom host choice = hasRoom host' choice := by
  unfold hasRoom settingsFit
  rw [h.file, h.environment, h.longest]

/-- With fewer candidates the same one is found, if it is still one of them. -/
theorem find?_eq_of_found {f g : String → Bool} (h : ∀ p, f p = false → g p = false) :
    ∀ {paths : List String}, (∀ p ∈ paths.find? f, g p = true) → paths.find? g = paths.find? f
  | [], _ => rfl
  | p :: paths, hu => by
    cases hf : f p with
    | true =>
      rw [List.find?_cons_of_pos hf] at hu ⊢
      exact List.find?_cons_of_pos (hu p rfl)
    | false =>
      have hg := Bool.eq_false_iff.1 (h p hf)
      rw [List.find?_cons_of_neg (Bool.eq_false_iff.1 hf)] at hu ⊢
      rw [List.find?_cons_of_neg hg]
      exact find?_eq_of_found h hu

theorem home?_congr {host host' : Host} (hg : host'.environment.get? "HOME" = host.environment.get? "HOME")
    (ha : host'.accountHome = host.accountHome) : host'.home? = host.home? := by
  rw [Host.home?, Host.home?, hg, ha]

theorem usualPaths_congr {host host' : Host} (hh : host'.home? = host.home?) : usualPaths host' = usualPaths host := by
  rw [usualPaths, usualPaths, homePath, homePath, hh]

theorem hasEntry_of_filePath? {host : Host} {choice : Option String} {path : String}
    (h : filePath? host choice = .ok (some path)) : host.entry path ≠ .missing := by
  refine hasEntry_iff.1 ?_
  cases choice with
  | none => exact List.find?_some (Except.ok.inj h)
  | some asked =>
    rw [filePath?] at h
    split at h
    · rename_i hasked
      exact Option.some.inj (Except.ok.inj h) ▸ hasked
    · cases h

section
variable {host host' : Host} {choice : Option String} {gone : String → Bool}
  (hh : host'.home? = host.home?)
  (he : ∀ path, host'.entry path = if gone path then .missing else host.entry path)
  (hf : ∀ path, gone path = true → host.entry path ≠ .missing)
  (hu : ∀ path, InUse host choice path → gone path = false)
include he

theorem entry_of_kept {path : String} (hg : gone path = false) : host'.entry path = host.entry path := by
  rw [he, hg]
  rfl

theorem hasEntry_of_kept {path : String} (hg : gone path = false) : host'.hasEntry path = host.hasEntry path := by
  rw [Host.hasEntry, Host.hasEntry, entry_of_kept he hg]

theorem hasEntry_of_gone {path : String} (hg : gone path = true) : host'.hasEntry path = false := by
  rw [Host.hasEntry, he, hg]
  rfl

include hu

theorem fileText_of_kept {path : String} (hp : filePath? host choice = .ok (some path)) :
    fileText host' path = fileText host path := by
  have hpath : host'.entry path = host.entry path := entry_of_kept he (hu path ⟨path, hp, .inl rfl⟩)
  unfold fileText
  rw [hpath]
  cases hentry : host.entry path with
  | file text => rfl
  | garbled => rfl
  | missing => exact absurd hentry (hasEntry_of_filePath? hp)
  | directory =>
    cases hs : suffixed? path with
    | none => rfl
    | some next => rw [Option.map_some, Option.map_some, entry_of_kept he (hu next ⟨path, hp, .inr ⟨hentry, hs⟩⟩)]

include hh hf

/-- The file that is chosen is in use, so that no other is chosen when files are gone that are not. -/
theorem filePath?_of_kept : filePath? host' choice = filePath? host choice := by
  cases choice with
  | none =>
    rw [filePath?, filePath?, usualPaths_congr hh]
    refine congrArg Except.ok (find?_eq_of_found (fun path hn => ?_) fun path hp => ?_)
    · cases hg : gone path with
      | true => exact hasEntry_of_gone he hg
      | false => exact (hasEntry_of_kept he hg).trans hn
    · have hg : gone path = false := hu path ⟨path, congrArg Except.ok hp, .inl rfl⟩
      exact (hasEntry_of_kept he hg).trans (List.find?_some hp)
  | some path =>
    have hg : gone path = false := by
      refine Bool.eq_false_iff.2 fun hg => ?_
      exact Bool.noConfusion (hg.symm.trans (hu path ⟨path, filePath?_of_entry (hf path hg), .inl rfl⟩))
    rw [filePath?, filePath?, hasEntry_of_kept he hg]

theorem sameLayers_of_kept (hv : variableSettings host'.environment = variableSettings host.environment)
    (hl : host'.longest = host.longest) : SameLayers host' host choice := by
  refine ⟨?_, hv, hl⟩
  unfold fileSettings
  rw [filePath?_of_kept hh he hf hu]
  cases hp : filePath? host choice with
  | error e => rfl
  | ok found =>
    cases found with
    | none => rfl
    | some path => exact congrArg (· >>= textSettings) (fileText_of_kept he hu hp)

end

theorem variableSettings_sameBut {name : String} (hn : ¬ NamesSetting name) {env env' : Environment}
    (hs : env.SameBut name env') : variableSettings env = variableSettings env' := by
  have hk : ∀ v : String × EnvValue, (v.1 != name) = false → ¬ NamesSetting v.1 := by
    intro v hv
    rwa [bne_eq_false_iff_eq.1 hv]
  rw [← variableSettings_filter hk, hs, variableSettings_filter hk]

/-- Of the environment only the home directory and the settings matter. -/
theorem sameLayers_of_sameBut {host : Host} {env : Environment} {choice : Option String} {name : String}
    (hn : ¬ NamesSetting name) (hh : "HOME" ≠ name) (hs : env.SameBut name host.environment) :
    SameLayers (host.withEnvironment env) host choice := by
  have hhome : (host.withEnvironment env).home? = host.home? := home?_congr (hs.get? hh) rfl
  have hp : filePath? (host.withEnvironment env) choice = filePath? host choice := by
    cases choice with
    | none =>
      rw [filePath?, filePath?, usualPaths_congr hhome]
      rfl
    | some path => rfl
  refine ⟨?_, variableSettings_sameBut hn hs, rfl⟩
  rw [fileSettings, fileSettings, hp]
  rfl

end Config

end TableAccess
