import Mathlib
import TableAccess.Proofs.Layers
import TableAccess.Proofs.Members
import TableAccess.Proofs.VariableText
/-!
# One setting over a file

A variable that is a setting is put on top of what the file says (`Config.load_of_oneSetting`).  What it changes depends
on what is there, and a file that writes a member in the usual way, under its own name and with a value of the usual
shape, leaves it in that shape (`Config.hasShaped_of_writes`).
-/
namespace TableAccess
namespace Config

/-- **One setting over a file**: a file with this text is the one that is read, and of the variables just this one is a
setting. -/
structure OneSetting (host : Host) (choice : Option String) (text name value : String) : Prop where
  file : ∃ path, filePath? host choice = .ok (some path) ∧ host.entry path = .file text
  only : (host.environment.filter fun v => NamesSetting v.1) = [(name, .text value)]

/-- **How a text writes a member**: whichever of its top-level keys leads into the member is the member's own name, and
its value has this shape. -/
def Writes (text top : String) (shape : Datum → Prop) : Prop :=
  ∀ settings, textSettings text = .ok settings →
    ∀ s ∈ settings, (address s.1).head? = some (.member top) → s.1 = top ∧ shape s.2

def IsTable (d : Datum) : Prop := ∃ members, d = .table members

def IsTables (d : Datum) : Prop := ∃ items, d = .list items ∧ ∀ item ∈ items, IsTable item

/-! ## The settings of the file -/

/-- A table whose member of this name, if there is one, has this shape. -/
def HasShaped (top : String) (shape : Datum → Prop) (d : Datum) : Prop :=
  ∃ members, d = .table members ∧ ∀ x ∈ memberOf? top members, shape x

section
variable {top : String} {shape : Datum → Prop}

/-- One setting keeps the shape of a member. -/
theorem applySetting_hasShaped (hm : ∀ d lower, shape d → shape (merge d lower)) (ht : address top = [.member top])
    {d : Datum} {s : String × Datum} (hs : (address s.1).head? = some (.member top) → s.1 = top ∧ shape s.2)
    (h : HasShaped top shape d) : HasShaped top shape (applySetting d s) := by
  obtain ⟨members, rfl, hx⟩ := h
  obtain ⟨name, path, ha⟩ := address_eq_member s.1
  have he : applySetting (.table members) s =
      .table (setMember name (alter (merge s.2) path ((memberOf? name members).getD .nil)) members) := by
    rw [applySetting, ha]
    rfl
  refine ⟨_, he, fun x hmem => ?_⟩
  by_cases hn : name = top
  · subst hn
    obtain ⟨hkey, hshape⟩ := hs (by rw [ha]; rfl)
    -- the setting is for the member itself, so its path ends there
    obtain rfl : path = [] := by
      rw [hkey, ht] at ha
      exact (List.cons.inj ha).2.symm
    rw [memberOf?_setMember_self] at hmem
    obtain rfl := Option.some.inj hmem
    exact hm _ _ hshape
  · rw [memberOf?_setMember_of_ne hn] at hmem
    exact hx x hmem

theorem applySettings_hasShaped (hm : ∀ d lower, shape d → shape (merge d lower)) (ht : address top = [.member top]) :
    ∀ {settings : List (String × Datum)} {d : Datum},
      (∀ s ∈ settings, (address s.1).head? = some (.member top) → s.1 = top ∧ shape s.2) →
      HasShaped top shape d → HasShaped top shape (applySettings d settings)
  | [], _, _, h => h
  | s :: settings, d, hs, h => by
    rw [applySettings, List.foldl_cons]
    exact applySettings_hasShaped hm ht (fun s' hs' => hs s' (List.mem_cons_of_mem _ hs'))
      (applySetting_hasShaped hm ht (hs s List.mem_cons_self) h)

/-- **What the file says has the shape in which it is written.** -/
theorem hasShaped_of_writes {text : String} {settings : List (String × Datum)} (order : TableOrder)
    (hm : ∀ d lower, shape d → shape (merge d lower)) (ht : address top = [.member top])
    (hw : Writes text top shape) (hs : textSettings text = .ok settings) :
    HasShaped top shape (fileDatum order settings) := by
  refine applySettings_hasShaped hm ht (fun s hmem => ?_) ⟨[], rfl, fun _ hx => nomatch hx⟩
  exact hw settings hs s ((order.file_perm settings).mem_iff.1 hmem)

end

theorem merge_isTable (d lower : Datum) : IsTable d → IsTable (merge d lower) := by
  rintro ⟨members, rfl⟩
  rw [merge]
  exact ⟨_, rfl⟩

theorem merge_isTables (d lower : Datum) : IsTables d → IsTables (merge d lower) := by
  rintro ⟨items, rfl, ht⟩
  rw [merge]
  · exact ⟨items, rfl, ht⟩
  · intro members h
    cases h

/-! ## The setting of the environment -/

theorem variableSettings_of_oneSetting {host : Host} {choice : Option String} {text name value key : String}
    (h : OneSetting host choice text name value) (hk : variableKey? name = some key) :
    variableSettings host.environment = .ok [(key, variableDatum value)] := by
  have hs : settingVariables [(name, .text value)] = [(key, .text value)] := by simp [settingVariables, hk]
  rw [← variableSettings_filter (fun _ => of_decide_eq_false) host.environment, h.only, variableSettings, hs]
  rfl

/-- **What is loaded with one setting**: what the file and then the setting say, if that is a configuration, and one in
every order, and valid. -/
theorem load_of_oneSetting {host : Host} {choice : Option String} {text name value key : String}
    {settings : List (String × Datum)} {c : Config} (h : OneSetting host choice text name value)
    (hk : variableKey? name = some key) (ht : textSettings text = .ok settings)
    (hr : Reading.lenient.config
      (applySetting (fileDatum host.order settings) (key, variableDatum value)) = some c)
    (hs : Reading.Steady Reading.lenient.config
      (applySetting (fileDatum host.order settings) (key, variableDatum value))) :
    load host choice = (validate c).map fun _ => c := by
  obtain ⟨path, hp, hf⟩ := h.file
  have hone : host.order.environment [(key, variableDatum value)] = [(key, variableDatum value)] :=
    List.perm_singleton.1 (host.order.environment_perm _)
  have hd : applySettings (.table []) (host.order.file settings ++ [(key, variableDatum value)]) =
      applySetting (fileDatum host.order settings) (key, variableDatum value) := by
    rw [applySettings, List.foldl_append]
    rfl
  rw [load_eq ((fileSettings_of_chosen hp hf).trans ht) (variableSettings_of_oneSetting h hk), ofSettings, hone, hd,
    ofDatum, hs _ (host.order.tables_rearranged _), hr]

/-! ## A host with one such variable -/

/-- A host with one file, on which one variable may be a setting; the other stands in for an option. -/
def variableHost (name value : String) : Host where
  entry path := if path = "acls.toml" then .file warnFile else .missing
  environment := [("TABLES_AUTHZ_USER", "ann"), (name, .text value)]
  envFile := none

theorem oneSetting_variableHost {name : String} (value : String) (hn : NamesSetting name) :
    OneSetting (variableHost name value) (some "acls.toml") warnFile name value where
  file := ⟨"acls.toml", filePath?_of_file rfl, rfl⟩
  only := by
    have hu : ¬ NamesSetting "TABLES_AUTHZ_USER" := by decide
    simp [variableHost, hn, hu]

theorem mem_warnFile {settings : List (String × Datum)} (hs : textSettings warnFile = .ok settings)
    {s : String × Datum} (hm : s ∈ settings) : s.1 = "logging" ∧ IsTable s.2 ∨ s.1 = "acls" ∧ IsTables s.2 := by
  obtain rfl := Except.ok.inj (hs.symm.trans textSettings_warnFile)
  simp only [List.mem_cons, List.not_mem_nil, or_false] at hm
  rcases hm with rfl | rfl
  · exact .inl ⟨rfl, _, rfl⟩
  · exact .inr ⟨rfl, _, rfl, fun d hd => ⟨_, List.mem_singleton.1 hd⟩⟩

theorem writes_logging_warnFile : Writes warnFile "logging" IsTable := by
  intro settings hs s hm ht
  refine (mem_warnFile hs hm).resolve_right fun ⟨ha, _⟩ => ?_
  rw [ha] at ht
  exact absurd ht (by decide)

theorem writes_acls_warnFile : Writes warnFile "acls" IsTables := by
  intro settings hs s hm ht
  refine (mem_warnFile hs hm).resolve_left fun ⟨hl, _⟩ => ?_
  rw [hl] at ht
  exact absurd ht (by decide)

end Config
end TableAccess
