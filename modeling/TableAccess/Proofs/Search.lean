import Mathlib
import TableAccess.Proofs.Relevance
import TableAccess.Text.Parts
/-!
# Where the configuration file is looked for

Without a path, the first of the usual files that is there is read (`Config.Found`), and it is read as if its path had
been given: a fault in it does not send the search on, and no file after it is looked at (`Config.usual_search`).  Where
a directory is found, its neighbour with `.toml` after its name is opened, and that is none of the usual files after it.
-/
namespace TableAccess

namespace Config

variable {host host' : Host} {path : String} {later : List String}

/-- **The usual file that is found**: it is there, none of those before it is, and these are the ones after it. -/
def Found (host : Host) (path : String) (later : List String) : Prop :=
  ∃ before, usualPaths host = before ++ path :: later ∧ (∀ q ∈ before, host.entry q = .missing) ∧
    host.entry path ≠ .missing

theorem Found.entry_ne (h : Found host path later) : host.entry path ≠ .missing := by
  obtain ⟨before, -, -, hp⟩ := h
  exact hp

/-! ## The neighbour of a directory -/

theorem suffixed?_of_name {name : String} {above : List String} (hp : path.splitOn "/" = above ++ [name])
    (hn : name ∉ ["", ".", ".."]) : suffixed? path = some (path ++ ".toml") := by
  simp only [List.mem_cons, List.not_mem_nil, or_false, not_or] at hn
  obtain ⟨hempty, hdot, hup⟩ := hn
  have hdrop : (name :: above.reverse).dropWhile (fun part => part == "" || part == ".") = name :: above.reverse :=
    List.dropWhile_cons_of_neg (by simp [hempty, hdot])
  have hpath : "/".intercalate (above ++ [name]) = path := hp ▸ Text.intercalate_splitOn path '/'
  have hnext : "/".intercalate (above ++ [name ++ ".toml"]) = path ++ ".toml" := by
    rw [← hpath]
    cases above with
    | nil => simp
    | cons part parts =>
      rw [String.intercalate_append_of_ne_nil (by simp) (by simp),
        String.intercalate_append_of_ne_nil (by simp) (by simp)]
      simp [String.append_assoc]
  rw [suffixed?, hp, List.reverse_append, List.reverse_singleton, List.singleton_append, hdrop]
  split
  · contradiction
  · rename_i heq
    exact absurd (List.cons.inj heq).1 hup
  · rename_i heq
    obtain ⟨rfl, rfl⟩ := List.cons.inj heq
    rw [List.reverse_cons, List.reverse_reverse, hnext]

/-- Where the environment names a home directory, it is the one that `~` stands for; where it names none, that is the one
of the account. -/
theorem home?_eq (host : Host) :
    (∀ home, host.environment.get? "HOME" = some (.text home) → home ≠ "" → host.home? = some home) ∧
    (host.environment.get? "HOME" = none ∨ host.environment.get? "HOME" = some (.text "") →
      host.home? = host.accountHome) := by
  refine ⟨fun home h hn => ?_, fun h => ?_⟩
  · rw [Host.home?, h]
    split
    · contradiction
    · rename_i heq
      cases heq
      contradiction
    · rename_i heq
      cases heq
      rfl
    · rename_i heq
      cases heq
  · rw [Host.home?]
    rcases h with h | h
    · rw [h]
    · rw [h]
      rfl

theorem homePath_eq (host : Host) (path : String) : homePath host path = host.home?.getD "~" ++ "/" ++ path := rfl

theorem length_homePath (host : Host) (path : String) : path.length < (homePath host path).length := by
  rw [homePath_eq, String.length_append, String.length_append, show "/".length = 1 from rfl]
  omega

/-- **Each usual file ends with a name.** -/
theorem suffixed?_of_usual (host : Host) : ∀ path ∈ usualPaths host, suffixed? path = some (path ++ ".toml") := by
  intro path hp
  simp only [usualPaths, List.mem_cons, List.not_mem_nil, or_false] at hp
  rcases hp with rfl | rfl | rfl | rfl
  · have hparts : "tables-authz.toml".splitOn "/" = [] ++ ["tables-authz.toml"] := Text.splitOn_singleton _ '/'
    exact suffixed?_of_name hparts (by decide)
  · have hparts : ".tables-authz.toml".splitOn "/" = [] ++ [".tables-authz.toml"] := Text.splitOn_singleton _ '/'
    exact suffixed?_of_name hparts (by decide)
  · have hlast : ".config/tables-authz/config.toml".splitOn "/" = [".config", "tables-authz"] ++ ["config.toml"] :=
      Text.splitOn_singleton _ '/'
    have hparts := Text.splitOn_append (host.home?.getD "~") ".config/tables-authz/config.toml" '/'
    rw [show String.singleton '/' = "/" from rfl, hlast, ← List.append_assoc] at hparts
    rw [homePath_eq]
    exact suffixed?_of_name hparts (by decide)
  · have hparts : "/etc/tables-authz/config.toml".splitOn "/" = ["", "etc", "tables-authz"] ++ ["config.toml"] :=
      Text.splitOn_singleton _ '/'
    exact suffixed?_of_name hparts (by decide)

/-- **Neither a usual file nor its neighbour is a usual file after it.** -/
theorem pairwise_usualPaths (host : Host) :
    (usualPaths host).Pairwise fun path q => q ≠ path ∧ q ≠ path ++ ".toml" := by
  have hlong : 32 < (homePath host ".config/tables-authz/config.toml").length :=
    length_homePath host ".config/tables-authz/config.toml"
  unfold usualPaths
  generalize homePath host ".config/tables-authz/config.toml" = home at hlong
  have hne (q : String) (hq : q.length ≤ 32) : home ≠ q := by
    rintro rfl
    omega
  have hnext (q : String) (hq : q.length ≤ 32) : q ≠ home ++ ".toml" := by
    rintro rfl
    rw [String.length_append] at hq
    omega
  -- what comes after the path in the home directory is shorter than it, and so are the neighbours of what comes before
  refine .cons ?_ (.cons ?_ (.cons ?_ (.cons ?_ .nil))) <;> intro q hq <;>
    simp only [List.mem_cons, List.not_mem_nil, or_false] at hq
  · rcases hq with rfl | rfl | rfl
    · decide
    · exact ⟨hne _ (by decide), hne _ (by decide)⟩
    · decide
  · rcases hq with rfl | rfl
    · exact ⟨hne _ (by decide), hne _ (by decide)⟩
    · decide
  · subst hq
    exact ⟨(hne _ (by decide)).symm, hnext _ (by decide)⟩

/-! ## What is found is read -/

theorem filePath?_of_found (h : Found host path later) : filePath? host none = .ok (some path) := by
  obtain ⟨before, hu, hb, hp⟩ := h
  have hmissing : ∀ q ∈ before, (!host.hasEntry q) = true := by
    intro q hq
    rw [hasEntry_eq_false_iff.2 (hb q hq)]
    rfl
  exact congrArg Except.ok (List.find?_eq_some_iff_append.2 ⟨hasEntry_iff.2 hp, before, later, hu, hmissing⟩)

theorem filePath?_of_missing (h : host.entry path = .missing) :
    filePath? host (some path) = .error (.load (.fileNotFound path)) := by
  rw [filePath?, if_neg (by rw [hasEntry_eq_false_iff.2 h]; exact Bool.false_ne_true)]

theorem load_of_filePath? {choice : Option String} (h : filePath? host choice = .ok (some path)) :
    load host choice =
      fileText host path >>= textSettings >>= fun file =>
        variableSettings host.environment >>= ofSettings host.order file := by
  rw [load, fileSettings, h]
  rfl

theorem fileText_congr (hp : host'.entry path = host.entry path)
    (hnext : (suffixed? path).map host'.entry = (suffixed? path).map host.entry) :
    fileText host' path = fileText host path := by
  rw [fileText, fileText, hp, hnext]

/-- **What is found stays found, and says the same,** when no files are touched but those after it. -/
theorem Found.of_kept (h : Found host path later) (hh : host'.home? = host.home?)
    (he : ∀ q ∉ later, host'.entry q = host.entry q) :
    Found host' path later ∧ fileText host' path = fileText host path := by
  obtain ⟨before, hu, hb, hp⟩ := h
  have hpair := pairwise_usualPaths host
  rw [hu] at hpair
  obtain ⟨-, hrest, hfirst⟩ := List.pairwise_append.1 hpair
  have hlater := (List.pairwise_cons.1 hrest).1
  have hpath : host'.entry path = host.entry path := he path fun hm => (hlater path hm).1 rfl
  refine ⟨⟨before, by rw [usualPaths_congr hh, hu], fun q hq => ?_, by rwa [hpath]⟩, fileText_congr hpath ?_⟩
  · rw [he q fun hm => (hfirst q hq q (List.mem_cons_of_mem _ hm)).1 rfl]
    exact hb q hq
  · have hmem : path ∈ usualPaths host := hu ▸ List.mem_append_right _ List.mem_cons_self
    rw [suffixed?_of_usual _ path hmem, Option.map_some, Option.map_some, he _ fun hm => (hlater _ hm).2 rfl]

theorem found_or_missing (host : Host) :
    (∃ path later, Found host path later) ∨ ∀ q ∈ usualPaths host, host.entry q = .missing := by
  cases h : (usualPaths host).find? host.hasEntry with
  | none =>
    refine .inr fun q hq => hasEntry_eq_false_iff.1 ?_
    exact Bool.eq_false_iff.2 (List.find?_eq_none.1 h q hq)
  | some path =>
    obtain ⟨hp, before, later, hu, hb⟩ := List.find?_eq_some_iff_append.1 h
    exact .inl ⟨path, later, before, hu, fun q hq => hasEntry_eq_false_iff.1 (by simpa using hb q hq),
      hasEntry_iff.1 hp⟩

theorem load_of_found (h : Found host path later) : load host (some path) = load host none := by
  rw [load_of_filePath? (filePath?_of_found h), load_of_filePath? (filePath?_of_entry h.entry_ne)]

theorem load_of_later (h : Found host path later) (hv : host'.environment = host.environment)
    (ha : host'.accountHome = host.accountHome) (he : ∀ q ∉ later, host'.entry q = host.entry q) :
    load host' none = load (host.ordered host'.order) none := by
  obtain ⟨hfound, htext⟩ := h.of_kept (home?_congr (by rw [hv]) ha) he
  have hfound' : Found (host.ordered host'.order) path later := h
  rw [load_of_filePath? (filePath?_of_found hfound), load_of_filePath? (filePath?_of_found hfound'), htext, hv]
  rfl

theorem load_of_empty (h : host.entry path = .file "") :
    load host (some path) = variableSettings host.environment >>= ofSettings host.order [] := by
  rw [load, fileSettings_of_chosen (filePath?_of_file h) h]
  rfl

/-- **The search for the configuration file.**  The usual file that is found is read as if its path had been given, and
no file after it matters, whether it is there or not and whatever is wrong with the one that is found.  Where none is
there, what is loaded is what an empty file gives.  Two loads may go through their tables in two orders, if what is loaded
does not hang on that.  A path that is given is never searched for: without a file there, the failure names it. -/
theorem usual_search (host : Host) :
    usualPaths host = ["tables-authz.toml", ".tables-authz.toml",
      host.home?.getD "~" ++ "/.config/tables-authz/config.toml", "/etc/tables-authz/config.toml"] ∧
    (∀ home, host.environment.get? "HOME" = some (.text home) → home ≠ "" → host.home? = some home) ∧
    (host.environment.get? "HOME" = none ∨ host.environment.get? "HOME" = some (.text "") →
      host.home? = host.accountHome) ∧
    ((∃ path later, Found host path later) ∨ ∀ q ∈ usualPaths host, host.entry q = .missing) ∧
    (∀ path later, Found host path later →
      (∀ order, Alike (fun o => load (host.ordered o) none) order host.order →
        load (host.ordered order) (some path) = load host none) ∧
      ∀ host' : Host, host'.environment = host.environment → host'.accountHome = host.accountHome →
        (∀ q ∉ later, host'.entry q = host.entry q) →
          Alike (fun o => load (host.ordered o) none) host'.order host.order → load host' none = load host none) ∧
    ((∀ q ∈ usualPaths host, host.entry q = .missing) →
      ∀ (host' : Host) (path : String), host'.environment = host.environment → host'.entry path = .file "" →
        Alike (fun o => load (host.ordered o) none) host'.order host.order → load host' (some path) = load host none) ∧
    ∀ path, host.entry path = .missing →
      load host (some path) = .error (.load (.fileNotFound path)) ∧
      (ConfigError.load (.fileNotFound path)).message =
        "Failed to load configuration: Configuration file not found: " ++ path := by
  obtain ⟨hnamed, haccount⟩ := home?_eq host
  refine ⟨?_, hnamed, haccount, found_or_missing host,
    fun path later h => ⟨fun order ho => ?_, fun host' hv ha he ho => ?_⟩,
    fun h host' path hv he ho => ?_, fun path h => ⟨?_, ?_⟩⟩
  · rw [usualPaths, homePath_eq, String.append_assoc]
    rfl
  · have hfound : Found (host.ordered order) path later := h
    exact (load_of_found hfound).trans ho.eq
  · exact (load_of_later h hv ha he).trans ho.eq
  · have hmissing : ∀ q ∈ usualPaths (host.ordered host'.order), (host.ordered host'.order).entry q = .missing := h
    have hnone : load host' (some path) = load (host.ordered host'.order) none := by
      rw [load_of_empty he, load_of_missing hmissing, hv]
      rfl
    exact hnone.trans ho.eq
  · rw [load, fileSettings, filePath?_of_missing h]
    rfl
  · exact (String.append_assoc ..).symm

/-- Files at these paths and no others, for Ann. -/
def annHost (files : List (String × String)) : Host where
  entry path := match memberOf? path files with
    | some text => .file text
    | none => .missing
  environment := [("HOME", "/home/ann")]
  envFile := none

/-- Ann's own file is never read, since one before it is there, which is no TOML document. -/
def annFiles : List (String × String) :=
  [(".tables-authz.toml", "[logging"), ("/home/ann/.config/tables-authz/config.toml", warnFile)]

theorem load_annFiles (order : TableOrder) : load ((annHost annFiles).ordered order) (some ".tables-authz.toml") =
    .error (.load (.unreadable "the file is not a TOML document")) := by
  have hfile : ((annHost annFiles).ordered order).entry ".tables-authz.toml" = .file "[logging" := rfl
  have hnone : variableSettings ((annHost annFiles).ordered order).environment = .ok [] :=
    variableSettings_eq_nil (show ∀ v ∈ (annHost annFiles).environment, ¬ NamesSetting v.1 by decide)
  have htext : textSettings "[logging" = .error (.load (.unreadable "the file is not a TOML document")) := by cbv
  rw [load_of_no_settings hfile hnone, ofText, htext]
  rfl

theorem usual_search_of_ann :
    (∀ order, load ((annHost annFiles).ordered order) (some ".tables-authz.toml") = load (annHost annFiles) none) ∧
    load (annHost [(".tables-authz.toml", "[logging")]) none = load (annHost annFiles) none ∧
    load (annHost annFiles) none = .error (.load (.unreadable "the file is not a TOML document")) ∧
    load (annHost [("empty.toml", "")]) (some "empty.toml") = load (annHost []) none ∧
    load (annHost annFiles) (some "tables-authz.toml") = .error (.load (.fileNotFound "tables-authz.toml")) := by
  obtain ⟨hpaths, hhome, -, -, hfound, -, hgone⟩ := usual_search (annHost annFiles)
  obtain ⟨-, -, -, -, -, hnone, -⟩ := usual_search (annHost [])
  rw [hhome "/home/ann" rfl (by decide)] at hpaths
  have hf : Found (annHost annFiles) ".tables-authz.toml"
      ["/home/ann/.config/tables-authz/config.toml", "/etc/tables-authz/config.toml"] :=
    ⟨["tables-authz.toml"], hpaths, by decide, by decide⟩
  obtain ⟨hsame, hlater⟩ := hfound _ _ hf
  have hfails (order : TableOrder) : load ((annHost annFiles).ordered order) none =
      .error (.load (.unreadable "the file is not a TOML document")) := by
    have hford : Found ((annHost annFiles).ordered order) ".tables-authz.toml"
      ["/home/ann/.config/tables-authz/config.toml", "/etc/tables-authz/config.toml"] := hf
    exact (load_of_found hford).symm.trans (load_annFiles order)
  have ho (order : TableOrder) :
      Alike (fun o => load ((annHost annFiles).ordered o) none) order (annHost annFiles).order :=
    .inr fun o o' => (hfails o).trans (hfails o').symm
  refine ⟨fun order => hsame order (ho order), hlater _ rfl rfl (fun q hq => ?_) (.inl rfl), hfails .listed,
    hnone (by decide) _ _ rfl rfl (.inl rfl), (hgone _ rfl).1⟩
  have hne : "/home/ann/.config/tables-authz/config.toml" ≠ q := fun he => hq (he ▸ List.mem_cons_self)
  simp only [annHost, annFiles, memberOf?, List.find?_cons, beq_eq_false_iff_ne.2 hne]

/-- **Two orders can tell the search and the path apart.** -/
theorem usual_search_of_number :
    Found (annHost [("tables-authz.toml", numberFile)]) "tables-authz.toml" [".tables-authz.toml",
      "/home/ann/.config/tables-authz/config.toml", "/etc/tables-authz/config.toml"] ∧
    load ((annHost [("tables-authz.toml", numberFile)]).ordered .backwards) (some "tables-authz.toml") =
      .ok numberConfig ∧
    ∀ c, load (annHost [("tables-authz.toml", numberFile)]) none ≠ .ok c := by
  have hf : Found (annHost [("tables-authz.toml", numberFile)]) "tables-authz.toml" [".tables-authz.toml",
      "/home/ann/.config/tables-authz/config.toml", "/etc/tables-authz/config.toml"] :=
    ⟨[], rfl, nofun, Entry.noConfusion⟩
  have hload (order : TableOrder) : load ((annHost [("tables-authz.toml", numberFile)]).ordered order)
      (some "tables-authz.toml") = ofText numberFile order := by
    refine load_of_no_settings rfl (variableSettings_eq_nil ?_)
    exact show ∀ v ∈ (annHost [("tables-authz.toml", numberFile)]).environment, ¬ NamesSetting v.1 by decide
  obtain ⟨hsome, hnone⟩ := ofText_numberFile
  refine ⟨hf, (hload _).trans hsome, fun c hc => hnone c ?_⟩
  have hpath := (load_of_found hf).trans hc
  exact (hload .listed).symm.trans hpath

end Config
end TableAccess
