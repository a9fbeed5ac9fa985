import LivingDocs.Proofs.Destination
import LivingDocs.Proofs.Session

/-!
# Which configuration is found

A project has its configuration at its top, and a command may run in any directory of the project.
The search for the configuration goes up as far as the spelling of its start does, and it starts at
`.`, above which nothing is spelled but the empty path. Both stand for the working directory. So the
configuration in the working directory is found, and none further up.

## Main definitions

* `LivingDocs.FileSystem.Holds`, `LivingDocs.FileSystem.HasWorkplace` — a directory has an entry of
  some name, and the working directory is one.
* `LivingDocs.Config.Governs` — the directory whose configuration should hold in the working
  directory.
* `LivingDocs.Command.Loads`, `LivingDocs.Command.Discovers` — which configuration a command works
  with, and that it is the one that should hold.

## Main results

* `LivingDocs.Config.findFile?_of_holds`, `LivingDocs.Config.findFile?_of_not_holds` — the search
  finds what is in the working directory.
* `LivingDocs.Command.discovers_iff` — when the configuration that should hold is found.
-/

set_option autoImplicit false

namespace LivingDocs

/-! ## The working directory -/

namespace FileSystem

/-- **A directory has an entry of that name.** -/
def Holds (files : FileSystem) (directory : Address) (name : String) : Prop :=
  (files.root.get? (directory ++ [name])).isSome = true

instance (files : FileSystem) (directory : Address) (name : String) :
    Decidable (files.Holds directory name) :=
  inferInstanceAs (Decidable (_ = _))

/-- **The working directory is a directory of the tree.** -/
def HasWorkplace (files : FileSystem) : Prop :=
  ∃ place entries, files.workplace = .ok place ∧ place.node = .directory entries

section Workplace

variable {files : FileSystem} {place : Place} {entries : List (String × Node)}

/-- The working directory holds its entries. -/
lemma holds_here_iff (hplace : files.workplace = .ok place)
    (hnode : place.node = .directory entries) {name : String} :
    files.Holds files.here name ↔ (entries.lookup name).isSome = true := by
  have hget : files.root.get? files.here = some (.directory entries) := by
    have hwithin : Place.Within files.root place :=
      @within_of_start files ⟨""⟩ place hplace
    rw [← address_of_workplace hplace, hwithin.get?_address, hnode]
  rw [Holds, Node.get?_child hget]

/-- A path that leads to an entry of the working directory leads somewhere exactly if the working
directory has that entry. -/
lemma contains_iff_holds {path : Path} {name : String} (hnames : files.Names path place name)
    (hplace : files.workplace = .ok place) (hnode : place.node = .directory entries)
    (hdestination : path.destination files.here = files.here ++ [name]) :
    files.contains path = true ↔ files.Holds files.here name := by
  constructor
  · intro hcontains
    obtain ⟨target, hreach⟩ := contains_iff_exists_reach.mp hcontains
    rw [Holds, ← hdestination, ← address_of_reach hreach, (within_of_reach hreach).get?_address]
    rfl
  · intro hholds
    obtain ⟨node, hlookup⟩ :=
      Option.isSome_iff_exists.mp ((holds_here_iff hplace hnode).mp hholds)
    exact contains_iff_exists_reach.mpr ⟨_, hnames.reach hnode hlookup⟩

end Workplace

end FileSystem

/-! ## The search -/

namespace Config

/-- **The directory whose configuration should hold in the working directory**: the working
directory or one above it that has a configuration file, while no directory that is nearer has one
or is the top of a repository. -/
structure Governs (files : FileSystem) (directory : FileSystem.Address) : Prop where
  above : directory <+: files.here
  holds : files.Holds directory fileName
  nearest : ∀ nearer, directory <+: nearer → nearer ≠ directory → nearer <+: files.here →
    ¬ files.Holds nearer fileName ∧ ¬ files.Holds nearer repositoryMark

/-- A configuration in the working directory comes before all others. -/
lemma Governs.eq_here {files : FileSystem} {directory : FileSystem.Address}
    (h : Governs files directory) (hhere : files.Holds files.here fileName) :
    directory = files.here := by
  by_contra hne
  exact (h.nearest files.here h.above (Ne.symm hne) (List.prefix_refl _)).1 hhere

/-- A configuration in the working directory should hold there. -/
lemma governs_here {files : FileSystem} (hhere : files.Holds files.here fileName) :
    Governs files files.here :=
  ⟨List.prefix_refl _, hhere, fun _ hbelow hne habove =>
    absurd (habove.eq_of_length_le hbelow.length_le) hne⟩

/-- The path of the configuration file in the working directory, as the search spells it. -/
def herePath : Path := (⟨"."⟩ : Path).join fileName

section Search

variable {files : FileSystem}

/-- The search looks for the configuration file in the working directory, under two spellings. -/
lemma contains_iff_holds_here (h : files.HasWorkplace) :
    (files.contains herePath = true ↔ files.Holds files.here fileName) ∧
      (files.contains ⟨fileName⟩ = true ↔ files.Holds files.here fileName) := by
  obtain ⟨place, entries, hplace, hnode⟩ := h
  have hstay : place.follow "." = .ok place := by
    rw [FileSystem.Place.follow, if_pos (.inr rfl), FileSystem.Place.entries, hnode]
    rfl
  have hdotted : files.Names herePath place fileName :=
    ⟨rfl, ⟨["."], rfl, bind_eq_ok_iff.mpr ⟨place, hplace, bind_eq_ok_iff.mpr ⟨place, hstay, rfl⟩⟩⟩,
      by decide, by decide⟩
  have hplain : files.Names ⟨fileName⟩ place fileName :=
    ⟨rfl, ⟨[], rfl, bind_eq_ok_iff.mpr ⟨place, hplace, rfl⟩⟩, by decide, by decide⟩
  exact ⟨FileSystem.contains_iff_holds hdotted hplace hnode rfl,
    FileSystem.contains_iff_holds hplain hplace hnode rfl⟩

/-- **The configuration file in the working directory is found.** -/
lemma findFile?_of_holds (h : files.HasWorkplace) (hholds : files.Holds files.here fileName) :
    findFile? files ⟨"."⟩ = some herePath := by
  have hcontains : files.contains ((⟨"."⟩ : Path).join fileName) = true :=
    (contains_iff_holds_here h).1.mpr hholds
  rw [findFile?, Path.ancestors, search, if_pos hcontains]
  rfl

/-- **No other configuration file is found.**

**Proof sketch.** Above `.` the search goes on with the empty path, if it goes on at all, and looks
for the same entry of the working directory once more. -/
lemma findFile?_of_not_holds (h : files.HasWorkplace)
    (hholds : ¬ files.Holds files.here fileName) : findFile? files ⟨"."⟩ = none := by
  have hdotted : ¬ files.contains ((⟨"."⟩ : Path).join fileName) = true := fun hcontains =>
    hholds ((contains_iff_holds_here h).1.mp hcontains)
  have hplain : ¬ files.contains ((⟨""⟩ : Path).join fileName) = true := fun hcontains =>
    hholds ((contains_iff_holds_here h).2.mp hcontains)
  have hancestors : (⟨"."⟩ : Path).ancestors = [⟨"."⟩, ⟨""⟩] := by decide
  rw [findFile?, hancestors, search, if_neg hdotted, search, if_neg hplain, search]
  split_ifs <;> rfl

end Search

end Config

/-! ## The configuration of a command -/

namespace Command

/-- **Which configuration a command works with**: the one in the file of a directory, or that of a
project that sets nothing, which is told on demand. -/
def Loads (files : FileSystem) : Option FileSystem.Address → Prop
  | some directory => ∃ path, files.locate path = .ok (directory ++ [Config.fileName]) ∧
      ∀ (verbose : Bool) (session : Session), session.files = files →
        (projectConfig verbose).result session =
          ((Config.read files path).mapError .configuration, session)
  | none => ∀ (verbose : Bool) (session : Session), session.files = files →
      (projectConfig verbose).result session =
        (.ok .default, { session with
          told := session.told ++ configNote verbose ⟨.default, false⟩ })

/-- **A command works with the configuration that should hold in the working directory**, or with
that of a project that sets nothing if there is none. -/
structure Discovers (files : FileSystem) : Prop where
  governed : ∀ directory, Config.Governs files directory → Loads files (some directory)
  ungoverned : (∀ directory, ¬ Config.Governs files directory) → Loads files none

/-- What comes of loading the configuration of the project. -/
lemma result_projectConfig (verbose : Bool) (session : Session) :
    (projectConfig verbose).result session =
      match Config.load session.files ⟨"."⟩ with
      | .ok loaded => (.ok loaded.config,
          { session with told := session.told ++ configNote verbose loaded })
      | .error fault => (.error (.configuration fault), session) := by
  cases hload : Config.load session.files ⟨"."⟩ with
  | ok loaded => exact ends_projectConfig.mpr ⟨loaded, hload, rfl, rfl⟩
  | error fault =>
    have hfiles : Action.files.result session = (.ok session.files, session) := rfl
    simp only [projectConfig, Action.result_bind, hfiles, hload]
    rfl

section Loads

variable {files : FileSystem}

/-- The configuration in the working directory is the one that a command works with. -/
lemma loads_here (h : files.HasWorkplace) (hholds : files.Holds files.here Config.fileName) :
    Loads files (some files.here) := by
  have hcontains := (Config.contains_iff_holds_here h).1.mpr hholds
  have hload : Config.load files ⟨"."⟩ =
      (Config.read files Config.herePath).map fun config => ⟨config, true⟩ := by
    rw [Config.load, Config.findFile?_of_holds h hholds]
  obtain ⟨place, hreach⟩ := FileSystem.contains_iff_exists_reach.mp hcontains
  have haddress : place.address = files.here ++ [Config.fileName] :=
    FileSystem.address_of_reach hreach
  refine ⟨Config.herePath, map_eq_ok_iff.mpr ⟨place, hreach, haddress⟩, ?_⟩
  rintro verbose session rfl
  rw [result_projectConfig, hload]
  cases Config.read session.files Config.herePath with
  | ok config => simp [Except.map, Except.mapError, configNote]
  | error fault => rfl

/-- Without a configuration in the working directory, a command works with that of a project that
sets nothing. -/
lemma loads_none (h : files.HasWorkplace) (hholds : ¬ files.Holds files.here Config.fileName) :
    Loads files none := by
  rintro verbose session rfl
  rw [result_projectConfig, Config.load, Config.findFile?_of_not_holds h hholds]

/-- A command that tells that there is no configuration works with none. -/
lemma not_loads_some_of_loads_none (h : Loads files none) (directory : FileSystem.Address) :
    ¬ Loads files (some directory) := by
  rintro ⟨path, -, hsome⟩
  have htold : "" ++ configNote true ⟨.default, false⟩ = "" :=
    congrArg (fun outcome => outcome.2.told)
      ((h true { files } rfl).symm.trans (hsome true { files } rfl))
  exact absurd htold (by decide)

end Loads

/-- **When the configuration that should hold is found.** A command works with the configuration in
the working directory, and with that of a project that sets nothing if there is none, whatever
stands further up. So it works with the one that should hold exactly if that is in the working
directory, or if there is none at all. -/
theorem discovers_iff {files : FileSystem} (h : files.HasWorkplace) :
    (files.Holds files.here Config.fileName → Loads files (some files.here)) ∧
      (¬ files.Holds files.here Config.fileName → Loads files none) ∧
      (Discovers files ↔ files.Holds files.here Config.fileName ∨
        ∀ directory, ¬ Config.Governs files directory) := by
  refine ⟨loads_here h, loads_none h, fun hdiscovers => ?_, ?_⟩
  · by_cases hholds : files.Holds files.here Config.fileName
    · exact .inl hholds
    · exact .inr fun directory hgoverns =>
        not_loads_some_of_loads_none (loads_none h hholds) directory
          (hdiscovers.governed directory hgoverns)
  · intro hwhere
    refine ⟨fun directory hgoverns => ?_, fun hnone => ?_⟩
    · rcases hwhere with hholds | hnone
      · rw [hgoverns.eq_here hholds]
        exact loads_here h hholds
      · exact absurd hgoverns (hnone directory)
    · exact loads_none h fun hholds => hnone files.here (Config.governs_here hholds)

/-! ### A directory of a project -/

/-- A project with another stem for its keywords, and a directory of it as the working directory. -/
def subdirectoryFiles : FileSystem where
  root := .directory [
    (".aerialrc.json", .file (Text.Utf8.encode "\x7b\"keywordPrefix\": \"docs\"\x7d")),
    ("sub", .directory [("test_a.py", .file (Text.Utf8.encode "# docs:cross-cut Audit log"))])]
  here := ["sub"]

lemma hasWorkplace_subdirectoryFiles : subdirectoryFiles.HasWorkplace := ⟨_, _, rfl, rfl⟩

/-- The configuration of the project should hold in the directory. -/
lemma governs_subdirectoryFiles : Config.Governs subdirectoryFiles [] := by
  refine ⟨List.nil_prefix, by decide, fun nearer _ hne habove => ?_⟩
  rcases List.prefix_cons_iff.mp habove with rfl | ⟨rest, rfl, hrest⟩
  · exact absurd rfl hne
  · obtain rfl := List.prefix_nil.mp hrest
    exact ⟨by decide, by decide⟩

/-- In the directory no configuration is found. At the top of the project it is. -/
theorem discovers_iff_subdirectory :
    subdirectoryFiles.HasWorkplace ∧ Loads subdirectoryFiles none ∧
      (Discovers subdirectoryFiles ↔
        subdirectoryFiles.Holds subdirectoryFiles.here Config.fileName ∨
          ∀ directory, ¬ Config.Governs subdirectoryFiles directory) ∧
      Discovers { subdirectoryFiles with here := [] } := by
  have hdirectory := discovers_iff hasWorkplace_subdirectoryFiles
  have htop := @discovers_iff { subdirectoryFiles with here := [] } ⟨_, _, rfl, rfl⟩
  exact ⟨hasWorkplace_subdirectoryFiles, hdirectory.2.1 (by decide), hdirectory.2.2,
    htop.2.2.mpr (.inl (by decide))⟩

/-- **In a directory of a project its configuration is not found**: the file at the top sets another
stem, and a command works with the default one. -/
theorem not_discovers_subdirectory :
    Config.Governs subdirectoryFiles [] ∧
      (Config.read subdirectoryFiles ⟨"../.aerialrc.json"⟩).map Config.keywordPrefix =
        .ok "docs" ∧
      ((projectConfig false).result { files := subdirectoryFiles }).1.map Config.keywordPrefix =
        .ok "aerial" ∧
      ¬ Discovers subdirectoryFiles := by
  refine ⟨governs_subdirectoryFiles, by decide +kernel, by decide +kernel, fun hdiscovers => ?_⟩
  exact not_loads_some_of_loads_none (loads_none hasWorkplace_subdirectoryFiles (by decide)) []
    (hdiscovers.governed [] governs_subdirectoryFiles)

end Command

end LivingDocs
