import LivingDocs.Config.Discovery
import LivingDocs.Proofs.PathAbove

/-!
# The search for a configuration upwards

The search starts at a path and goes one step up at a time. In each directory it looks for a
configuration file first, and then whether the directory is the top of a repository. It ends at the
first directory where either is there, or where there is no further step up. So it finds the
configuration file of the nearest directory that has one, unless a nearer directory is the top of a
repository; a directory that is both has its configuration file found.

## Main definitions

* `LivingDocs.Config.Finds` — how the search goes, step by step.
* `LivingDocs.Config.IsNearest` — the configuration file that should be found in some directories.

## Main results

* `LivingDocs.Config.search_eq_some_iff` — what is found in some directories.
* `LivingDocs.Config.finds_iff` — the search ends, and with the path that is found.
* `LivingDocs.Config.findFile?_upwards` — what is found from a path upwards.
-/

set_option autoImplicit false

namespace LivingDocs.Config

variable {files : FileSystem} {directory path : Path} {chain : List Path} {result : Option Path}

/-- Whether a directory holds a configuration file. -/
def IsConfigured (files : FileSystem) (directory : Path) : Prop :=
  files.contains (directory.join fileName) = true

/-- Whether a directory is the top of a repository. -/
def IsRepositoryTop (files : FileSystem) (directory : Path) : Prop :=
  files.contains (directory.join repositoryMark) = true

instance : Decidable (IsConfigured files directory) :=
  inferInstanceAs (Decidable (files.contains (directory.join fileName) = true))

instance : Decidable (IsRepositoryTop files directory) :=
  inferInstanceAs (Decidable (files.contains (directory.join repositoryMark) = true))

/-! ## Some directories in order -/

/-- **The configuration file that should be found in some directories**: the one of the first
directory that has any, if no directory in front of that one is the top of a repository. -/
def IsNearest (files : FileSystem) (chain : List Path) (found : Path) : Prop :=
  ∃ nearer directory further, chain = nearer ++ directory :: further ∧
    IsConfigured files directory ∧ found = directory.join fileName ∧
    ∀ passed ∈ nearer, ¬ IsConfigured files passed ∧ ¬ IsRepositoryTop files passed

/-- In a directory with a configuration file the search ends. -/
lemma search_of_isConfigured (h : IsConfigured files directory) :
    search files (directory :: chain) = some (directory.join fileName) := if_pos h

/-- At the top of a repository without a configuration file the search ends. -/
lemma search_of_isRepositoryTop (hfile : ¬ IsConfigured files directory)
    (htop : IsRepositoryTop files directory) : search files (directory :: chain) = none :=
  (if_neg hfile).trans (if_pos htop)

/-- A directory that is neither is passed. -/
lemma search_of_passed (hfile : ¬ IsConfigured files directory)
    (htop : ¬ IsRepositoryTop files directory) :
    search files (directory :: chain) = search files chain :=
  (if_neg hfile).trans (if_neg htop)

/-- A directory that is passed comes in front of the one that is found. -/
lemma isNearest_cons_iff {found : Path} (hfile : ¬ IsConfigured files directory) :
    IsNearest files (directory :: chain) found ↔
      ¬ IsRepositoryTop files directory ∧ IsNearest files chain found := by
  constructor
  · rintro ⟨nearer, configured, further, hchain, hconfigured, hfound, hpassed⟩
    cases nearer with
    | nil =>
      obtain ⟨rfl, -⟩ := List.cons.inj hchain
      exact absurd hconfigured hfile
    | cons first nearer =>
      obtain ⟨rfl, rfl⟩ := List.cons.inj hchain
      obtain ⟨hfirst, hpassed⟩ := List.forall_mem_cons.mp hpassed
      exact ⟨hfirst.2, nearer, configured, further, rfl, hconfigured, hfound, hpassed⟩
  · rintro ⟨htop, nearer, configured, further, rfl, hconfigured, hfound, hpassed⟩
    exact ⟨directory :: nearer, configured, further, rfl, hconfigured, hfound,
      List.forall_mem_cons.mpr ⟨⟨hfile, htop⟩, hpassed⟩⟩

/-- In a directory with a configuration file that file should be found. -/
lemma isNearest_cons_of_isConfigured {found : Path} (h : IsConfigured files directory) :
    IsNearest files (directory :: chain) found ↔ found = directory.join fileName := by
  constructor
  · rintro ⟨nearer, configured, further, hchain, -, rfl, hpassed⟩
    cases nearer with
    | nil =>
      obtain ⟨rfl, -⟩ := List.cons.inj hchain
      rfl
    | cons first nearer =>
      obtain ⟨rfl, -⟩ := List.cons.inj hchain
      exact absurd h (hpassed directory List.mem_cons_self).1
  · rintro rfl
    exact ⟨[], directory, chain, rfl, h, rfl, nofun⟩

/-- **What is found in some directories is what should be found.** -/
theorem search_eq_some_iff {found : Path} :
    search files chain = some found ↔ IsNearest files chain found := by
  induction chain with
  | nil =>
    refine iff_of_false nofun ?_
    rintro ⟨nearer, configured, further, hchain, -⟩
    cases nearer <;> cases hchain
  | cons directory above ih =>
    by_cases hfile : IsConfigured files directory
    · rw [search_of_isConfigured hfile, isNearest_cons_of_isConfigured hfile, Option.some_inj,
        eq_comm]
    · rw [isNearest_cons_iff hfile]
      by_cases htop : IsRepositoryTop files directory
      · rw [search_of_isRepositoryTop hfile htop]
        exact iff_of_false nofun fun h => h.1 htop
      · rw [search_of_passed hfile htop, ih]
        exact (and_iff_right htop).symm

/-! ## Step by step -/

/-- **How the search goes**, from a path to its result. A configuration file comes first, then the
top of a repository, and then the step up. -/
inductive Finds (files : FileSystem) : Path → Option Path → Prop
  | file {path : Path} (hfile : IsConfigured files path) :
      Finds files path (some (path.join fileName))
  | repository {path : Path} (hfile : ¬ IsConfigured files path)
      (htop : IsRepositoryTop files path) : Finds files path none
  | ended {path : Path} (hfile : ¬ IsConfigured files path) (htop : ¬ IsRepositoryTop files path)
      (hend : ∀ above, ¬ path.StepsUp above) : Finds files path none
  | up {path above : Path} {result : Option Path} (hfile : ¬ IsConfigured files path)
      (htop : ¬ IsRepositoryTop files path) (hup : path.StepsUp above)
      (habove : Finds files above result) : Finds files path result

/-- What is found from a path on is known once it is known what is found when the path is passed. -/
lemma finds_search (hpassed : ¬ IsConfigured files path → ¬ IsRepositoryTop files path →
    Finds files path (search files chain)) : Finds files path (search files (path :: chain)) := by
  by_cases hfile : IsConfigured files path
  · rw [search_of_isConfigured hfile]
    exact .file hfile
  · by_cases htop : IsRepositoryTop files path
    · rw [search_of_isRepositoryTop hfile htop]
      exact .repository hfile htop
    · rw [search_of_passed hfile htop]
      exact hpassed hfile htop

/-- The search along a chain of steps up ends with what is found in these directories. -/
lemma finds_of_climbs (h : path.Climbs chain) : Finds files path (search files chain) := by
  induction h with
  | top hend => exact finds_search fun hfile htop => .ended hfile htop hend
  | up hup _ ih => exact finds_search fun hfile htop => .up hfile htop hup ih

/-- The search ends with one result only. -/
lemma Finds.unique {result' : Option Path} (h : Finds files path result)
    (h' : Finds files path result') : result = result' := by
  induction h with
  | file hfile =>
    cases h' with
    | file => rfl
    | repository hnot | ended hnot | up hnot => exact absurd hfile hnot
  | repository hfile htop =>
    cases h' with
    | file hfile' => exact absurd hfile' hfile
    | repository => rfl
    | ended _ hnot | up _ hnot => exact absurd htop hnot
  | ended hfile htop hend =>
    cases h' with
    | file hfile' => exact absurd hfile' hfile
    | repository _ htop' => exact absurd htop' htop
    | ended => rfl
    | up _ _ hup => exact absurd hup (hend _)
  | up hfile htop hup _ ih =>
    cases h' with
    | file hfile' => exact absurd hfile' hfile
    | repository _ htop' => exact absurd htop' htop
    | ended _ _ hend => exact absurd hup (hend _)
    | up _ _ hup' habove' =>
      obtain rfl := hup.unique hup'
      exact ih habove'

/-- **The search ends, and with the path that is found.** -/
theorem finds_iff {start : Path} : Finds files start result ↔ findFile? files start = result := by
  have hfinds : Finds files start (findFile? files start) :=
    finds_of_climbs (Path.climbs_ancestors start)
  constructor
  · intro h
    exact hfinds.unique h
  · rintro rfl
    exact hfinds

/-- **What is found from a path upwards.** The search step by step ends, with one result, which is
the path that is found. There is one chain of steps up, with a directory for the path itself and one
for each part but the root. Of these the nearest one with a configuration file counts, if no nearer
one is the top of a repository. -/
theorem findFile?_upwards (files : FileSystem) (start : Path) :
    (∀ result, Finds files start result ↔ findFile? files start = result) ∧
      ∃ chain, (∀ steps, start.Climbs steps ↔ steps = chain) ∧
        chain.length = start.parts.countP (· ≠ .root) + 1 ∧
        ∀ found, findFile? files start = some found ↔ IsNearest files chain found := by
  have hlength := (Path.climbs_ancestors start).length_eq
  exact ⟨fun _ => finds_iff, start.ancestors, fun _ => Path.climbs_iff, hlength,
    fun _ => search_eq_some_iff⟩

-- The top of a repository has its configuration file found; without one the search ends there.
example : findFile? { here := [], root := .directory [(".aerialrc.json", .file .empty),
      ("app", .directory [(".aerialrc.json", .file .empty), (".git", .directory []),
        ("src", .directory [])])] } ⟨"/app//src/."⟩ = some ⟨"/app/.aerialrc.json"⟩ := by decide

example : findFile? { here := [], root := .directory [(".aerialrc.json", .file .empty),
      ("app", .directory [(".git", .directory []), ("src", .directory [])])] } ⟨"/app//src/."⟩ =
    none := by decide

end LivingDocs.Config
