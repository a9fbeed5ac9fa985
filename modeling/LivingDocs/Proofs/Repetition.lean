import LivingDocs.Proofs.Discovery
import LivingDocs.Proofs.Rewalk
import LivingDocs.Proofs.WritePolicy

/-!
# A scan that is repeated

A scan writes into the tree that it scans. When it is repeated, it works in a tree that has grown by
the five files of its corpus and by the directories above them. The files have names that are left
out everywhere, so the same files are selected as before, and none of these has changed. Their
corpus is the same, and writing it again changes nothing.

One thing can go wrong. A directory that is made in the working directory with the name of the
configuration file is taken for this file from then on, and it cannot be read.

## Main definitions

* `LivingDocs.Command.ScanRequest.SparesRoots` — no root of a scan is one of the files that it
  writes.
* `LivingDocs.Command.ScanRequest.Stores` — a scan writes the corpus of the files that it selects.
* `LivingDocs.Command.ScanRequest.Repeats` — a scan that is repeated writes the same and changes
  nothing.

## Main results

* `LivingDocs.Command.grown_of_ends_writeCorpus` — how writing a corpus lets a file system grow.
* `LivingDocs.Command.ends_writeCorpus_again` — writing a corpus again changes nothing.
* `LivingDocs.Command.corpus_again` — the corpus of a scan that is repeated.
* `LivingDocs.Command.repeats_iff` — when a scan can be repeated.
-/

set_option autoImplicit false

namespace LivingDocs

/-! ## What stays readable -/

namespace FileSystem.ChangesOnly

variable {before after : FileSystem} {outputs made : List Path} {path : Path}

/-- **A file that is no output keeps its content.** -/
lemma readFile_eq (h : before.ChangesOnly after outputs made)
    (hother : ∀ output ∈ outputs, output.destination before.here ≠ path.destination before.here)
    {content : ByteArray} (hread : before.readFile path = .ok content) :
    after.readFile path = .ok content := by
  obtain ⟨address, hlocate, hview⟩ := readFile_eq_ok_iff_view.mp hread
  refine readFile_eq_ok_iff_view.mpr ⟨address, h.leads path address hlocate, ?_⟩
  by_contra hne
  rcases h.differs address fun hsame => hne (hsame.trans hview) with
    ⟨output, houtput, hthere⟩ | ⟨-, hnone, -⟩
  · refine hother output houtput ?_
    rw [destination_of_locate hlocate, ← h.here, destination_of_locate hthere]
  · rw [hview] at hnone
    cases hnone

/-- A file that is no output has the same corpus. -/
lemma fileCorpus_eq (h : before.ChangesOnly after outputs made)
    (hother : ∀ output ∈ outputs, output.destination before.here ≠ path.destination before.here)
    {grammar : Block.Grammar} {corpus : Corpus}
    (hcorpus : Command.fileCorpus before grammar path = .ok corpus) :
    Command.fileCorpus after grammar path = .ok corpus := by
  obtain ⟨content, hread, rfl⟩ := map_eq_ok_iff.mp hcorpus
  obtain ⟨address, hlocate, -⟩ := readFile_eq_ok_iff_view.mp hread
  rw [Command.fileCorpus, h.readFile_eq hother hread, canonical, canonical, hlocate,
    h.leads path address hlocate]
  rfl

/-- **Files that are no outputs have the same corpus.** -/
lemma aggregate_eq (h : before.ChangesOnly after outputs made) {paths : List Path}
    (hother : ∀ path ∈ paths, ∀ output ∈ outputs,
      output.destination before.here ≠ path.destination before.here)
    {grammar : Block.Grammar} {corpus : Corpus}
    (hcorpus : Command.aggregate before grammar paths = .ok corpus) :
    Command.aggregate after grammar paths = .ok corpus := by
  rw [Command.aggregate] at hcorpus ⊢
  generalize (∅ : Corpus) = start at hcorpus ⊢
  induction paths generalizing start with
  | nil => exact hcorpus
  | cons path paths ih =>
    obtain ⟨hpath, hpaths⟩ := List.forall_mem_cons.mp hother
    rw [List.foldlM_cons, bind_eq_ok_iff] at hcorpus ⊢
    obtain ⟨next, hnext, hrest⟩ := hcorpus
    obtain ⟨found, hfound, rfl⟩ := map_eq_ok_iff.mp hnext
    exact ⟨_, map_eq_ok_iff.mpr ⟨found, h.fileCorpus_eq hpath hfound, rfl⟩, ih hpaths _ hrest⟩

/-- **A configuration that is no output is the same.** -/
lemma read_eq (h : before.ChangesOnly after outputs made)
    (hother : ∀ output ∈ outputs, output.destination before.here ≠ path.destination before.here)
    {config : Config} (hread : Config.read before path = .ok config) :
    Config.read after path = .ok config := by
  obtain ⟨text, htext, hconfig⟩ := bind_eq_ok_iff.mp hread
  obtain ⟨content, hcontent, hdecode⟩ := bind_eq_ok_iff.mp (mapError_eq_ok_iff.mp htext)
  have htext' : after.readText path = .ok text :=
    bind_eq_ok_iff.mpr ⟨content, h.readFile_eq hother hcontent, hdecode⟩
  exact bind_eq_ok_iff.mpr ⟨text, mapError_eq_ok_iff.mpr htext', hconfig⟩

end FileSystem.ChangesOnly

namespace Command

open FileSystem

/-! ## Writing a corpus again -/

/-- **Files of such names are left out everywhere.** -/
lemma anyCovers_of_mem_artifactNames (options : Selection.Options) {name : String}
    (h : name ∈ artifactNames) : Glob.anyCovers options.sieve.base name = true := by
  have hjson : ∀ name ∈ artifactNames,
      Glob.anyCovers (Selection.patterns ["*.json"]) name = true := by decide +kernel
  obtain ⟨text, htext, hfits⟩ := Selection.anyCovers_patterns.mp (hjson name h)
  obtain rfl := List.mem_singleton.mp htext
  have hstandard : "*.json" ∈ Selection.standardExclusions := by decide
  exact Selection.anyCovers_patterns.mpr ⟨_, List.mem_append_left _ hstandard, hfits⟩

section Write

variable {directory : Path} {items : List (String × String)} {corpus : Corpus}
  {session last : Session} {paths : List Path}

/-- Writing files of hidden names lets a file system grow. -/
lemma grown_of_ends_writeAll {hidden : String → Prop}
    (hnames : ∀ item ∈ items, EntryName item.1 ∧ hidden item.1)
    (h : (writeAll directory items).Ends session paths last) :
    Grown hidden session.files last.files := by
  induction items generalizing session paths with
  | nil =>
    obtain ⟨-, rfl⟩ := Action.ends_pure.mp h
    exact .refl _
  | cons item items ih =>
    obtain ⟨⟨hname, hhidden⟩, hlater⟩ := List.forall_mem_cons.mp hnames
    obtain ⟨files, rest, hwrite, hrest, -⟩ := ends_writeAll_cons.mp h
    exact (grown_writeFile hname hhidden hwrite).trans (ih hlater hrest)

/-- **Writing a corpus lets a file system grow** by its files and the directories above them. -/
lemma grown_of_ends_writeCorpus (h : (writeCorpus directory corpus).Ends session paths last) :
    Grown (· ∈ artifactNames) session.files last.files := by
  obtain ⟨files, hmake, hwrite⟩ := ends_writeCorpus.mp h
  have hmade : Grown (· ∈ artifactNames) session.files
      (session.files.makeDirectories directory).1 := grown_makeDirectories _ _
  rw [hmake] at hmade
  exact hmade.trans (grown_of_ends_writeAll (named_of_mem_namedContents corpus) hwrite)

/-- Files that hold what is written into them are written without a change. -/
lemma exists_ends_writeAll_self (hnames : ∀ item ∈ items, EntryName item.1)
    (hheld : ∀ item ∈ items,
      session.files.readFile (directory.join item.1) = .ok (Text.Utf8.encode item.2)) :
    ∃ paths, (writeAll directory items).Ends session paths session := by
  induction items with
  | nil => exact ⟨[], Action.ends_pure.mpr ⟨rfl, rfl⟩⟩
  | cons item items ih =>
    obtain ⟨hname, hnames⟩ := List.forall_mem_cons.mp hnames
    obtain ⟨hitem, hheld⟩ := List.forall_mem_cons.mp hheld
    obtain ⟨paths, hends⟩ := ih hnames hheld
    exact ⟨_, ends_writeAll_cons.mpr
      ⟨session.files, paths, writeFile_self hname hitem, hends, rfl⟩⟩

/-- **Writing a corpus again changes nothing.** -/
lemma ends_writeCorpus_again (h : (writeCorpus directory corpus).Ends session paths last)
    {later : Session} (hlater : later.files = last.files) :
    ∃ paths', (writeCorpus directory corpus).Ends later paths' later := by
  obtain ⟨files, hmake, hwrite⟩ := ends_writeCorpus.mp h
  have hdirectory : directory.text ≠ "" → later.files.isDirectory directory = true := by
    intro htext
    rw [hlater]
    exact (grown_of_ends_writeAll (named_of_mem_namedContents corpus) hwrite).isDirectory
      (isDirectory_of_makeDirectories htext hmake)
  have hheld := held_of_ends_writeCorpus h
  rw [← hlater] at hheld
  obtain ⟨paths', hends⟩ :=
    exists_ends_writeAll_self (entryName_of_mem_namedContents corpus) hheld
  exact ⟨paths', ends_writeCorpus.mpr ⟨later.files, makeDirectories_self hdirectory, hends⟩⟩

end Write

/-! ## Repeating a scan -/

/-- The paths of the files that a scan writes. -/
def ScanRequest.outputs (request : ScanRequest) (config : Config) : List Path :=
  artifactNames.map (request.directory config).join

/-- **No root of a scan is one of the files that the scan writes.** -/
def ScanRequest.SparesRoots (request : ScanRequest) (files : FileSystem) : Prop :=
  ∀ loaded, Config.load files ⟨"."⟩ = .ok loaded → ∀ output ∈ request.outputs loaded.config,
    ∀ root ∈ request.paths, output.destination files.here ≠ root.destination files.here

/-- **A scan writes the corpus of the files that it selects**, and nothing else. -/
structure ScanRequest.Stores (request : ScanRequest) (before after : FileSystem)
    (loaded : Config.Loaded) (corpus : Corpus) : Prop where
  loads : Config.load before ⟨"."⟩ = .ok loaded
  collects : request.corpus before loaded.config = .ok corpus
  writes : before.Writes after (Artifact.contents (request.directory loaded.config) corpus)
    (request.directory loaded.config).ancestors

/-- **A scan that is repeated** succeeds, writes the same files with the same contents, and leaves
the file system as the first scan has left it. -/
structure ScanRequest.Repeats (request : ScanRequest) (files : FileSystem) : Prop where
  succeeds : (run (.scan request) (run (.scan request) files).files).status = .success
  unchanged : (run (.scan request) (run (.scan request) files).files).files =
    (run (.scan request) files).files
  rewrites : ∃ loaded corpus, request.Stores files (run (.scan request) files).files loaded corpus ∧
    request.Stores (run (.scan request) files).files
      (run (.scan request) (run (.scan request) files).files).files loaded corpus

section Repeat

variable {request : ScanRequest} {before after : FileSystem} {loaded : Config.Loaded}
  {corpus : Corpus}

/-- Where a scan writes its files to. -/
lemma exists_name_of_mem_outputs {config : Config} {output : Path}
    (h : output ∈ request.outputs config) (here : Address) :
    ∃ name ∈ artifactNames, output.destination here =
      (request.directory config).destination here ++ [name] := by
  obtain ⟨name, hname, rfl⟩ := List.mem_map.mp h
  exact ⟨name, hname, Path.destination_join _ (entryName_of_mem_artifactNames hname) here⟩

/-- **No selected file is one that the scan writes.**

**Proof sketch.** A selected file is a root or has a name that is not left out everywhere. -/
lemma destination_ne_of_mem_selected (hload : Config.load before ⟨"."⟩ = .ok loaded)
    (hspares : request.SparesRoots before) {path : Path}
    (hpath : path ∈ request.selected before loaded.config) :
    ∀ output ∈ request.outputs loaded.config,
      output.destination before.here ≠ path.destination before.here := by
  intro output houtput hsame
  obtain ⟨root, hroot, place, names, content, hreach, hget, rfl, hkept⟩ :=
    Selection.exists_root_of_found_mem_visitRoots (Selection.found_mem_of_mem_select hpath)
  have hnames : ∀ name ∈ names, EntryName name := by
    have hfind : before.find root = .ok place.node := map_eq_ok_iff.mpr ⟨place, hreach, rfl⟩
    exact ((Selection.ordered_of_find hfind).of_get? hget).2
  rw [Path.destination_below root hnames] at hsame
  rcases List.eq_nil_or_concat names with rfl | ⟨front, last, rfl⟩
  · rw [List.append_nil] at hsame
    exact hspares loaded hload output houtput root hroot hsame
  · obtain ⟨name, hname, hdestination⟩ := exists_name_of_mem_outputs houtput before.here
    rw [hdestination, List.concat_eq_append, ← List.append_assoc] at hsame
    obtain ⟨-, hlast⟩ := List.append_inj' hsame rfl
    cases hlast
    exact hkept last (by simp) (anyCovers_of_mem_artifactNames _ hname)

/-- **The corpus of a scan that is repeated** is the same. -/
lemma corpus_again (hroots : ∀ root ∈ request.paths, before.contains root = true)
    (hspares : request.SparesRoots before) (hgrown : Grown (· ∈ artifactNames) before after)
    (h : request.Stores before after loaded corpus) :
    request.corpus after loaded.config = .ok corpus := by
  have hreach : ∀ root ∈ request.paths, ∃ place, before.reach root = .ok place :=
    fun root hroot => contains_iff_exists_reach.mp (hroots root hroot)
  have hselected : request.selected after loaded.config = request.selected before loaded.config :=
    Selection.files_select_grown hgrown (fun name => anyCovers_of_mem_artifactNames _) (by decide)
      hreach
  change aggregate after _ (request.selected after loaded.config) = .ok corpus
  rw [hselected]
  exact h.writes.changes.aggregate_eq
    (fun path hpath => destination_ne_of_mem_selected h.loads hspares hpath) h.collects

/-- The working directory stays one. -/
lemma hasWorkplace_of_grown {hidden : String → Prop} (hgrown : Grown hidden before after)
    (h : before.HasWorkplace) : after.HasWorkplace := by
  obtain ⟨place, entries, hplace, hnode⟩ := h
  obtain ⟨place', hplace', haddress⟩ :=
    @start_of_keeps before after _ hgrown.keeps hgrown.here ⟨""⟩ place hplace
  obtain ⟨node, hget, hdirectory, -⟩ :=
    hgrown.keeps _ _ (@within_of_start before ⟨""⟩ place hplace).get?_address
  rw [← haddress, (within_of_start hplace').get?_address, Option.some_inj] at hget
  subst hget
  rw [hnode] at hdirectory
  cases hnode' : place'.node with
  | directory entries' => exact ⟨place', entries', hplace', hnode'⟩
  | file content =>
    rw [hnode'] at hdirectory
    cases hdirectory

/-- An entry of a directory stays there. -/
lemma holds_of_grown {hidden : String → Prop} (hgrown : Grown hidden before after)
    {directory : Address} {name : String} (h : before.Holds directory name) :
    after.Holds directory name := by
  obtain ⟨node, hnode⟩ := Option.isSome_iff_exists.mp h
  obtain ⟨node', hnode', -⟩ := hgrown.keeps _ _ hnode
  exact Option.isSome_iff_exists.mpr ⟨node', hnode'⟩

/-- **The configuration stays the same**, unless there is one where none was before. -/
lemma load_again (hhere : before.HasWorkplace) (hgrown : Grown (· ∈ artifactNames) before after)
    (h : request.Stores before after loaded corpus)
    (hconfig : before.Holds before.here Config.fileName ∨
      ¬ after.Holds before.here Config.fileName) :
    Config.load after ⟨"."⟩ = .ok loaded := by
  have hhere' := hasWorkplace_of_grown hgrown hhere
  have hload := h.loads
  rw [Config.load] at hload ⊢
  rcases hconfig with hholds | hnone
  · have hholds' : after.Holds after.here Config.fileName :=
      hgrown.here ▸ holds_of_grown hgrown hholds
    rw [Config.findFile?_of_holds hhere hholds] at hload
    rw [Config.findFile?_of_holds hhere' hholds']
    obtain ⟨config, hread, hloaded⟩ := map_eq_ok_iff.mp hload
    refine map_eq_ok_iff.mpr ⟨config, h.writes.changes.read_eq ?_ hread, hloaded⟩
    -- the files that are written have other names
    intro output houtput hsame
    obtain ⟨name, hname, hdestination⟩ :=
      exists_name_of_mem_outputs (show output ∈ request.outputs loaded.config from houtput)
        before.here
    obtain ⟨-, hlast⟩ := List.append_inj' (hdestination.symm.trans hsame) rfl
    cases hlast
    exact absurd hname (by decide)
  · have hnone' : ¬ after.Holds after.here Config.fileName := hgrown.here ▸ hnone
    rw [Config.findFile?_of_not_holds hhere fun hholds => hnone (holds_of_grown hgrown hholds)]
      at hload
    rwa [Config.findFile?_of_not_holds hhere' hnone']

/-- **A directory in place of the configuration cannot be read.** -/
lemma load_of_made (hhere : before.HasWorkplace) (hgrown : Grown (· ∈ artifactNames) before after)
    (hbefore : ¬ before.Holds before.here Config.fileName)
    (hafter : after.Holds before.here Config.fileName) :
    ¬ Config.load after ⟨"."⟩ = .ok loaded := by
  intro hload
  have hholds : after.Holds after.here Config.fileName := hgrown.here ▸ hafter
  rw [Config.load, Config.findFile?_of_holds (hasWorkplace_of_grown hgrown hhere) hholds] at hload
  obtain ⟨config, hread, -⟩ := map_eq_ok_iff.mp hload
  obtain ⟨text, htext, -⟩ := bind_eq_ok_iff.mp hread
  obtain ⟨content, hcontent, -⟩ := bind_eq_ok_iff.mp (mapError_eq_ok_iff.mp htext)
  obtain ⟨address, hlocate, hview⟩ := readFile_eq_ok_iff_view.mp hcontent
  obtain rfl : address = before.here ++ [Config.fileName] := by
    rw [← destination_of_locate hlocate, hgrown.here]
    rfl
  have halters := hgrown.alters before.here Config.fileName
  have hstood : before.view (before.here ++ [Config.fileName]) = none := by
    rw [view, Node.view, Option.not_isSome_iff_eq_none.mp hbefore]
    rfl
  rw [hstood, hview] at halters
  cases halters with
  | written _ hname _ => exact absurd hname (by decide)

/-- What a scan that succeeds has done. -/
lemma exists_of_success (h : (run (.scan request) before).status = .success) :
    ∃ loaded corpus session paths last, Config.load before ⟨"."⟩ = .ok loaded ∧
      (request.amend loaded.config).validate = .ok () ∧
      request.corpus before loaded.config = .ok corpus ∧ corpus.errors = [] ∧
      session.files = before ∧
      (writeCorpus (request.directory loaded.config) corpus).Ends session paths last ∧
      (run (.scan request) before).files = last.files := by
  obtain ⟨result, last, hends, hproblems, hfiles⟩ := Action.exists_ends_of_success h
  obtain ⟨loaded, hload, hvalid, hselected⟩ := ends_scan.mp hends
  obtain ⟨corpus, hcorpus, ⟨hne, -, rfl⟩ | ⟨hnil, paths, hwrite, rfl⟩⟩ :=
    ends_scanSelected.mp hselected
  · exact absurd hproblems hne
  · exact ⟨loaded, corpus, _, paths, last, hload, hvalid, hcorpus, hnil, rfl, hwrite, hfiles⟩

/-- A scan whose corpus is there already succeeds and changes nothing. -/
lemma run_of_ends_writeCorpus (hload : Config.load before ⟨"."⟩ = .ok loaded)
    (hvalid : (request.amend loaded.config).validate = .ok ())
    (hcorpus : request.corpus before loaded.config = .ok corpus) (hnil : corpus.errors = [])
    (hwrite : ∀ session : Session, session.files = before →
      ∃ paths, (writeCorpus (request.directory loaded.config) corpus).Ends session paths session) :
    (run (.scan request) before).status = .success ∧
      (run (.scan request) before).files = before := by
  obtain ⟨paths, hends⟩ := hwrite { files := before, told := request.told before loaded } rfl
  have hscan := ends_scan.mpr ⟨loaded, hload, hvalid,
    ends_scanSelected.mpr ⟨corpus, hcorpus, .inr ⟨hnil, paths, hends, rfl⟩⟩⟩
  rw [run, Action.outcome_of_ends hscan]
  exact ⟨rfl, rfl⟩

end Repeat

/-- **When a scan can be repeated.** If a scan succeeds whose roots were there before, and none of
them is a file that it writes, then it can be repeated, unless it has made a directory that is taken
for the configuration from then on.

**Proof sketch.** Writing the corpus lets the file system grow by files with names that are left out
everywhere. So the same files are selected in it, with the same corpus, and all that is written is
there already. The configuration is the same if it was there before or is not there now. Otherwise
it is a directory, because no file of that name is written. -/
theorem repeats_iff {request : ScanRequest} {files : FileSystem} (hhere : files.HasWorkplace)
    (hroots : ∀ root ∈ request.paths, files.contains root = true)
    (hspares : request.SparesRoots files)
    (hsuccess : (run (.scan request) files).status = .success) :
    request.Repeats files ↔ files.Holds files.here Config.fileName ∨
      ¬ (run (.scan request) files).files.Holds files.here Config.fileName := by
  obtain ⟨loaded, corpus, session, paths, last, hload, hvalid, hcorpus, hnil, rfl, hwrite, hlast⟩ :=
    exists_of_success hsuccess
  rw [hlast]
  have hgrown := grown_of_ends_writeCorpus hwrite
  have hfirst : request.Stores session.files last.files loaded corpus :=
    ⟨hload, hcorpus, writes_of_ends_writeCorpus hwrite⟩
  constructor
  · intro hrepeats
    by_contra hmade
    rw [not_or, not_not] at hmade
    obtain ⟨loaded', _, -, hsecond⟩ := hrepeats.rewrites
    exact load_of_made hhere hgrown hmade.1 hmade.2 (hlast ▸ hsecond.loads)
  · intro hconfig
    have hload' := load_again hhere hgrown hfirst hconfig
    have hcorpus' := corpus_again hroots hspares hgrown hfirst
    have hwrite' := fun (later : Session) (hlater : later.files = last.files) =>
      ends_writeCorpus_again hwrite hlater
    obtain ⟨hstatus, hfiles⟩ := run_of_ends_writeCorpus hload' hvalid hcorpus' hnil hwrite'
    obtain ⟨_, hends⟩ := hwrite' last rfl
    have hsecond : request.Stores last.files last.files loaded corpus :=
      ⟨hload', hcorpus', writes_of_ends_writeCorpus hends⟩
    refine ⟨?_, ?_, loaded, corpus, ?_, ?_⟩
    · rw [hlast, hstatus]
    · rw [hlast, hfiles]
    · rw [hlast]
      exact hfirst
    · rw [hlast, hfiles]
      exact hsecond

/-! ### A file to scan -/

/-- A file to scan in the working directory. -/
def loneFiles : FileSystem where
  root := .directory [("test_a.py", .file (Text.Utf8.encode "# aerial:cross-cut Audit log"))]
  here := []

/-- A scan of the working directory into a directory. -/
def scanHere (output : Option Path) : ScanRequest :=
  ⟨[⟨"."⟩], output, [], false, false, false, false⟩

/-- The working directory is none of the files that are written. -/
lemma sparesRoots_scanHere (output : Option Path) : (scanHere output).SparesRoots loneFiles := by
  intro loaded _ written hwritten root hroot
  obtain ⟨name, -, hdestination⟩ := exists_name_of_mem_outputs hwritten loneFiles.here
  obtain rfl := List.mem_singleton.mp hroot
  have htop : (⟨"."⟩ : Path).destination loneFiles.here = [] := by decide
  rw [hdestination, htop]
  simp

/-- A scan into the usual directory, which is made below the working directory, can be repeated. -/
theorem repeats_iff_lone :
    loneFiles.HasWorkplace ∧
      (∀ root ∈ (scanHere none).paths, loneFiles.contains root = true) ∧
      (scanHere none).SparesRoots loneFiles ∧
      (run (.scan (scanHere none)) loneFiles).status = .success ∧
      (scanHere none).Repeats loneFiles := by
  have hhere : loneFiles.HasWorkplace := ⟨_, _, rfl, rfl⟩
  have hroots : ∀ root ∈ (scanHere none).paths, loneFiles.contains root = true := by
    decide +kernel
  obtain ⟨hsuccess, hnone⟩ : (run (.scan (scanHere none)) loneFiles).status = .success ∧
      ¬ (run (.scan (scanHere none)) loneFiles).files.Holds loneFiles.here Config.fileName := by
    decide +kernel
  exact ⟨hhere, hroots, sparesRoots_scanHere none, hsuccess,
    (repeats_iff hhere hroots (sparesRoots_scanHere none) hsuccess).mpr (.inr hnone)⟩

/-- A scan into a directory with the name of the configuration file, and what comes of it when it is
repeated. -/
lemma run_scanHere_configuration :
    (run (.scan (scanHere (some ⟨Config.fileName⟩))) loneFiles).status = .success ∧
      (run (.scan (scanHere (some ⟨Config.fileName⟩)))
        (run (.scan (scanHere (some ⟨Config.fileName⟩))) loneFiles).files).status = .error ∧
      (run (.scan (scanHere (some ⟨Config.fileName⟩)))
        (run (.scan (scanHere (some ⟨Config.fileName⟩))) loneFiles).files).failure =
          some (.configuration (.unreadable Config.herePath .isDirectory)) := by decide +kernel

/-- **A scan into a directory with the name of the configuration file cannot be repeated**: it
succeeds, and then it cannot read the configuration any more. -/
theorem not_repeats_configuration :
    (∀ root ∈ (scanHere (some ⟨Config.fileName⟩)).paths, loneFiles.contains root = true) ∧
      (scanHere (some ⟨Config.fileName⟩)).SparesRoots loneFiles ∧
      (run (.scan (scanHere (some ⟨Config.fileName⟩))) loneFiles).status = .success ∧
      (run (.scan (scanHere (some ⟨Config.fileName⟩)))
        (run (.scan (scanHere (some ⟨Config.fileName⟩))) loneFiles).files).failure =
          some (.configuration (.unreadable Config.herePath .isDirectory)) ∧
      ¬ (scanHere (some ⟨Config.fileName⟩)).Repeats loneFiles := by
  obtain ⟨hsuccess, hstatus, hfailure⟩ := run_scanHere_configuration
  refine ⟨by decide +kernel, sparesRoots_scanHere _, hsuccess, hfailure, fun hrepeats => ?_⟩
  cases hstatus.symm.trans hrepeats.succeeds

end Command

end LivingDocs
