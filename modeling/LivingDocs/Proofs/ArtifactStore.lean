import LivingDocs.Proofs.ArtifactText
import LivingDocs.Proofs.Changes
import LivingDocs.Proofs.Session

/-!
# Artifacts are read back from disk

The files of a corpus have different names, so writing one of them does not touch the others, and
once all are written each of them holds what was written into it. Since every artifact is read back
from its text, the entities of a corpus are read back from the directory that it was written into.

## Main definitions

* `LivingDocs.Command.namedContents`, `LivingDocs.Command.artifactNames` — the names and contents of
  the files of a corpus.
* `LivingDocs.Command.writeAll` — writes files of a directory one after the other.

## Main results

* `LivingDocs.Command.readFile_of_ends_writeAll_self` — files that were written hold what was
  written.
* `LivingDocs.Command.writes_of_ends_writeCorpus` — what writing a corpus changes.
* `LivingDocs.Command.ends_readSources` — the entities of a corpus are read from disk.
* `LivingDocs.Command.artifacts_read_back` — all artifacts are read back.
-/

set_option autoImplicit false

namespace LivingDocs.Command

open FileSystem Collation

/-! ## Files of one directory -/

/-- Writes files of a directory one after the other; their paths in order. -/
def writeAll (directory : Path) (items : List (String × String)) : Action (List Path) :=
  (items.map fun item => (directory.join item.1, item.2)).mapM fun (path, text) => do
    Action.writeText (Failure.unwritable path) path text
    return path

section WriteAll

variable {directory : Path} {items : List (String × String)} {session last : Session}
  {paths : List Path}

/-- One file is written, and after it the others. -/
lemma ends_writeAll_cons {name text : String} :
    (writeAll directory ((name, text) :: items)).Ends session paths last ↔
      ∃ files rest, session.files.writeFile (directory.join name) (Text.Utf8.encode text) =
          .ok files ∧ (writeAll directory items).Ends { session with files } rest last ∧
        paths = directory.join name :: rest := by
  simp only [writeAll, List.map_cons, List.mapM_cons, Action.ends_bind, Action.ends_writeText,
    Action.ends_pure]
  constructor
  · rintro ⟨path, middle, ⟨_, _, ⟨files, hwrite, rfl⟩, rfl, rfl⟩, rest, later, hrest, rfl, rfl⟩
    exact ⟨files, rest, hwrite, hrest, rfl⟩
  · rintro ⟨files, rest, hwrite, hrest, rfl⟩
    exact ⟨_, _, ⟨(), _, ⟨files, hwrite, rfl⟩, rfl, rfl⟩, rest, last, hrest, rfl, rfl⟩

/-- A file of another name holds what it did before. -/
lemma readFile_of_ends_writeAll (hnames : ∀ item ∈ items, EntryName item.1)
    (h : (writeAll directory items).Ends session paths last) {name : String}
    (hname : EntryName name) (hnew : name ∉ items.map Prod.fst) {content : ByteArray}
    (hread : session.files.readFile (directory.join name) = .ok content) :
    last.files.readFile (directory.join name) = .ok content := by
  induction items generalizing session paths with
  | nil =>
    obtain ⟨-, rfl⟩ := Action.ends_pure.mp h
    exact hread
  | cons item items ih =>
    obtain ⟨files, rest, hwrite, hrest, -⟩ := ends_writeAll_cons.mp h
    rw [List.map_cons, List.mem_cons, not_or] at hnew
    refine ih (fun i hi => hnames i (List.mem_cons_of_mem item hi)) hrest hnew.2 ?_
    exact readFile_of_writeFile_other (hnames item List.mem_cons_self) hname hnew.1 hwrite hread

/-- **Files that were written hold what was written into them.**

**Proof sketch.** Induction on the files. The first one is read back right after it was written, and
the others, which have other names, do not touch it. -/
lemma readFile_of_ends_writeAll_self (hnames : ∀ item ∈ items, EntryName item.1)
    (hnodup : (items.map Prod.fst).Nodup)
    (h : (writeAll directory items).Ends session paths last) :
    ∀ item ∈ items,
      last.files.readFile (directory.join item.1) = .ok (Text.Utf8.encode item.2) := by
  induction items generalizing session paths with
  | nil => exact List.forall_mem_nil _
  | cons item items ih =>
    obtain ⟨files, rest, hwrite, hrest, -⟩ := ends_writeAll_cons.mp h
    rw [List.map_cons, List.nodup_cons] at hnodup
    have hlater := fun i hi => hnames i (List.mem_cons_of_mem item hi)
    have hitem := readFile_of_ends_writeAll hlater hrest (hnames item List.mem_cons_self) hnodup.1
      (readFile_of_writeFile hwrite)
    exact List.forall_mem_cons.mpr ⟨hitem, ih hlater hnodup.2 hrest⟩

/-- Files of a directory that are written change nothing but what stands at their paths. -/
lemma changesOnly_of_ends_writeAll (h : (writeAll directory items).Ends session paths last) :
    session.files.ChangesOnly last.files (items.map fun item => directory.join item.1) [] := by
  induction items generalizing session paths with
  | nil =>
    obtain ⟨-, rfl⟩ := Action.ends_pure.mp h
    exact ChangesOnly.refl _
  | cons item items ih =>
    obtain ⟨files, rest, hwrite, hrest, -⟩ := ends_writeAll_cons.mp h
    exact (changesOnly_writeFile hwrite).trans (ih hrest)

/-- Files of a directory with different names are written, and nothing else changes. -/
lemma writes_of_ends_writeAll (hnames : ∀ item ∈ items, EntryName item.1)
    (hnodup : (items.map Prod.fst).Nodup)
    (h : (writeAll directory items).Ends session paths last) :
    session.files.Writes last.files (items.map fun item => (directory.join item.1, item.2)) [] := by
  refine ⟨List.forall_mem_map.mpr (readFile_of_ends_writeAll_self hnames hnodup h), ?_⟩
  rw [List.map_map]
  exact changesOnly_of_ends_writeAll h

end WriteAll

/-! ## The files of a corpus -/

/-- The names and contents of the files of a corpus. -/
def namedContents (corpus : Corpus) : List (String × String) :=
  [(Artifact.componentsFile, Artifact.encode Component.toJson corpus.components.toList),
    (Artifact.variablesFile, Artifact.encode Variable.toJson corpus.vars.toList),
    (Artifact.crosscutsFile, Artifact.encode Crosscut.toJson corpus.crosscuts.toList),
    (Artifact.journeysFile, Artifact.encode Journey.toJson corpus.journeys.toList),
    (Artifact.examplesFile, Artifact.encode Example.toJson corpus.examples.toList)]

/-- The files of a corpus have names that entries can have. -/
lemma entryName_of_mem_namedContents (corpus : Corpus) :
    ∀ item ∈ namedContents corpus, EntryName item.1 := by
  simp only [namedContents, List.forall_mem_cons]
  exact ⟨by decide, by decide, by decide, by decide, by decide, List.forall_mem_nil _⟩

/-- The files of a corpus have different names. -/
lemma nodup_namedContents (corpus : Corpus) : ((namedContents corpus).map Prod.fst).Nodup := by
  simp only [namedContents, List.map_cons, List.map_nil]
  decide

/-- The names of the files of a corpus. -/
def artifactNames : List String :=
  [Artifact.componentsFile, Artifact.variablesFile, Artifact.crosscutsFile, Artifact.journeysFile,
    Artifact.examplesFile]

lemma entryName_of_mem_artifactNames {name : String} (h : name ∈ artifactNames) :
    EntryName name := by
  obtain ⟨item, hitem, rfl⟩ := List.mem_map.mp (show name ∈ (namedContents ∅).map Prod.fst from h)
  exact entryName_of_mem_namedContents ∅ item hitem

/-- The files of a corpus have names that entries can have, and these are the names of artifacts. -/
lemma named_of_mem_namedContents (corpus : Corpus) :
    ∀ item ∈ namedContents corpus, EntryName item.1 ∧ item.1 ∈ artifactNames := by
  intro item hitem
  have hname : item.1 ∈ artifactNames := List.mem_map.mpr ⟨item, hitem, rfl⟩
  exact ⟨entryName_of_mem_artifactNames hname, hname⟩

section Corpus

variable {directory : Path} {corpus : Corpus} {session last : Session} {paths : List Path}

/-- A corpus is written once its directory has been made. -/
lemma ends_writeCorpus : (writeCorpus directory corpus).Ends session paths last ↔
    ∃ files, session.files.makeDirectories directory = (files, .ok ()) ∧
      (writeAll directory (namedContents corpus)).Ends { session with files } paths last := by
  have hcontents : Artifact.contents directory corpus =
      (namedContents corpus).map fun item => (directory.join item.1, item.2) := rfl
  rw [writeCorpus, hcontents]
  simp only [Action.ends_bind, Action.ends_makeDirectories]
  constructor
  · rintro ⟨_, _, ⟨files, hmake, rfl⟩, hwrite⟩
    exact ⟨files, hmake, hwrite⟩
  · rintro ⟨files, hmake, hwrite⟩
    exact ⟨(), _, ⟨files, hmake, rfl⟩, hwrite⟩

/-- **Writing a corpus** changes nothing but its five files and the directories above them. -/
lemma writes_of_ends_writeCorpus (h : (writeCorpus directory corpus).Ends session paths last) :
    session.files.Writes last.files (Artifact.contents directory corpus) directory.ancestors := by
  obtain ⟨files, hmake, hwrite⟩ := ends_writeCorpus.mp h
  exact Writes.of_makeDirectories hmake (writes_of_ends_writeAll
    (entryName_of_mem_namedContents corpus) (nodup_namedContents corpus) hwrite)

/-- **A corpus that was written stands in its files.** -/
lemma held_of_ends_writeCorpus (h : (writeCorpus directory corpus).Ends session paths last) :
    ∀ item ∈ namedContents corpus,
      last.files.readFile (directory.join item.1) = .ok (Text.Utf8.encode item.2) := by
  obtain ⟨files, -, hwrite⟩ := ends_writeCorpus.mp h
  exact readFile_of_ends_writeAll_self (entryName_of_mem_namedContents corpus)
    (nodup_namedContents corpus) hwrite

/-- **The entities of a corpus are read from a directory whose files hold them.** -/
lemma ends_readSources (hnumbered : (Sources.ofCorpus corpus).Numbered)
    (hheld : ∀ item ∈ namedContents corpus,
      session.files.readFile (directory.join item.1) = .ok (Text.Utf8.encode item.2)) :
    (readSources directory).Ends session (Sources.ofCorpus corpus) session := by
  have hread : ∀ item ∈ namedContents corpus,
      session.files.readText (directory.join item.1) = .ok item.2 := fun item hitem =>
    readText_of_readFile (hheld item hitem)
  simp only [namedContents, List.forall_mem_cons] at hread
  obtain ⟨hcomponents, hvars, hcrosscuts, hjourneys, hexamples, -⟩ := hread
  have hdecode := hnumbered.readsBack
  simp only [readSources, Action.ends_bind, ends_readEntities, Action.ends_pure]
  exact ⟨_, session, ⟨_, hcomponents, hdecode.components, rfl⟩,
    _, session, ⟨_, hvars, hdecode.vars, rfl⟩, _, session, ⟨_, hcrosscuts, hdecode.crosscuts, rfl⟩,
    _, session, ⟨_, hjourneys, hdecode.journeys, rfl⟩,
    _, session, ⟨_, hexamples, hdecode.examples, rfl⟩, rfl, rfl⟩

/-- **All artifacts are read back.** Every five lists of entities and every report whose lines can
be kept on file are read back from the contents of their files, and every configuration from its
text with or without a line feed behind it. In particular, once a corpus has been written into a
directory, reading that directory ends with the entities of the corpus in ascending order. -/
theorem artifacts_read_back {sources : Sources} {report : Report} (config : Config)
    (hsources : sources.Numbered) (hreport : report.Numbered)
    (hcorpus : (Sources.ofCorpus corpus).Numbered)
    (hwrite : (writeCorpus directory corpus).Ends session paths last) :
    Artifact.ReadsBack sources ∧ Report.decode? report.encode = some report ∧
      Config.parse? config.toJson.pretty = some config ∧
      Config.parse? (Artifact.content config.toJson) = some config ∧
      (readSources directory).Ends last (Sources.ofCorpus corpus) last := by
  obtain ⟨hpretty, hcontent⟩ := config.parse?_toJson
  exact ⟨hsources.readsBack, hreport.decode?_encode, hpretty, hcontent,
    ends_readSources hcorpus (held_of_ends_writeCorpus hwrite)⟩

end Corpus

/-! ### Texts that need escapes -/

/-- A text with a quote, a backslash, control characters and letters beyond ASCII. -/
def oddText : String := "Say \"no\" to C:\\\n\t\x01 — né ✈"

/-- A corpus with odd texts, in which one entity has no file and one the greatest line. -/
def oddCorpus : Corpus :=
  { (∅ : Corpus) with
    crosscuts := OrderedSet.ofList [⟨oddText, ⟨none, Location.maxLine⟩⟩]
    examples := OrderedSet.ofList [⟨"", oddText, OrderedSet.ofList [oddText, ""], ∅, .howTo,
      ⟨some oddText, 0⟩⟩] }

/-- A report with odd texts in each place where it can name a text. -/
def oddReport : Report where
  app := oddText
  components := [⟨oddText, "", [oddText], [], ⟨oddText, 1⟩⟩]
  examples := [⟨.feature oddText "", oddText, OrderedMap.ofList [(oddText, ""), ("", oddText)], [],
    .todo, [⟨oddText, Location.maxLine⟩]⟩]
  crosscuts := [⟨oddText, ⟨"", 0⟩⟩]
  journeys := [⟨oddText, oddText, ⟨oddText, 2⟩⟩]
  vars := [⟨"", [oddText], ⟨oddText, 3⟩⟩]

/-- A session in a file system that holds nothing. -/
def emptySession : Session := { files := { root := .directory [], here := [] } }

/-- A configuration with an odd name. -/
def oddConfig : Config := { app := some oddText, exclude := ["", oddText], outputDir := "" }

/-- The corpus, the report and the configuration with odd texts are read back, the corpus also from
a directory that is made for it. -/
theorem artifacts_read_back_odd : ∃ paths last,
    (writeCorpus ⟨"out/docs"⟩ oddCorpus).Ends emptySession paths last ∧
      Artifact.ReadsBack (Sources.ofCorpus oddCorpus) ∧
      Report.decode? oddReport.encode = some oddReport ∧
      Config.parse? oddConfig.toJson.pretty = some oddConfig ∧
      Config.parse? (Artifact.content oddConfig.toJson) = some oddConfig ∧
      (readSources ⟨"out/docs"⟩).Ends last (Sources.ofCorpus oddCorpus) last := by
  have hcorpus : (Sources.ofCorpus oddCorpus).Numbered :=
    ⟨by decide, by decide, by decide, by decide, by decide⟩
  have hreport : oddReport.Numbered :=
    ⟨by decide, by decide, by decide, by decide, by decide⟩
  have hok : ((writeCorpus ⟨"out/docs"⟩ oddCorpus).result emptySession).1.isOk = true := by
    decide +kernel
  obtain ⟨paths, last, hwrite⟩ := Action.exists_ends_of_isOk hok
  exact ⟨paths, last, hwrite, artifacts_read_back _ hcorpus hreport hcorpus hwrite⟩

end LivingDocs.Command
