import LivingDocs.Proofs.WritePolicy

/-!
# What is left behind when a command breaks off

A command that breaks off keeps what it has changed before. Reading changes nothing, and before its
first file is written a command has at most made directories. But a scan writes its files one after
the other: if one of them cannot be written, those before it stay written, beside older versions of
those after it. So no file has been touched exactly if all files that were written before the
failure already held what was written into them.

## Main definitions

* `LivingDocs.FileSystem.SameFiles` — the same files stand in two file systems.
* `LivingDocs.Command.Action.Breaks` — an action breaks off and leaves a session behind.
* `LivingDocs.Command.Request.WroteBefore` — what a command had written when it broke off.

## Main results

* `LivingDocs.FileSystem.Writes.sameFiles_iff` — when no file has been touched.
* `LivingDocs.Command.Action.breaks_bind` — when an action of two parts breaks off.
* `LivingDocs.Command.exists_of_breaks_writeAll` — files are written up to the first that cannot be.
* `LivingDocs.Command.sameFiles_iff_held_before` — what a command leaves behind that breaks off.
* `LivingDocs.Command.not_sameFiles_blocked` — a scan that leaves some of its files behind.
-/

set_option autoImplicit false

namespace LivingDocs

/-! ## Files that are touched -/

namespace FileSystem

/-- **The same files stand in two file systems**, with the same contents; directories are left out
of account. -/
def SameFiles (before after : FileSystem) : Prop :=
  ∀ address content, after.view address = some (some content) ↔
    before.view address = some (some content)

/-- **When no file has been touched**: each file that was written held before what was written into
it. -/
lemma Writes.sameFiles_iff {before after : FileSystem} {outputs : List (Path × String)}
    {made : List Path} (h : before.Writes after outputs made) :
    before.SameFiles after ↔ ∀ output ∈ outputs, ∃ address,
      after.locate output.1 = .ok address ∧
        before.view address = some (some (Text.Utf8.encode output.2)) := by
  constructor
  · intro hsame output houtput
    obtain ⟨address, hlocate, hview⟩ := readFile_eq_ok_iff_view.mp (h.holds output houtput)
    exact ⟨address, hlocate, (hsame address _).mp hview⟩
  · intro hheld address content
    by_cases hne : after.view address = before.view address
    · rw [hne]
    · rcases h.changes.differs address hne with ⟨path, hpath, hlocate⟩ | ⟨-, hnone, hmade⟩
      · -- an output stands there, and it stood there before
        obtain ⟨output, houtput, rfl⟩ := List.mem_map.mp hpath
        obtain ⟨address', hlocate', hview⟩ := readFile_eq_ok_iff_view.mp (h.holds output houtput)
        obtain ⟨address'', hlocate'', hbefore⟩ := hheld output houtput
        cases hlocate.symm.trans hlocate'
        cases hlocate.symm.trans hlocate''
        exact absurd (hview.trans hbefore.symm) hne
      · simp [hnone, hmade]

/-- A file system in which at most directories have been made. -/
lemma ChangesOnly.writes_nil {before after : FileSystem} {made : List Path}
    (h : before.ChangesOnly after [] made) : before.Writes after [] made :=
  ⟨List.forall_mem_nil _, h⟩

/-- A file system in which nothing has changed. -/
lemma Writes.refl (files : FileSystem) (made : List Path) : files.Writes files [] made :=
  ((ChangesOnly.refl files).mono (List.nil_subset _) (List.nil_subset made)).writes_nil

end FileSystem

namespace Command

open FileSystem Collation

/-! ## Actions that break off -/

namespace Action

variable {α β ε : Type} {session last : Session} {failure : Failure}

/-- **An action breaks off** with a failure and leaves a session behind. -/
def Breaks (action : Action α) (session : Session) (failure : Failure) (last : Session) : Prop :=
  action.result session = (.error failure, last)

@[simp] lemma not_breaks_pure {a : α} : ¬ (pure a : Action α).Breaks session failure last := by
  intro h
  cases h

@[simp] lemma breaks_throw {other : Failure} :
    (throw other : Action α).Breaks session failure last ↔ failure = other ∧ last = session := by
  constructor
  · intro h
    cases h
    exact ⟨rfl, rfl⟩
  · rintro ⟨rfl, rfl⟩
    rfl

/-- **An action of two parts breaks off** if the first one does, or if that ends and after it the
second one breaks off. -/
@[simp] lemma breaks_bind {first : Action α} {second : α → Action β} :
    (first >>= second).Breaks session failure last ↔ first.Breaks session failure last ∨
      ∃ a middle, first.Ends session a middle ∧ (second a).Breaks middle failure last := by
  rw [Breaks, result_bind]
  rcases h : first.result session with ⟨other | a, middle⟩
  · simp [Breaks, Ends, h]
  · simp [Breaks, Ends, h]

@[simp] lemma breaks_ofExcept {blame : ε → Failure} {r : Except ε α} :
    (ofExcept blame r).Breaks session failure last ↔
      ∃ e, r = .error e ∧ failure = blame e ∧ last = session := by
  cases r with
  | ok a => simp [ofExcept]
  | error e => simp [ofExcept]

@[simp] lemma not_breaks_modify {f : Session → Session} :
    ¬ (modify f : Action Unit).Breaks session failure last := by
  intro h
  cases h

@[simp] lemma not_breaks_files : ¬ Action.files.Breaks session failure last := by
  intro h
  cases h

@[simp] lemma not_breaks_tell {text : String} : ¬ (tell text).Breaks session failure last :=
  not_breaks_modify

@[simp] lemma not_breaks_warn {warnings : List Collation.Warning} :
    ¬ (warn warnings).Breaks session failure last :=
  not_breaks_modify

@[simp] lemma breaks_readFile {path : Path} : (readFile path).Breaks session failure last ↔
    ∃ fault, session.files.readFile path = .error fault ∧ failure = .unreadable path fault ∧
      last = session := by
  simp [readFile]

@[simp] lemma breaks_readText {path : Path} : (readText path).Breaks session failure last ↔
    ∃ fault, session.files.readText path = .error fault ∧ failure = .unreadable path fault ∧
      last = session := by
  simp [readText]

@[simp] lemma breaks_writeText {blame : FileSystem.Fault → Failure} {path : Path} {text : String} :
    (writeText blame path text).Breaks session failure last ↔
      ∃ fault, session.files.writeFile path (Text.Utf8.encode text) = .error fault ∧
        failure = blame fault ∧ last = session := by
  simp [writeText, replaceFiles]

@[simp] lemma breaks_makeDirectories {path : Path} :
    (makeDirectories path).Breaks session failure last ↔
      ∃ files fault, session.files.makeDirectories path = (files, .error fault) ∧
        failure = .noDirectory path fault ∧ last = { session with files } := by
  rcases h : session.files.makeDirectories path with ⟨files, result⟩
  simp [makeDirectories, replaceFiles, h]

/-- What comes of a command that breaks off. -/
lemma exists_breaks_of_failure {action : Action Result} {files : FileSystem} {verbose : Bool}
    (h : (action.outcome verbose files).failure = some failure) :
    ∃ last, action.Breaks { files } failure last ∧
      (action.outcome verbose files).status = .error ∧
      (action.outcome verbose files).files = last.files := by
  rcases hresult : action.result { files } with ⟨other | result, last⟩
  · have hrun : action.run.run { files } = (.error other, last) := hresult
    rw [outcome, hrun] at h ⊢
    cases h
    exact ⟨last, hresult, rfl, rfl⟩
  · rw [outcome_of_ends hresult] at h
    cases h

end Action

/-! ## Reading -/

section Reading

variable {session last : Session} {failure : Failure}

/-- A configuration that cannot be loaded changes nothing. -/
lemma eq_of_breaks_projectConfig {verbose : Bool}
    (h : (projectConfig verbose).Breaks session failure last) :
    last = session ∧ ∃ fault, failure = .configuration fault := by
  simp only [projectConfig, Action.breaks_bind, Action.not_breaks_files, Action.ends_files,
    Action.breaks_ofExcept, false_or] at h
  obtain ⟨_, _, ⟨rfl, rfl⟩, ⟨fault, -, rfl, rfl⟩ | ⟨loaded, _, -, h⟩⟩ := h
  · exact ⟨rfl, fault, rfl⟩
  · split at h
    · simp only [Action.breaks_bind, Action.not_breaks_tell, Action.not_breaks_pure, and_false,
        exists_false, or_false] at h
    · exact absurd h Action.not_breaks_pure

/-- Files that cannot be read change nothing. -/
lemma eq_of_breaks_scanFiles {grammar : Block.Grammar} {paths : List Path}
    (h : (scanFiles grammar paths).Breaks session failure last) :
    last = session ∧ ∃ path fault, failure = .unreadable path fault := by
  rw [scanFiles] at h
  generalize (∅ : Corpus) = start at h
  induction paths generalizing start with
  | nil => simp at h
  | cons path paths ih =>
    simp only [List.foldlM_cons, Action.breaks_bind, Action.ends_bind, ends_scanFile,
      Action.ends_pure, Action.not_breaks_pure, and_false, exists_false, or_false] at h
    rcases h with h | ⟨_, _, ⟨corpus, _, ⟨-, rfl⟩, rfl, rfl⟩, h⟩
    · simp only [scanFile, Action.breaks_bind, Action.breaks_readFile, Action.not_breaks_files,
        Action.not_breaks_pure, and_false, exists_false, or_false] at h
      obtain ⟨fault, -, rfl, rfl⟩ := h
      exact ⟨rfl, path, fault, rfl⟩
    · exact ih _ h

/-- Entities that cannot be read change nothing. -/
lemma eq_of_breaks_readEntities {α : Type} {ofJson? : Json → Option α} {path : Path}
    (h : (readEntities ofJson? path).Breaks session failure last) : last = session := by
  simp only [readEntities, Action.breaks_bind, Action.breaks_readText, Action.ends_readText] at h
  obtain ⟨fault, -, -, rfl⟩ | ⟨text, _, ⟨-, rfl⟩, h⟩ := h
  · rfl
  · split at h
    · exact absurd h Action.not_breaks_pure
    · exact (Action.breaks_throw.mp h).2

/-- A directory whose entities cannot be read is left as it is. -/
lemma eq_of_breaks_readSources {directory : Path}
    (h : (readSources directory).Breaks session failure last) : last = session := by
  simp only [readSources, Action.breaks_bind, ends_readEntities, Action.not_breaks_pure, and_false,
    exists_false, or_false] at h
  obtain h | ⟨_, _, ⟨_, -, -, rfl⟩, h | ⟨_, _, ⟨_, -, -, rfl⟩, h | ⟨_, _, ⟨_, -, -, rfl⟩, h |
    ⟨_, _, ⟨_, -, -, rfl⟩, h⟩⟩⟩⟩ := h
  all_goals exact eq_of_breaks_readEntities h

end Reading

/-! ## Writing -/

section Writing

variable {session last : Session} {failure : Failure}

/-- **Files are written up to the first that cannot be written.** -/
lemma exists_of_breaks_writeAll {directory : Path} {items : List (String × String)}
    (h : (writeAll directory items).Breaks session failure last) :
    ∃ front name text back paths fault, items = front ++ (name, text) :: back ∧
      failure = .unwritable (directory.join name) fault ∧
      (writeAll directory front).Ends session paths last := by
  induction items generalizing session with
  | nil => exact absurd h Action.not_breaks_pure
  | cons item items ih =>
    obtain ⟨name, text⟩ := item
    simp only [writeAll, List.map_cons, List.mapM_cons, Action.breaks_bind, Action.breaks_writeText,
      Action.not_breaks_pure, Action.ends_bind, Action.ends_writeText, Action.ends_pure, and_false,
      exists_false, or_false] at h
    obtain ⟨fault, -, rfl, rfl⟩ | ⟨_, _, ⟨_, _, ⟨files, hwrite, rfl⟩, rfl, rfl⟩, h⟩ := h
    · exact ⟨[], name, text, items, [], fault, rfl, rfl, Action.ends_pure.mpr ⟨rfl, rfl⟩⟩
    · obtain ⟨front, other, text', back, paths, fault, rfl, hfailure, hends⟩ := ih h
      exact ⟨(name, text) :: front, other, text', back, directory.join name :: paths, fault, rfl,
        hfailure, ends_writeAll_cons.mpr ⟨files, paths, hwrite, hends, rfl⟩⟩

/-- **A corpus is written up to the first file that cannot be written**, and not at all if its
directory cannot be made. -/
lemma exists_of_breaks_writeCorpus {directory : Path} {corpus : Corpus}
    (h : (writeCorpus directory corpus).Breaks session failure last) :
    (∃ fault, failure = .noDirectory directory fault ∧
      session.files.Writes last.files [] directory.ancestors) ∨
    ∃ written path text rest fault, failure = .unwritable path fault ∧
      Artifact.contents directory corpus = written ++ (path, text) :: rest ∧
      session.files.Writes last.files written directory.ancestors := by
  have hcontents : Artifact.contents directory corpus =
      (namedContents corpus).map fun item => (directory.join item.1, item.2) := rfl
  rw [writeCorpus, hcontents, Action.breaks_bind] at h
  simp only [Action.breaks_makeDirectories, Action.ends_makeDirectories] at h
  obtain ⟨files, fault, hmake, rfl, rfl⟩ | ⟨_, _, ⟨files, hmake, rfl⟩, h⟩ := h
  · have hmade := changesOnly_makeDirectories session.files directory
    rw [hmake] at hmade
    exact .inl ⟨fault, rfl, hmade.writes_nil⟩
  · obtain ⟨front, name, text, back, paths, fault, hitems, rfl, hends⟩ :=
      exists_of_breaks_writeAll h
    have hnames := entryName_of_mem_namedContents corpus
    have hnodup := nodup_namedContents corpus
    rw [hitems] at hnames hnodup
    rw [List.map_append, List.nodup_append] at hnodup
    refine .inr ⟨front.map fun item => (directory.join item.1, item.2), directory.join name, text,
      back.map fun item => (directory.join item.1, item.2), fault, rfl, ?_,
      .of_makeDirectories hmake (writes_of_ends_writeAll
        (fun item hitem => hnames item (List.mem_append_left _ hitem)) hnodup.1 hends)⟩
    rw [hcontents, hitems, List.map_append, List.map_cons]

/-- A report that cannot be written leaves at most the directories above it. -/
lemma files_of_breaks_writeReport {path : Path} {report : Report}
    (h : (writeReport path report).Breaks session failure last) :
    last.files = (session.files.makeParents path).1 := by
  rw [writeReport] at h
  rw [makeParents]
  cases hparent : path.parent? with
  | none =>
    simp only [hparent, Action.breaks_writeText] at h
    obtain ⟨fault, -, -, rfl⟩ := h
    rfl
  | some directory =>
    by_cases hempty : directory.text = ""
    · simp only [hparent, hempty, if_true, Action.breaks_writeText] at h
      obtain ⟨fault, -, -, rfl⟩ := h
      simp [hempty]
    · simp only [hparent, hempty, if_false, Action.breaks_bind, Action.breaks_makeDirectories,
        Action.ends_makeDirectories, Action.breaks_writeText] at h
      obtain ⟨files, fault, hmake, -, rfl⟩ | ⟨_, _, ⟨files, hmake, rfl⟩, fault, -, -, rfl⟩ := h
      · simp [hempty, hmake]
      · simp [hempty, hmake]

end Writing

/-! ## Commands that break off -/

/-- The directories that a command makes where they are missing: those above its outputs. -/
def Request.made (files : FileSystem) : Request → List Path
  | .scan request => (Config.load files ⟨"."⟩).toOption.toList.flatMap fun loaded =>
      (request.directory loaded.config).ancestors
  | .report request => (Config.load files ⟨"."⟩).toOption.toList.flatMap fun loaded =>
      (request.target loaded.config).parent?.toList.flatMap Path.ancestors
  | .init | .overview => []

/-- **What a command had written when it broke off.** A scan that could not write one of its files
had written those before it. All other failures come before the first file is written. -/
def Request.WroteBefore (files : FileSystem) (failure : Failure)
    (written : List (Path × String)) : Request → Prop
  | .scan request =>
      (∃ loaded corpus path text rest fault, failure = .unwritable path fault ∧
        Config.load files ⟨"."⟩ = .ok loaded ∧ request.corpus files loaded.config = .ok corpus ∧
        corpus.errors = [] ∧
        Artifact.contents (request.directory loaded.config) corpus =
          written ++ (path, text) :: rest) ∨
      (∀ path fault, failure ≠ .unwritable path fault) ∧ written = []
  | .report _ | .init | .overview => written = []

/-- What a scan leaves of the files that it has selected. -/
lemma cases_of_breaks_scanSelected {config : Config} {output : Path} {selection : Selection}
    {session last : Session} {failure : Failure}
    (h : (scanSelected config output selection).Breaks session failure last) :
    (∃ corpus written path text rest fault, failure = .unwritable path fault ∧
      aggregate session.files (Block.Grammar.standard config.keywordPrefix)
        selection.files = .ok corpus ∧ corpus.errors = [] ∧
      Artifact.contents output corpus = written ++ (path, text) :: rest ∧
      session.files.Writes last.files written output.ancestors) ∨
    (∀ path fault, failure ≠ .unwritable path fault) ∧
      session.files.Writes last.files [] output.ancestors := by
  rw [scanSelected, Action.breaks_bind] at h
  obtain h | ⟨corpus, _, hcorpus, h⟩ := h
  · obtain ⟨rfl, path, fault, rfl⟩ := eq_of_breaks_scanFiles h
    exact .inr ⟨by simp, .refl _ _⟩
  · obtain ⟨hcorpus, rfl⟩ := ends_scanFiles.mp hcorpus
    split at h
    · exact absurd h Action.not_breaks_pure
    · next hhas =>
      simp only [Action.breaks_bind, Action.not_breaks_pure, and_false, exists_false,
        or_false] at h
      obtain ⟨fault, rfl, hwrites⟩ | ⟨written, path, text, rest, fault, rfl, hcontents, hwrites⟩ :=
        exists_of_breaks_writeCorpus h
      · exact .inr ⟨by simp, hwrites⟩
      · have hnil : corpus.errors = [] := by simpa [Corpus.hasErrors] using hhas
        exact .inl ⟨corpus, written, path, text, rest, fault, rfl, hcorpus, hnil, hcontents,
          hwrites⟩

/-- **What a scan leaves behind that breaks off.** -/
lemma exists_of_breaks_scan {request : ScanRequest} {files : FileSystem} {failure : Failure}
    {last : Session} (h : (scan request).Breaks { files } failure last) :
    ∃ written, Request.WroteBefore files failure written (.scan request) ∧
      files.Writes last.files written (Request.made files (.scan request)) := by
  have hunchanged : (∀ path fault, failure ≠ .unwritable path fault) → last.files = files →
      ∃ written, Request.WroteBefore files failure written (.scan request) ∧
        files.Writes last.files written (Request.made files (.scan request)) := by
    rintro hfailure rfl
    exact ⟨[], .inr ⟨hfailure, rfl⟩, .refl _ _⟩
  rw [scan] at h
  simp only [Action.breaks_bind, ends_projectConfig, Action.ends_ofExcept, Action.breaks_ofExcept,
    Action.not_breaks_files, Action.ends_files, false_or] at h
  obtain h | ⟨_, _, ⟨loaded, hload, rfl, rfl⟩, ⟨fault, -, rfl, rfl⟩ |
    ⟨_, _, ⟨-, rfl⟩, files, _, ⟨rfl, rfl⟩, h⟩⟩ := h
  · obtain ⟨rfl, fault, rfl⟩ := eq_of_breaks_projectConfig h
    exact hunchanged (by simp) rfl
  · exact hunchanged (by simp) rfl
  · have hmade : Request.made files (.scan request) =
        (request.directory loaded.config).ancestors := by
      simp [Request.made, hload, Except.toOption]
    have hselected : ∃ session : Session, session.files = files ∧
        (scanSelected (request.amend loaded.config) (request.directory loaded.config)
          (Selection.select files (selectionOptions (request.amend loaded.config))
            request.paths)).Breaks session failure last := by
      split at h
      · obtain h | ⟨_, _, htell, h⟩ := Action.breaks_bind.mp h
        · exact absurd h Action.not_breaks_tell
        · obtain rfl := Action.ends_tell.mp htell
          exact ⟨_, rfl, h⟩
      · exact ⟨_, rfl, h⟩
    obtain ⟨session, rfl, hbreaks⟩ := hselected
    rw [hmade]
    obtain ⟨corpus, written, path, text, rest, fault, hfailure, hcorpus, hnil, hcontents,
      hwrites⟩ | ⟨hfailure, hwrites⟩ := cases_of_breaks_scanSelected hbreaks
    · exact ⟨written, .inl ⟨loaded, corpus, path, text, rest, fault, hfailure, hload, hcorpus,
        hnil, hcontents⟩, hwrites⟩
    · exact ⟨[], .inr ⟨hfailure, rfl⟩, hwrites⟩

/-- **What a report leaves behind that breaks off.** -/
lemma writes_of_breaks_report {request : ReportRequest} {files : FileSystem} {failure : Failure}
    {last : Session} (h : (report request).Breaks { files } failure last) :
    files.Writes last.files [] (Request.made files (.report request)) := by
  have hunchanged : last.files = files →
      files.Writes last.files [] (Request.made files (.report request)) := by
    rintro rfl
    exact .refl _ _
  rw [report, Action.breaks_bind] at h
  obtain h | ⟨_, _, hconfig, h⟩ := h
  · obtain ⟨rfl, -⟩ := eq_of_breaks_projectConfig h
    exact hunchanged rfl
  · obtain ⟨loaded, hload, rfl, rfl⟩ := ends_projectConfig.mp hconfig
    split at h
    · obtain h | ⟨sources, _, hsources, h⟩ := Action.breaks_bind.mp h
      · obtain rfl := eq_of_breaks_readSources h
        exact hunchanged rfl
      · obtain ⟨rfl, -⟩ := ends_readSources_of_ends hsources
        obtain h | ⟨_, _, hwarn, h⟩ := Action.breaks_bind.mp h
        · exact absurd h Action.not_breaks_warn
        · obtain rfl := Action.ends_warn.mp hwarn
          split at h
          · exact absurd h Action.not_breaks_pure
          · simp only [Action.breaks_bind, Action.not_breaks_pure, and_false, exists_false,
              or_false] at h
            have hmade : Request.made files (.report request) =
                (request.target loaded.config).parent?.toList.flatMap Path.ancestors := by
              simp [Request.made, hload, Except.toOption]
            rw [hmade, files_of_breaks_writeReport h]
            exact (changesOnly_makeParents files _).writes_nil
    · obtain ⟨-, rfl⟩ := Action.breaks_throw.mp h
      exact hunchanged rfl

/-- A set-up of a configuration that breaks off leaves nothing behind. -/
lemma eq_of_breaks_init {files : FileSystem} {failure : Failure} {last : Session}
    (h : init.Breaks { files } failure last) : last.files = files := by
  simp only [init, Action.breaks_bind, Action.not_breaks_files, Action.ends_files, false_or] at h
  obtain ⟨_, _, ⟨rfl, rfl⟩, h⟩ := h
  split at h
  · exact absurd h Action.not_breaks_pure
  · simp only [Action.breaks_bind, Action.breaks_writeText, Action.not_breaks_pure, and_false,
      exists_false, or_false] at h
    obtain ⟨fault, -, -, rfl⟩ := h
    rfl

/-- A command that breaks off has written some of its files and has changed nothing else. -/
lemma exists_writes_of_failure {request : Request} {files : FileSystem} {failure : Failure}
    (h : (run request files).failure = some failure) :
    (run request files).status = .error ∧ ∃ written, request.WroteBefore files failure written ∧
      files.Writes (run request files).files written (request.made files) := by
  cases request with
  | scan request =>
    obtain ⟨last, hbreaks, hstatus, hfiles⟩ := Action.exists_breaks_of_failure h
    obtain ⟨written, hbefore, hwrites⟩ := exists_of_breaks_scan hbreaks
    exact ⟨hstatus, written, hbefore, hfiles ▸ hwrites⟩
  | report request =>
    obtain ⟨last, hbreaks, hstatus, hfiles⟩ := Action.exists_breaks_of_failure h
    exact ⟨hstatus, [], rfl, hfiles ▸ writes_of_breaks_report hbreaks⟩
  | init =>
    obtain ⟨last, hbreaks, hstatus, hfiles⟩ := Action.exists_breaks_of_failure h
    have hkept : (run .init files).files = files := hfiles.trans (eq_of_breaks_init hbreaks)
    rw [hkept]
    exact ⟨hstatus, [], rfl, .refl files _⟩
  | overview => cases h

/-- **What a command leaves behind that breaks off.** Its exit status is that of an error. It has
made directories at most, unless it is a scan that could not write one of its files: then the files
before that one have been written. So no file has been created or changed exactly if all files that
had been written held before what was written into them. -/
theorem sameFiles_iff_held_before {request : Request} {files : FileSystem} {failure : Failure}
    (h : (run request files).failure = some failure) :
    (run request files).status = .error ∧ ∃ written, request.WroteBefore files failure written ∧
      files.Writes (run request files).files written (request.made files) ∧
      (files.SameFiles (run request files).files ↔ ∀ output ∈ written, ∃ address,
        (run request files).files.locate output.1 = .ok address ∧
          files.view address = some (some (Text.Utf8.encode output.2))) := by
  obtain ⟨hstatus, written, hbefore, hwrites⟩ := exists_writes_of_failure h
  exact ⟨hstatus, written, hbefore, hwrites, hwrites.sameFiles_iff⟩

/-! ### A scan that cannot write one of its files -/

/-- A file to scan, and a directory where one of the files of the scan would stand. -/
def blockedFiles : FileSystem where
  root := .directory [
    ("build", .directory [(Artifact.examplesFile, .directory [])]),
    ("test_a.py", .file (Text.Utf8.encode "# aerial:cross-cut Audit log"))]
  here := []

/-- A scan of the working directory that asks for nothing else. -/
def plainScan : ScanRequest := ⟨[⟨"."⟩], none, [], false, false, false, false⟩

/-- The scan breaks off at the directory, with a file written that was not there. -/
lemma run_blocked :
    (run (.scan plainScan) blockedFiles).failure =
        some (.unwritable ⟨"build/examples.json"⟩ .isDirectory) ∧
      (run (.scan plainScan) blockedFiles).status = .error ∧
      ((run (.scan plainScan) blockedFiles).files.view
        ["build", Artifact.componentsFile]).join.isSome = true := by decide +kernel

/-- Four files have been written before the one that is blocked. -/
theorem sameFiles_iff_held_before_blocked :
    (run (.scan plainScan) blockedFiles).failure =
        some (.unwritable ⟨"build/examples.json"⟩ .isDirectory) ∧
      (run (.scan plainScan) blockedFiles).status = .error ∧
      ∃ written, Request.WroteBefore blockedFiles (.unwritable ⟨"build/examples.json"⟩ .isDirectory)
          written (.scan plainScan) ∧
        blockedFiles.Writes (run (.scan plainScan) blockedFiles).files written
          (Request.made blockedFiles (.scan plainScan)) ∧
        (blockedFiles.SameFiles (run (.scan plainScan) blockedFiles).files ↔
          ∀ output ∈ written, ∃ address,
            (run (.scan plainScan) blockedFiles).files.locate output.1 = .ok address ∧
              blockedFiles.view address = some (some (Text.Utf8.encode output.2))) :=
  ⟨run_blocked.1, sameFiles_iff_held_before run_blocked.1⟩

/-- **A scan that leaves some of its files behind**: it breaks off, and files have been created. -/
theorem not_sameFiles_blocked :
    (run (.scan plainScan) blockedFiles).status = .error ∧
      ¬ blockedFiles.SameFiles (run (.scan plainScan) blockedFiles).files := by
  obtain ⟨-, hstatus, hafter⟩ := run_blocked
  have hbefore : blockedFiles.view ["build", Artifact.componentsFile] = none := by decide +kernel
  refine ⟨hstatus, fun hsame => ?_⟩
  obtain ⟨content, hcontent⟩ := Option.isSome_iff_exists.mp hafter
  have hthere := (hsame _ content).mp (Option.join_eq_some_iff.mp hcontent)
  rw [hbefore] at hthere
  cases hthere

end Command

end LivingDocs
