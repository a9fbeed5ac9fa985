import LivingDocs.Proofs.Aggregation
import LivingDocs.Proofs.Pipeline

/-!
# What a command writes

A command that does not break off either has problems, and then it leaves the file system as it
was, or it has none, and then it writes its outputs and nothing else. For each command there is one
reason for problems: a malformed block in one of the selected files, a collation without a report,
or a configuration that is already there. The directories above the outputs are made where they
are missing.

## Main definitions

* `LivingDocs.Command.Malformed` — a file has a malformed block.
* `LivingDocs.Command.Outcome.Abides` — there is a reason for problems and nothing has changed, or
  the outputs have been written.
* `LivingDocs.Command.Request.Abides` — the reason and the outputs of each command.

## Main results

* `LivingDocs.Command.errors_ne_nil_iff_malformed` — the corpus of several files has messages
  exactly if one of them has a malformed block.
* `LivingDocs.Command.writes_of_ends_writeReport` — what writing a report changes.
* `LivingDocs.Command.run_abides` — what a command has done that did not break off.
-/

set_option autoImplicit false

namespace LivingDocs

namespace FileSystem

/-- Making the directories above a path changes nothing else, also when it fails. -/
lemma changesOnly_makeParents (files : FileSystem) (path : Path) :
    files.ChangesOnly (files.makeParents path).1 []
      (path.parent?.toList.flatMap Path.ancestors) := by
  rw [makeParents]
  cases path.parent? with
  | none => exact ChangesOnly.refl files
  | some directory =>
    rw [Option.toList_some, List.flatMap_singleton]
    dsimp only
    split_ifs
    · exact (ChangesOnly.refl files).mono (List.nil_subset _) (List.nil_subset _)
    · exact changesOnly_makeDirectories files directory

end FileSystem

namespace Command

open FileSystem Collation

/-! ## The file of a report -/

/-- **Writing a report** changes nothing but its file and the directories above it. -/
lemma writes_of_ends_writeReport {path : Path} {report : Report} {session last : Session}
    {value : Unit} (h : (writeReport path report).Ends session value last) :
    session.files.Writes last.files [(path, report.encode)]
      (path.parent?.toList.flatMap Path.ancestors) := by
  obtain ⟨prepared, written, hparents, hwrite, rfl⟩ := ends_writeReport.mp h
  have hmade := changesOnly_makeParents session.files path
  rw [hparents] at hmade
  refine ⟨List.forall_mem_singleton.mpr (readFile_of_writeFile hwrite), ?_⟩
  simpa using hmade.trans (changesOnly_writeFile hwrite)

/-! ## Malformed blocks -/

/-- **A file has a malformed block.** -/
def Malformed (files : FileSystem) (grammar : Block.Grammar) (path : Path) : Prop :=
  ∃ content, files.readFile path = .ok content ∧
    ∃ step ∈ Block.steps grammar 1 (Text.lines (Text.Utf8.decodeLossy content)),
      ∃ error, step.result = .error error

/-- The corpus of a file has messages exactly if it has a malformed block. -/
lemma errors_ne_nil_iff_of_fileCorpus {files : FileSystem} {grammar : Block.Grammar} {path : Path}
    {corpus : Corpus} (h : fileCorpus files grammar path = .ok corpus) :
    corpus.errors ≠ [] ↔ Malformed files grammar path := by
  obtain ⟨content, hread, rfl⟩ := map_eq_ok_iff.mp h
  have hfault : ∀ step : Block.Step,
      step.fault? ≠ none ↔ ∃ error, step.result = .error error := by
    intro step
    unfold Block.Step.fault?
    cases step.result <;> simp
  rw [Corpus.errors_ofLines, Corpus.messages, Ne, List.map_eq_nil_iff, Block.faults,
    List.filterMap_eq_nil_iff]
  simp [Malformed, hread, ← hfault]

/-- **The corpus of several files has messages** exactly if one of them has a malformed block. -/
lemma errors_ne_nil_iff_malformed {files : FileSystem} {grammar : Block.Grammar}
    {paths : List Path} {corpus : Corpus} (h : aggregate files grammar paths = .ok corpus) :
    corpus.errors ≠ [] ↔ ∃ path ∈ paths, Malformed files grammar path := by
  rw [aggregate_eq] at h
  obtain ⟨corpora, hread, rfl⟩ := map_eq_ok_iff.mp h
  rw [Corpus.errors_mergeAll, List.flatten_ne_nil_iff]
  constructor
  · rintro ⟨errors, herrors, hne⟩
    obtain ⟨corpus, hcorpus, rfl⟩ := List.mem_map.mp herrors
    obtain ⟨path, hpath, hfile⟩ := (mem_of_mapM_ok hread).mp hcorpus
    exact ⟨path, hpath, (errors_ne_nil_iff_of_fileCorpus hfile).mp hne⟩
  · rintro ⟨path, hpath, hmalformed⟩
    obtain ⟨content, hcontent, -⟩ := id hmalformed
    have hfile : fileCorpus files grammar path = .ok _ :=
      map_eq_ok_iff.mpr ⟨content, hcontent, rfl⟩
    exact ⟨_, List.mem_map_of_mem ((mem_of_mapM_ok hread).mpr ⟨path, hpath, hfile⟩),
      (errors_ne_nil_iff_of_fileCorpus hfile).mpr hmalformed⟩

/-! ## Commands that do not break off -/

/-- The files that a scan selects, with a configuration that has been loaded. -/
def ScanRequest.selected (request : ScanRequest) (files : FileSystem) (config : Config) :
    List Path :=
  (Selection.select files (selectionOptions (request.amend config)) request.paths).files

/-- The grammar of a scan, with a configuration that has been loaded. -/
def ScanRequest.grammar (request : ScanRequest) (config : Config) : Block.Grammar :=
  .standard (request.amend config).keywordPrefix

/-- Reading the entities in a directory changes nothing, and depends on the files only. -/
lemma ends_readSources_of_ends {directory : Path} {session last : Session} {sources : Sources}
    (h : (readSources directory).Ends session sources last) :
    last = session ∧ ∀ other : Session, other.files = session.files →
      (readSources directory).Ends other sources other := by
  simp only [readSources, Action.ends_bind, ends_readEntities, Action.ends_pure] at h ⊢
  obtain ⟨components, _, ⟨_, hcomponents, hcomponents', rfl⟩, vars, _, ⟨_, hvars, hvars', rfl⟩,
    crosscuts, _, ⟨_, hcrosscuts, hcrosscuts', rfl⟩, journeys, _, ⟨_, hjourneys, hjourneys', rfl⟩,
    examples, _, ⟨_, hexamples, hexamples', rfl⟩, rfl, rfl⟩ := h
  refine ⟨rfl, fun other hother => ?_⟩
  rw [← hother] at hcomponents hvars hcrosscuts hjourneys hexamples
  exact ⟨_, other, ⟨_, hcomponents, hcomponents', rfl⟩, _, other, ⟨_, hvars, hvars', rfl⟩,
    _, other, ⟨_, hcrosscuts, hcrosscuts', rfl⟩, _, other, ⟨_, hjourneys, hjourneys', rfl⟩,
    _, other, ⟨_, hexamples, hexamples', rfl⟩, rfl, rfl⟩

/-- A collation without a report has something to say. -/
lemma messages_ne_nil {app : String} {sources : Sources} {failure : Collation.Failure}
    (h : (collate app sources).result = .error failure) : failure.messages ≠ [] := by
  unfold collate at h
  dsimp only at h
  split at h
  · cases h
    simp [Collation.Failure.messages]
  · split at h
    · cases h
    · next hne =>
      cases h
      simpa [Collation.Failure.messages] using hne

/-- What a report does with the collation of its entities, if it does not break off. -/
lemma cases_of_ends_reportOutcome {app : String} {output : Path} {outcome : Collation.Outcome}
    {session last : Session} {result : Result}
    (h : (reportOutcome app output outcome).Ends session result last) :
    (∀ failure, outcome.result = .error failure →
      result.problems = failure.messages ∧ last.files = session.files) ∧
    ∀ report, outcome.result = .ok report → result.problems = [] ∧
      session.files.Writes last.files [(output, report.encode)]
        (output.parent?.toList.flatMap Path.ancestors) := by
  obtain ⟨warnings, failure | report⟩ := outcome
  · rw [reportOutcome, Action.ends_bind] at h
    obtain ⟨_, _, hwarn, h⟩ := h
    obtain rfl := Action.ends_warn.mp hwarn
    obtain ⟨rfl, rfl⟩ := Action.ends_pure.mp h
    refine ⟨fun _ hfailure => ?_, fun _ hreport => nomatch hreport⟩
    cases hfailure
    exact ⟨rfl, rfl⟩
  · rw [reportOutcome, Action.ends_bind] at h
    obtain ⟨_, _, hwarn, h⟩ := h
    obtain rfl := Action.ends_warn.mp hwarn
    obtain ⟨_, _, hwrite, h⟩ := Action.ends_bind.mp h
    obtain ⟨rfl, rfl⟩ := Action.ends_pure.mp h
    refine ⟨(fun _ hfailure => nomatch hfailure), fun _ hreport => ?_⟩
    cases hreport
    have hwrites := writes_of_ends_writeReport hwrite
    exact ⟨rfl, hwrites⟩

/-- **What a report has done that did not break off**: it has read its entities, and their
collation decides. -/
lemma exists_of_ends_report {request : ReportRequest} {files : FileSystem} {result : Result}
    {last : Session} (h : (report request).Ends { files } result last) :
    ∃ loaded app sources, Config.load files ⟨"."⟩ = .ok loaded ∧
      appName? request loaded.config = some app ∧
      (∀ session : Session, session.files = files →
        (readSources (request.directory loaded.config)).Ends session sources session) ∧
      (∀ failure, (collate app sources).result = .error failure →
        result.problems = failure.messages ∧ last.files = files) ∧
      ∀ report, (collate app sources).result = .ok report → result.problems = [] ∧
        files.Writes last.files [(request.target loaded.config, report.encode)]
          ((request.target loaded.config).parent?.toList.flatMap Path.ancestors) := by
  rw [report, Action.ends_bind] at h
  obtain ⟨_, _, hconfig, h⟩ := h
  obtain ⟨loaded, hload, rfl, rfl⟩ := ends_projectConfig.mp hconfig
  split at h
  · next app happ =>
    obtain ⟨sources, _, hsources, h⟩ := Action.ends_bind.mp h
    obtain ⟨rfl, hread⟩ := ends_readSources_of_ends hsources
    exact ⟨loaded, app, sources, hload, happ, hread, cases_of_ends_reportOutcome h⟩
  · exact absurd h Action.ends_throw

/-- **What the set-up of a configuration has done that did not break off**: it has written the
default configuration unless there was one. -/
lemma cases_of_ends_init {files : FileSystem} {result : Result} {last : Session}
    (h : init.Ends { files } result last) :
    (files.contains ⟨Config.fileName⟩ = true → result.problems ≠ [] ∧ last.files = files) ∧
    (files.contains ⟨Config.fileName⟩ = false → result.problems = [] ∧
      files.Writes last.files [(⟨Config.fileName⟩, Config.defaultText ++ "\n")] []) := by
  rw [init, Action.ends_bind] at h
  obtain ⟨_, _, hfiles, h⟩ := h
  obtain ⟨rfl, rfl⟩ := Action.ends_files.mp hfiles
  split at h
  · next hcontains =>
    obtain ⟨rfl, rfl⟩ := Action.ends_pure.mp h
    exact ⟨fun _ => ⟨by simp, rfl⟩, fun hmissing => by simp [hcontains] at hmissing⟩
  · next hcontains =>
    obtain ⟨_, _, hwrite, h⟩ := Action.ends_bind.mp h
    obtain ⟨written, hwritten, rfl⟩ := Action.ends_writeText.mp hwrite
    obtain ⟨rfl, rfl⟩ := Action.ends_pure.mp h
    refine ⟨fun hthere => absurd hthere hcontains, fun _ => ⟨rfl, ?_, ?_⟩⟩
    · exact List.forall_mem_singleton.mpr (readFile_of_writeFile hwritten)
    · exact changesOnly_writeFile hwritten

/-! ## The policy -/

/-- **There is a reason for problems and nothing has changed, or the outputs have been written** and
nothing else but missing directories, which were made where some paths lead to. -/
structure Outcome.Abides (outcome : Outcome) (before : FileSystem) (reason : Prop)
    (outputs : List (Path × String)) (made : List Path) : Prop where
  status : outcome.status = .failure ↔ reason
  unchanged : reason → outcome.files = before
  written : ¬ reason → outcome.status = .success ∧ before.Writes outcome.files outputs made

/-- **The reason and the outputs of each command.** A scan has a malformed block in one of the files
that it selects, or the corpus of these files has no messages and its five sets are written. A
report is kept from being written by the collation of the entities that it has read. A
configuration is not set up twice. -/
def Request.Abides (files : FileSystem) (outcome : Outcome) : Request → Prop
  | .scan request => ∃ loaded corpus, Config.load files ⟨"."⟩ = .ok loaded ∧
      request.corpus files loaded.config = .ok corpus ∧
      (corpus.errors ≠ [] ↔ ∃ path ∈ request.selected files loaded.config,
        Malformed files (request.grammar loaded.config) path) ∧
      outcome.Abides files
        (∃ path ∈ request.selected files loaded.config,
          Malformed files (request.grammar loaded.config) path)
        (Artifact.contents (request.directory loaded.config) corpus)
        (request.directory loaded.config).ancestors
  | .report request => ∃ loaded app sources outputs, Config.load files ⟨"."⟩ = .ok loaded ∧
      appName? request loaded.config = some app ∧
      (∀ session : Session, session.files = files →
        (readSources (request.directory loaded.config)).Ends session sources session) ∧
      outcome.Abides files (∃ failure, (collate app sources).result = .error failure) outputs
        ((request.target loaded.config).parent?.toList.flatMap Path.ancestors) ∧
      ∀ report, (collate app sources).result = .ok report →
        outputs = [(request.target loaded.config, report.encode)]
  | .init => outcome.Abides files (files.contains ⟨Config.fileName⟩ = true)
      [(⟨Config.fileName⟩, Config.defaultText ++ "\n")] []
  | .overview => outcome.Abides files False [] []

/-- A command that does not break off ends with a result. -/
lemma Action.exists_ends_of_failure_none {action : Action Result} {files : FileSystem}
    {verbose : Bool} (h : (action.outcome verbose files).failure = none) :
    ∃ result last, action.Ends { files } result last ∧
      (action.outcome verbose files).status = result.status ∧
      (action.outcome verbose files).files = last.files := by
  rcases hresult : action.result { files } with ⟨failure | result, last⟩
  · have hrun : action.run.run { files } = (.error failure, last) := hresult
    rw [Action.outcome, hrun] at h
    cases h
  · have hends : action.Ends { files } result last := hresult
    rw [Action.outcome_of_ends hends]
    exact ⟨result, last, hends, rfl, rfl⟩

/-- A command with one reason for problems abides by the policy. -/
lemma Outcome.abides_of_problems {outcome : Outcome} {before after : FileSystem} {result : Result}
    {reason : Prop} {outputs : List (Path × String)} {made : List Path}
    (hstatus : outcome.status = result.status) (hfiles : outcome.files = after)
    (hreason : result.problems ≠ [] ↔ reason) (hunchanged : reason → after = before)
    (hwritten : ¬ reason → before.Writes after outputs made) :
    outcome.Abides before reason outputs made := by
  have hfailure : result.status = .failure ↔ result.problems ≠ [] := by
    rw [Result.status]
    cases result.problems <;> simp
  refine ⟨by rw [hstatus, hfailure, hreason], fun h => hfiles.trans (hunchanged h), fun h => ?_⟩
  have hnil : result.problems = [] := not_not.mp fun hne => h (hreason.mp hne)
  refine ⟨?_, hfiles ▸ hwritten h⟩
  rw [hstatus, Result.status, hnil]
  rfl

/-- **What a command has done that did not break off.** Its exit status is that of a failure exactly
if there is a reason for problems, and then the file system is as before. Otherwise it succeeds, its
outputs hold the encodings of what it has come to, and nothing else differs, apart from directories
that were made above the outputs. -/
theorem run_abides {request : Request} {files : FileSystem}
    (h : (run request files).failure = none) : request.Abides files (run request files) := by
  cases request with
  | scan request =>
    obtain ⟨result, last, hends, hstatus, hfiles⟩ := Action.exists_ends_of_failure_none h
    obtain ⟨loaded, corpus, hload, hcorpus, hproblems, hkept, hwritten⟩ :=
      exists_of_ends_scan_cases hends
    have herrors := errors_ne_nil_iff_malformed hcorpus
    refine ⟨loaded, corpus, hload, hcorpus, herrors, ?_⟩
    refine Outcome.abides_of_problems hstatus hfiles (by rw [hproblems]; exact herrors)
      (fun hreason => hkept (herrors.mpr hreason)) (fun hreason => ?_)
    obtain ⟨session, paths, rfl, hwrite⟩ :=
      hwritten (not_not.mp fun hne => hreason (herrors.mp hne))
    exact writes_of_ends_writeCorpus hwrite
  | report request =>
    obtain ⟨result, last, hends, hstatus, hfiles⟩ := Action.exists_ends_of_failure_none h
    obtain ⟨loaded, app, sources, hload, happ, hread, herror, hok⟩ := exists_of_ends_report hends
    cases hresult : (collate app sources).result with
    | error failure =>
      obtain ⟨hproblems, hkept⟩ := herror failure hresult
      refine ⟨loaded, app, sources, [], hload, happ, hread, ?_, fun _ hreport => ?_⟩
      · refine Outcome.abides_of_problems hstatus hfiles ?_ (fun _ => hkept) fun hreason => ?_
        · rw [hproblems]
          exact iff_of_true (messages_ne_nil hresult) ⟨failure, hresult⟩
        · exact absurd ⟨failure, hresult⟩ hreason
      · rw [hresult] at hreport
        cases hreport
    | ok report =>
      obtain ⟨hproblems, hwritten⟩ := hok report hresult
      have hreason : ¬ ∃ failure, (collate app sources).result = .error failure := by
        rintro ⟨failure, hfailure⟩
        rw [hresult] at hfailure
        cases hfailure
      refine ⟨loaded, app, sources, _, hload, happ, hread, Outcome.abides_of_problems hstatus
        hfiles (by simp [hproblems, hreason]) (fun h => absurd h hreason) (fun _ => hwritten), ?_⟩
      intro other hother
      rw [hresult] at hother
      cases hother
      rfl
  | init =>
    obtain ⟨result, last, hends, hstatus, hfiles⟩ := Action.exists_ends_of_failure_none h
    obtain ⟨hthere, hmissing⟩ := cases_of_ends_init hends
    cases hcontains : files.contains ⟨Config.fileName⟩ with
    | true =>
      obtain ⟨hproblems, hkept⟩ := hthere hcontains
      exact Outcome.abides_of_problems hstatus hfiles (iff_of_true hproblems hcontains)
        (fun _ => hkept) (fun hreason => absurd hcontains hreason)
    | false =>
      obtain ⟨hproblems, hwritten⟩ := hmissing hcontains
      exact Outcome.abides_of_problems hstatus hfiles (by simp [hproblems, hcontains])
        (fun hreason => by simp [hcontains] at hreason) (fun _ => hwritten)
  | overview =>
    exact ⟨by simp [run], False.elim, fun _ => ⟨rfl, List.forall_mem_nil _, .refl files⟩⟩

/-! ### Scans, a report, and a configuration that is there -/

/-- A test file with a malformed block beside one that is well formed. -/
def mixedFiles : FileSystem where
  root := .directory [
    (".aerialrc.json", .file (Text.Utf8.encode "{}")),
    ("test_a.py", .file (Text.Utf8.encode "# aerial:cross-cut Audit log")),
    ("test_b.py", .file (Text.Utf8.encode "# aerial:variable Means"))]
  here := []

/-- A scan of one path into a directory that is not there. -/
def scanInto (path : Path) : ScanRequest :=
  ⟨[path], some ⟨"out/docs"⟩, [], false, false, false, false⟩

/-- A file system in which no entities have been kept. -/
def scannedFiles : FileSystem where
  root := .directory [("build", .directory
    ([Artifact.componentsFile, Artifact.crosscutsFile, Artifact.examplesFile,
      Artifact.journeysFile, Artifact.variablesFile].map fun name =>
        (name, .file (Text.Utf8.encode "[]"))))]
  here := []

/-- The scan of one file succeeds, and so does a report where no entities have been kept. The scan
of the other file and the set-up of a configuration fail. All of them abide by the policy. -/
theorem run_abides_mixed :
    (run (.scan (scanInto ⟨"test_a.py"⟩)) mixedFiles).status = .success ∧
      Request.Abides mixedFiles (run (.scan (scanInto ⟨"test_a.py"⟩)) mixedFiles)
        (.scan (scanInto ⟨"test_a.py"⟩)) ∧
      (run (.scan (scanInto ⟨"test_b.py"⟩)) mixedFiles).status = .failure ∧
      Request.Abides mixedFiles (run (.scan (scanInto ⟨"test_b.py"⟩)) mixedFiles)
        (.scan (scanInto ⟨"test_b.py"⟩)) ∧
      (run .init mixedFiles).status = .failure ∧
      Request.Abides mixedFiles (run .init mixedFiles) .init ∧
      (run (.report checkoutReport) scannedFiles).status = .success ∧
      Request.Abides scannedFiles (run (.report checkoutReport) scannedFiles)
        (.report checkoutReport) := by
  have hwell : (run (.scan (scanInto ⟨"test_a.py"⟩)) mixedFiles).status = .success ∧
      (run (.scan (scanInto ⟨"test_a.py"⟩)) mixedFiles).failure = none := by decide +kernel
  have hmalformed : (run (.scan (scanInto ⟨"test_b.py"⟩)) mixedFiles).status = .failure ∧
      (run (.scan (scanInto ⟨"test_b.py"⟩)) mixedFiles).failure = none := by decide +kernel
  have hthere : (run .init mixedFiles).status = .failure ∧
      (run .init mixedFiles).failure = none := by decide +kernel
  have hreport : (run (.report checkoutReport) scannedFiles).status = .success ∧
      (run (.report checkoutReport) scannedFiles).failure = none := by decide +kernel
  exact ⟨hwell.1, run_abides hwell.2, hmalformed.1, run_abides hmalformed.2, hthere.1,
    run_abides hthere.2, hreport.1, run_abides hreport.2⟩

end Command

end LivingDocs
