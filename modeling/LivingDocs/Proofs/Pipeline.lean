import LivingDocs.Proofs.ArtifactStore
import LivingDocs.Proofs.Destination
import LivingDocs.Proofs.Scanned

/-!
# A report after a scan

The two commands agree through the disk. A scan that succeeds leaves the entities of its corpus in
a directory, and a report that reads this directory gets these very entities, also by another path
and from another working directory. All of them have a file, so the collation cannot stop and has
no component to complain about: what can be wrong is only a reference that leads nowhere or that
examples do not share. If nothing is wrong, the report that is written is that of the corpus itself.

## Main definitions

* `LivingDocs.Command.ScanRequest.corpus` — the corpus of the files that a scan selects.
* `LivingDocs.Command.ScanRequest.ScansInto` — a scan that succeeds and writes into the directory at
  an address.
* `LivingDocs.FileSystem.Writable` — a path that a file can be written at.
* `LivingDocs.Command.ArtifactsFit` — paths of artifacts that are not too long.
* `LivingDocs.Command.ReportRequest.ReportsFrom` — a report that reads from the directory at an
  address.
* `LivingDocs.Collation.Problem.IsReference` — problems with references.

## Main results

* `LivingDocs.Collation.collate_of_located` — entities that have a place have problems with
  references only.
* `LivingDocs.Command.ends_scan` — when a scan ends, and how.
* `LivingDocs.Command.exists_of_ends_scan_cases` — what a scan has done that did not break off.
* `LivingDocs.Command.report_after_scan` — what a report after a scan comes to.
-/

set_option autoImplicit false

namespace LivingDocs

/-! ## Collating a corpus -/

namespace Collation

/-- **A problem with a reference**: of a group of examples to its category, or to a value. -/
def Problem.IsReference : Problem → Prop
  | multipleCategories _ | unresolvedCategory _ _ | unresolvedValue _ => True
  | missingFile _ _ | component _ _ => False

/-- **Entities that have a place have problems with references only.** -/
lemma collate_of_located (app : String) {corpus : Corpus} (h : corpus.Located) :
    (∃ report, (collate app (.ofCorpus corpus)).result = .ok report) ∨
      ∃ problems, problems ≠ [] ∧ (∀ problem ∈ problems, problem.IsReference) ∧
        (collate app (.ofCorpus corpus)).result = .error (.problems problems) := by
  have hneeded : (Sources.ofCorpus corpus).NeededPlaced :=
    ⟨fun v hv => (h (.ofVariable v) hv).1, fun c hc => (h (.ofCrosscut c) hc).1,
      fun j hj => (h (.ofJourney j) hj).1⟩
  obtain ⟨lookups, problems, -, ⟨fault, hfault, hlist⟩, hok, herror⟩ :=
    collate_of_neededPlaced app hneeded
  by_cases hnil : problems = []
  · exact .inl (hok.mpr hnil)
  · refine .inr ⟨problems, hnil, fun problem hproblem => ?_, herror hnil⟩
    rw [hlist, List.mem_append] at hproblem
    rcases hproblem with hcomponent | hgroup
    · -- every component has a file
      obtain ⟨c, hc, -⟩ := List.mem_map.mp hcomponent
      obtain ⟨hc, hfile⟩ := List.mem_filter.mp hc
      exact absurd (Option.isNone_iff_eq_none.mp hfile) (h (.ofComponent c) hc).1
    · obtain ⟨name, hname, hproblem⟩ := List.mem_filterMap.mp hgroup
      cases (hfault name hname problem).mp hproblem with
      | multipleCategories => trivial
      | unresolvedCategory => trivial
      | unresolvedValue => trivial
      | missingFile _ _ he hfile =>
        exact absurd hfile (h (.ofExample _) (mem_examplesNamed.mp he).1).1

end Collation

/-! ## Writing a report -/

namespace FileSystem

/-- Makes the directories above a path; above a lone name there is none to make. -/
def makeParents (files : FileSystem) (path : Path) : FileSystem × Except Fault Unit :=
  match path.parent? with
  | some directory =>
    if directory.text = "" then (files, .ok ()) else files.makeDirectories directory
  | none => (files, .ok ())

/-- **A path that a file can be written at**, once the directories above it have been made. -/
def Writable (files : FileSystem) (path : Path) : Prop :=
  ∃ prepared, files.makeParents path = (prepared, .ok ()) ∧
    ∀ content, ∃ written, prepared.writeFile path content = .ok written

/-- Whether a file can be written does not depend on what is written into it. -/
lemma isOk_writeFile (files : FileSystem) (path : Path) (content other : ByteArray) :
    (files.writeFile path content).isOk = (files.writeFile path other).isOk := by
  simp only [writeFile, bind, Except.bind]
  repeat' split
  all_goals rfl

/-- A path is writable if the directories above it can be made and then an empty file. -/
lemma writable_of_isOk {files : FileSystem} {path : Path}
    (hparents : (files.makeParents path).2.isOk = true)
    (hwrite : ((files.makeParents path).1.writeFile path .empty).isOk = true) :
    files.Writable path := by
  refine ⟨(files.makeParents path).1, Prod.ext rfl ?_, fun content => ?_⟩
  · cases hresult : (files.makeParents path).2 with
    | error fault =>
      rw [hresult] at hparents
      cases hparents
    | ok _ => rfl
  · rw [isOk_writeFile _ path .empty content] at hwrite
    cases hresult : (files.makeParents path).1.writeFile path content with
    | error fault =>
      rw [hresult] at hwrite
      cases hwrite
    | ok written => exact ⟨written, rfl⟩

end FileSystem

namespace Command

open FileSystem Collation

/-- A report is written once the directories above it have been made. -/
lemma ends_writeReport {path : Path} {report : Report} {session last : Session} {value : Unit} :
    (writeReport path report).Ends session value last ↔
      ∃ prepared written, session.files.makeParents path = (prepared, .ok ()) ∧
        prepared.writeFile path (Text.Utf8.encode report.encode) = .ok written ∧
        last = { session with files := written } := by
  rw [writeReport, FileSystem.makeParents]
  cases path.parent? with
  | none => simp
  | some directory =>
    by_cases hempty : directory.text = ""
    · simp [hempty]
    · simp [hempty]

/-! ## Scanning -/

/-- **The corpus of the files that a scan selects**, with a configuration that has been loaded. -/
def ScanRequest.corpus (request : ScanRequest) (files : FileSystem) (config : Config) :
    Except FileSystem.Fault Corpus :=
  let amended := request.amend config
  aggregate files (Block.Grammar.standard amended.keywordPrefix)
    (Selection.select files (selectionOptions amended) request.paths).files

/-- The directory that a scan writes into, with a configuration that has been loaded. -/
def ScanRequest.directory (request : ScanRequest) (config : Config) : Path :=
  request.output.getD ⟨config.outputDir⟩

/-- What a scan does with the files that it has selected. -/
def scanSelected (config : Config) (output : Path) (selection : Selection) : Action Result := do
  let corpus ← scanFiles (Block.Grammar.standard config.keywordPrefix) selection.files
  let summary := scanSummary selection corpus
  if corpus.hasErrors then
    return { summary := .scan summary, title := malformedTitle, problems := corpus.errors }
  else
    let written ← writeCorpus output corpus
    return { summary := .scan { summary with written } }

/-- **When a scan ends with the files that it has selected**, and how: with the messages of their
corpus, or once this corpus has been written. -/
lemma ends_scanSelected {config : Config} {output : Path} {selection : Selection}
    {session last : Session} {result : Result} :
    (scanSelected config output selection).Ends session result last ↔
      ∃ corpus, aggregate session.files (Block.Grammar.standard config.keywordPrefix)
          selection.files = .ok corpus ∧
        (corpus.errors ≠ [] ∧ last = session ∧ result =
            { summary := .scan (scanSummary selection corpus), title := malformedTitle,
              problems := corpus.errors } ∨
          corpus.errors = [] ∧ ∃ written, (writeCorpus output corpus).Ends session written last ∧
            result = { summary := .scan { scanSummary selection corpus with written } }) := by
  simp only [scanSelected, Action.ends_bind, ends_scanFiles]
  have herrors : ∀ corpus : Corpus, corpus.hasErrors = true ↔ corpus.errors ≠ [] := fun corpus => by
    simp [Corpus.hasErrors]
  constructor
  · rintro ⟨corpus, _, ⟨hcorpus, rfl⟩, h⟩
    refine ⟨corpus, hcorpus, ?_⟩
    split_ifs at h with hhas
    · obtain ⟨rfl, rfl⟩ := Action.ends_pure.mp h
      exact .inl ⟨(herrors corpus).mp hhas, rfl, rfl⟩
    · obtain ⟨written, _, hwrite, h⟩ := Action.ends_bind.mp h
      obtain ⟨rfl, rfl⟩ := Action.ends_pure.mp h
      exact .inr ⟨not_not.mp fun hne => hhas ((herrors corpus).mpr hne), written, hwrite, rfl⟩
  · rintro ⟨corpus, hcorpus, ⟨hne, rfl, rfl⟩ | ⟨hnil, written, hwrite, rfl⟩⟩
    · refine ⟨corpus, last, ⟨hcorpus, rfl⟩, ?_⟩
      rw [if_pos ((herrors corpus).mpr hne)]
      exact Action.ends_pure.mpr ⟨rfl, rfl⟩
    · refine ⟨corpus, session, ⟨hcorpus, rfl⟩, ?_⟩
      rw [if_neg fun hhas => (herrors corpus).mp hhas hnil]
      exact Action.ends_bind.mpr ⟨written, last, hwrite, Action.ends_pure.mpr ⟨rfl, rfl⟩⟩

/-- What a scan tells before it looks into files: that there is no configuration, and what is worth
telling about the selection. -/
def ScanRequest.told (request : ScanRequest) (files : FileSystem) (loaded : Config.Loaded) :
    String :=
  configNote request.verbose loaded ++
    if request.verbose then
      noticesText (Selection.select files (selectionOptions (request.amend loaded.config))
        request.paths).notices
    else ""

/-- **When a scan ends**, and how: with a configuration that makes sense, as it does with the files
that it selects. -/
lemma ends_scan {request : ScanRequest} {files : FileSystem} {result : Result} {last : Session} :
    (scan request).Ends { files } result last ↔
      ∃ loaded, Config.load files ⟨"."⟩ = .ok loaded ∧
        (request.amend loaded.config).validate = .ok () ∧
        (scanSelected (request.amend loaded.config) (request.directory loaded.config)
          (Selection.select files (selectionOptions (request.amend loaded.config))
            request.paths)).Ends { files, told := request.told files loaded } result last := by
  simp only [scan, Action.ends_bind, ends_projectConfig, Action.ends_ofExcept, Action.ends_files]
  constructor
  · rintro ⟨_, _, ⟨loaded, hload, rfl, rfl⟩, _, _, ⟨hvalid, rfl⟩, files, _, ⟨rfl, rfl⟩, h⟩
    refine ⟨loaded, hload, hvalid, ?_⟩
    rw [ScanRequest.told]
    split_ifs at h ⊢
    · obtain ⟨_, _, htell, h⟩ := Action.ends_bind.mp h
      obtain rfl := Action.ends_tell.mp htell
      rw [String.empty_append] at h
      exact h
    · rw [String.empty_append] at h
      rw [String.append_empty]
      exact h
  · rintro ⟨loaded, hload, hvalid, h⟩
    refine ⟨_, _, ⟨loaded, hload, rfl, rfl⟩, (), _, ⟨hvalid, rfl⟩, files, _, ⟨rfl, rfl⟩, ?_⟩
    rw [ScanRequest.told] at h
    split_ifs at h ⊢
    · refine Action.ends_bind.mpr ⟨(), _, Action.ends_tell.mpr rfl, ?_⟩
      rw [String.empty_append]
      exact h
    · rw [String.append_empty] at h
      rw [String.empty_append]
      exact h

/-- **What a scan has done that did not break off**: its problems are the messages of the corpus of
the files that it selects, and if there are none, it has written this corpus. -/
lemma exists_of_ends_scan_cases {request : ScanRequest} {files : FileSystem} {result : Result}
    {last : Session} (h : (scan request).Ends { files } result last) :
    ∃ loaded corpus, Config.load files ⟨"."⟩ = .ok loaded ∧
      request.corpus files loaded.config = .ok corpus ∧ result.problems = corpus.errors ∧
      (corpus.errors ≠ [] → last.files = files) ∧
      (corpus.errors = [] → ∃ session paths, session.files = files ∧
        (writeCorpus (request.directory loaded.config) corpus).Ends session paths last) := by
  obtain ⟨loaded, hload, -, hends⟩ := ends_scan.mp h
  obtain ⟨corpus, hcorpus, ⟨hne, rfl, rfl⟩ | ⟨hnil, written, hwrite, rfl⟩⟩ :=
    ends_scanSelected.mp hends
  · exact ⟨loaded, corpus, hload, hcorpus, rfl, fun _ => rfl, fun hnil => absurd hnil hne⟩
  · exact ⟨loaded, corpus, hload, hcorpus, hnil.symm, fun hne => absurd hnil hne,
      fun _ => ⟨_, written, rfl, hwrite⟩⟩

/-- What a scan without problems has done: it has written the corpus of the files that it selects
into its output directory. -/
lemma exists_of_ends_scan {request : ScanRequest} {files : FileSystem} {result : Result}
    {last : Session} (h : (scan request).Ends { files } result last)
    (hproblems : result.problems = []) :
    ∃ loaded corpus, Config.load files ⟨"."⟩ = .ok loaded ∧
      request.corpus files loaded.config = .ok corpus ∧
      ∃ session paths, session.files = files ∧
        (writeCorpus (request.directory loaded.config) corpus).Ends session paths last := by
  obtain ⟨loaded, corpus, hload, hcorpus, herrors, -, hwritten⟩ := exists_of_ends_scan_cases h
  exact ⟨loaded, corpus, hload, hcorpus, hwritten (herrors.symm.trans hproblems)⟩

/-- **A scan succeeds and writes into the directory at an address.** -/
structure ScanRequest.ScansInto (request : ScanRequest) (files : FileSystem)
    (directory : Address) : Prop where
  succeeds : (run (.scan request) files).status = .success
  writes : ∃ loaded, Config.load files ⟨"."⟩ = .ok loaded ∧
    (request.directory loaded.config).destination files.here = directory

/-! ## Reporting -/

/-- The directory that a report reads from, with a configuration that has been loaded. -/
def ReportRequest.directory (request : ReportRequest) (config : Config) : Path :=
  request.dir.getD ⟨config.outputDir⟩

/-- The path that a report is written to, with a configuration that has been loaded. -/
def ReportRequest.target (request : ReportRequest) (config : Config) : Path :=
  request.output.getD ((request.directory config).join Artifact.reportFile)

/-- **The paths of the artifacts in a directory are not too long** to be looked up. -/
def ArtifactsFit (directory : Path) : Prop :=
  ∀ name ∈ artifactNames, (directory.join name).text.utf8ByteSize ≤ maxPathSize

instance : DecidablePred ArtifactsFit := fun _ => inferInstanceAs (Decidable (∀ _ ∈ _, _))

/-- **A report reads from the directory at an address**, whatever the path to it, for an application
with a name that is not blank, and its output can be written. -/
structure ReportRequest.ReportsFrom (request : ReportRequest) (files : FileSystem)
    (directory : Address) (app : String) (output : Path) : Prop where
  reads : ∃ loaded, Config.load files ⟨"."⟩ = .ok loaded ∧
    appName? request loaded.config = some app ∧ request.target loaded.config = output ∧
    files.Opens (request.directory loaded.config) directory ∧
    ArtifactsFit (request.directory loaded.config)
  writable : files.Writable output

/-- What a report does with the collation of its entities. -/
def reportOutcome (app : String) (output : Path) (outcome : Collation.Outcome) :
    Action Result := do
  Action.warn outcome.warnings
  match outcome.result with
  | .error failure =>
    return {
      summary := .report { app }
      title := failureTitle failure
      problems := failure.messages }
  | .ok report =>
    writeReport output report
    return {
      summary := .report {
        app
        components := report.components.length
        examples := report.examples.length
        journeys := report.journeys.length
        written := some output } }

/-- What a report comes to: it tells the problems and writes nothing, or else the report stands in
its file. -/
def Result.Tells (result : Result) (app : String) (output : Path) (before after : FileSystem) :
    Except Collation.Failure Report → Prop
  | .error failure => after = before ∧ result =
      { summary := .report { app }, title := failureTitle failure, problems := failure.messages }
  | .ok report => result.problems = [] ∧
      after.readFile output = .ok (Text.Utf8.encode report.encode)

/-- The collation decides what a report comes to, if its output can be written. -/
lemma exists_ends_reportOutcome (app : String) {output : Path} (outcome : Collation.Outcome)
    {session : Session} (h : session.files.Writable output) :
    ∃ result last, (reportOutcome app output outcome).Ends session result last ∧
      result.Tells app output session.files last.files outcome.result := by
  obtain ⟨prepared, hprepared, hwritable⟩ := h
  obtain ⟨warnings, failure | report⟩ := outcome
  · refine ⟨_, _, Action.ends_bind.mpr ⟨(), _, Action.ends_warn.mpr rfl,
      Action.ends_pure.mpr ⟨rfl, rfl⟩⟩, ?_⟩
    exact ⟨rfl, rfl⟩
  · obtain ⟨written, hwritten⟩ := hwritable (Text.Utf8.encode report.encode)
    have hwrite : (writeReport output report).Ends
        { session with warnings := session.warnings ++ warnings } ()
        { session with warnings := session.warnings ++ warnings, files := written } :=
      ends_writeReport.mpr ⟨prepared, written, hprepared, hwritten, rfl⟩
    refine ⟨_, _, Action.ends_bind.mpr ⟨(), _, Action.ends_warn.mpr rfl,
      Action.ends_bind.mpr ⟨(), _, hwrite, Action.ends_pure.mpr ⟨rfl, rfl⟩⟩⟩, ?_⟩
    exact ⟨rfl, FileSystem.readFile_of_writeFile hwritten⟩

/-- **A report that has read its entities comes to what their collation decides.** -/
lemma exists_ends_report {request : ReportRequest} {files : FileSystem} {loaded : Config.Loaded}
    {app : String} (hload : Config.load files ⟨"."⟩ = .ok loaded)
    (happ : appName? request loaded.config = some app)
    (hwritable : files.Writable (request.target loaded.config)) {sources : Sources}
    (hsources : ∀ session : Session, session.files = files →
      (readSources (request.directory loaded.config)).Ends session sources session) :
    ∃ result last, (report request).Ends { files } result last ∧
      result.Tells app (request.target loaded.config) files last.files
        (collate app sources).result := by
  let session : Session := { files, told := "" ++ configNote request.verbose loaded }
  have hsession : session.files.Writable (request.target loaded.config) := hwritable
  obtain ⟨result, last, hends, htells⟩ :=
    exists_ends_reportOutcome app (collate app sources) hsession
  refine ⟨result, last, ?_, htells⟩
  rw [report]
  refine Action.ends_bind.mpr ⟨_, session, ends_projectConfig.mpr ⟨loaded, hload, rfl, rfl⟩, ?_⟩
  simp only [happ]
  exact Action.ends_bind.mpr ⟨sources, session, hsources session rfl, hends⟩

/-! ## One after the other -/

/-- **What comes of a report on entities that have a place.** If their collation has a report, the
command succeeds and the report stands in its file. Otherwise the collation has not stopped: the
problems that are told are problems with references, and nothing is written. -/
def Outcome.ReportsOn (outcome : Outcome) (before : FileSystem) (output : Path) :
    Except Collation.Failure Report → Prop
  | .ok report => outcome.status = .success ∧
      outcome.files.readFile output = .ok (Text.Utf8.encode report.encode)
  | .error (.problems problems) => outcome.status = .failure ∧ outcome.files = before ∧
      (∀ problem ∈ problems, problem.IsReference) ∧
      ∃ told, outcome.stderr =
        told ++ Console.problemsText Collation.Failure.headline (problems.map Problem.message)
  | .error (.aborted _) => False

/-- **A report after a scan.** Where a scan has succeeded, a report that reads the directory which
the scan has written into does not break off, by whatever path and from whatever working directory
it reads it: it reads all entities, and what comes of it is decided by the collation of the corpus
of the selected files, in ascending order. The collation has not stopped, and lists problems with
references only. The sizes of files are numbers of 64 bits, as the numbers of lines in an artifact
are.

**Proof sketch.** The scan has written the corpus of the files that it selects, in which every
entity has a file and a line. The artifacts stand in the directory that the report opens, so it
reads this corpus back. Its collation has a report or problems with references, and the command
passes either on. -/
theorem report_after_scan {files left : FileSystem} {scanRequest : ScanRequest}
    {reportRequest : ReportRequest} {directory : Address} {app : String} {output : Path}
    (hsized : files.Sized) (hscan : scanRequest.ScansInto files directory)
    (hleft : left.root = (run (.scan scanRequest) files).files.root)
    (hreport : reportRequest.ReportsFrom left directory app output) :
    ∃ loaded corpus, Config.load files ⟨"."⟩ = .ok loaded ∧
      scanRequest.corpus files loaded.config = .ok corpus ∧
      (run (.report reportRequest) left).failure = none ∧
      (run (.report reportRequest) left).ReportsOn left output
        (collate app (Sources.ofCorpus corpus)).result := by
  obtain ⟨scanned, last, hends, hproblems, hfiles⟩ := Action.exists_ends_of_success hscan.succeeds
  obtain ⟨loaded, corpus, hload, hcorpus, session, paths, hsession, hwrite⟩ :=
    exists_of_ends_scan hends hproblems
  obtain ⟨loaded', hload', rfl⟩ := hscan.writes
  cases hload.symm.trans hload'
  refine ⟨loaded, corpus, hload, hcorpus, ?_⟩
  have hlocated := located_of_aggregate hsized hcorpus
  have hroot : left.root = last.files.root := hleft.trans (congrArg FileSystem.root hfiles)
  have hhere : last.files.here = files.here :=
    (writes_of_ends_writeCorpus hwrite).changes.here.trans (congrArg FileSystem.here hsession)
  obtain ⟨loaded', hload', happ, rfl, hopens, hfit⟩ := hreport.reads
  -- the artifacts that the scan has left are those that the report finds
  have hheld : ∀ item ∈ namedContents corpus,
      left.readFile ((reportRequest.directory loaded'.config).join item.1) =
        .ok (Text.Utf8.encode item.2) := fun item hitem => by
    obtain ⟨hname, hartifact⟩ := named_of_mem_namedContents corpus item hitem
    rw [← hhere] at hopens
    exact readFile_join_of_opens hroot hname hopens (hfit item.1 hartifact)
      (held_of_ends_writeCorpus hwrite item hitem)
  obtain ⟨result, final, hresult, htells⟩ :=
    exists_ends_report hload' happ hreport.writable fun later hlater =>
      ends_readSources hlocated.numbered (hlater ▸ hheld)
  have houtcome : run (.report reportRequest) left = _ :=
    Action.outcome_of_ends hresult reportRequest.verbose
  rw [houtcome]
  refine ⟨rfl, ?_⟩
  rcases collate_of_located app hlocated with ⟨report, hok⟩ | ⟨problems, hne, href, herror⟩
  · rw [hok] at htells ⊢
    exact ⟨by simp [Result.status, htells.1], htells.2⟩
  · rw [herror] at htells ⊢
    obtain ⟨hbefore, rfl⟩ := htells
    refine ⟨?_, hbefore, href, final.told, ?_⟩
    · simp [Result.status, Collation.Failure.messages, hne]
    · simp [Result.stderr, Collation.Failure.messages, hne, Console.skippedText, failureTitle]

/-! ### A scan and a report -/

/-- A test file with a journey and an example of it. -/
def checkoutTest : ByteArray :=
  Text.Utf8.encode "# aerial:journey Checkout\n# aerial:example Checkout\n# Pay by card"

/-- A file system with that file in its working directory. -/
def checkoutFiles : FileSystem where
  root := .directory [("test_shop.py", .file checkoutTest)]
  here := []

/-- The one file is short. -/
lemma sized_checkoutFiles : checkoutFiles.Sized := by
  rintro (_ | ⟨name, rest⟩) content h
  · cases h
  · obtain ⟨_, child, hentries, hchild, hcontent⟩ := FileSystem.Node.exists_child h
    cases hentries
    rw [FileSystem.lookup_entry] at hchild
    split at hchild
    · cases hchild
      cases rest with
      | nil =>
        cases hcontent
        decide +kernel
      | cons => cases hcontent
    · cases hchild

/-- A scan of the file, into the usual directory `build/`. -/
def checkoutScan : ScanRequest := ⟨[⟨"test_shop.py"⟩], none, [], false, false, false, false⟩

/-- A report on what the scan has kept, with another path to the directory. -/
def checkoutReport : ReportRequest :=
  ⟨some "Shop", some ⟨"./build"⟩, some ⟨"docs/report.json"⟩, false⟩

/-- The scan succeeds, and what it leaves on disk is what the report is made from. -/
theorem report_after_scan_checkout :
    checkoutScan.ScansInto checkoutFiles ["build"] ∧
      checkoutReport.ReportsFrom (run (.scan checkoutScan) checkoutFiles).files ["build"] "Shop"
        ⟨"docs/report.json"⟩ ∧
      ∃ loaded corpus, Config.load checkoutFiles ⟨"."⟩ = .ok loaded ∧
        checkoutScan.corpus checkoutFiles loaded.config = .ok corpus ∧
        (run (.report checkoutReport) (run (.scan checkoutScan) checkoutFiles).files).failure =
          none ∧
        (run (.report checkoutReport) (run (.scan checkoutScan) checkoutFiles).files).ReportsOn
          (run (.scan checkoutScan) checkoutFiles).files ⟨"docs/report.json"⟩
          (collate "Shop" (Sources.ofCorpus corpus)).result := by
  -- one evaluation of the scan for all that is asked of it
  have hrun : (run (.scan checkoutScan) checkoutFiles).status = .success ∧
      Config.load (run (.scan checkoutScan) checkoutFiles).files ⟨"."⟩ =
        .ok ⟨.default, false⟩ ∧
      (run (.scan checkoutScan) checkoutFiles).files.Opens ⟨"./build"⟩ ["build"] ∧
      ((run (.scan checkoutScan) checkoutFiles).files.makeParents ⟨"docs/report.json"⟩).2.isOk =
        true ∧
      (((run (.scan checkoutScan) checkoutFiles).files.makeParents
        ⟨"docs/report.json"⟩).1.writeFile ⟨"docs/report.json"⟩ .empty).isOk = true := by
    decide +kernel
  obtain ⟨hstatus, hload, hopens, hparents, hwrite⟩ := hrun
  have hscan : checkoutScan.ScansInto checkoutFiles ["build"] :=
    ⟨hstatus, ⟨.default, false⟩, by decide +kernel, by decide +kernel⟩
  have hreport : checkoutReport.ReportsFrom (run (.scan checkoutScan) checkoutFiles).files
      ["build"] "Shop" ⟨"docs/report.json"⟩ :=
    ⟨⟨⟨.default, false⟩, hload, by decide, rfl, hopens, by decide +kernel⟩,
      FileSystem.writable_of_isOk hparents hwrite⟩
  exact ⟨hscan, hreport, report_after_scan sized_checkoutFiles hscan rfl hreport⟩

end Command

end LivingDocs
