import LivingDocs.Path
import LivingDocs.Config.Basic

/-!
# Console texts

What a finished command tells its user.

## Main definitions

* `LivingDocs.Console.Summary` — what a command has done.
* `LivingDocs.Console.Summary.text`, `LivingDocs.Console.problemsText`,
  `LivingDocs.Console.skippedText` — how it is told.
* `LivingDocs.Console.overview` — what is told when no command is given.
-/

set_option autoImplicit false

namespace LivingDocs.Console

/-- What a scan has done. -/
structure ScanSummary where
  filesScanned : Nat := 0
  /-- The number of paths that could not be looked at. -/
  skipped : Nat := 0
  components : Nat := 0
  examples : Nat := 0
  vars : Nat := 0
  crosscuts : Nat := 0
  journeys : Nat := 0
  /-- The files that were written, in order. -/
  written : List Path := []
  deriving DecidableEq, Repr

/-- What a report has done. -/
structure ReportSummary where
  app : String
  components : Nat := 0
  examples : Nat := 0
  journeys : Nat := 0
  /-- The file that was written, if there was nothing wrong. -/
  written : Option Path := none
  deriving DecidableEq, Repr

/-- **What a command has done.** -/
inductive Summary where
  | scan (summary : ScanSummary)
  | report (summary : ReportSummary)
  /-- Whether the configuration was made. -/
  | init (created : Bool)
  deriving DecidableEq, Repr

/-- The mark of success. -/
def successMark : String := "✓"

/-- The mark of failure. -/
def failureMark : String := "✘"

/-- A text as a line. -/
def line (text : String) : String := text ++ "\n"

/-- A number of things. -/
def plural (count : Nat) (noun : String) : String :=
  if count = 1 then s!"{count} {noun}" else s!"{count} {noun}s"

/-- A line of warning. -/
def warning (message : String) : String := line s!"warning: {message}"

/-- A line of additional information. -/
def note (message : String) : String := line s!"note: {message}"

/-- A line about a file that was written. -/
def wrote (path : Path) : String := line s!"  wrote {path.text}"

/-- The summary of a scan; the files that were written are listed on demand. -/
def ScanSummary.text (summary : ScanSummary) (verbose : Bool) : String :=
  let counts := ", ".intercalate [
    plural summary.components "component",
    plural summary.examples "example",
    plural summary.vars "variable",
    plural summary.crosscuts "crosscut",
    plural summary.journeys "journey"]
  let files := plural summary.filesScanned "file"
  line s!"{successMark} Scanned {files} - {counts}" ++
    if verbose then String.join (summary.written.map wrote) else ""

/-- The summary of a report that was written. -/
def ReportSummary.text (summary : ReportSummary) : String :=
  match summary.written with
  | none => ""
  | some path =>
    let counts := ", ".intercalate [
      plural summary.components "component",
      plural summary.examples "example",
      plural summary.journeys "journey"]
    line s!"{successMark} Report for {summary.app} - {counts}" ++ wrote path

/-- **The summary of a command.** -/
def Summary.text (verbose : Bool) : Summary → String
  | scan summary => summary.text verbose
  | report summary => summary.text
  | init created => if created then line s!"{successMark} Created {Config.fileName}" else ""

/-- **The problems of a command** under a title. -/
def problemsText (title : String) (problems : List String) : String :=
  let count := plural problems.length "problem"
  line s!"error: {title}" ++
    String.join (problems.map fun problem => line s!"  {failureMark} {problem}") ++
    line s!"\n{count} found, nothing written"

/-- The hint at paths that could not be looked at, unless they have been told about one by one. -/
def skippedText (verbose : Bool) : Summary → String
  | .scan summary =>
    if summary.skipped > 0 && !verbose then
      let skipped := plural summary.skipped "path"
      warning s!"{skipped} skipped due to access errors (use -v for details)"
    else ""
  | _ => ""

/-- **What is told when no command is given.** -/
def overview : String :=
  String.join ([
    "A CLI tool that collects living documentation from annotations in test files",
    "",
    "Usage: aerial [COMMAND]",
    "",
    "Commands:",
    "  scan    Scan files for annotations and write the intermediate JSON files",
    "  report  Collate scanned annotations into a report",
    "  init    Initialize a new .aerialrc.json configuration file",
    "  help    Print this message or the help of the given subcommand(s)",
    "",
    "Options:",
    "  -h, --help     Print help",
    "  -V, --version  Print version"].map line)

end LivingDocs.Console
