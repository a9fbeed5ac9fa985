import LivingDocs.Artifact.Store
import LivingDocs.Command.Request
import LivingDocs.Command.Session

/-!
# Reporting

Reads the entities that a scan has kept, collates them, and writes the report. If there are
problems, nothing is written.

## Main definitions

* `LivingDocs.Command.readSources` — the entities in a directory.
* `LivingDocs.Command.report` — the command.
-/

set_option autoImplicit false

namespace LivingDocs.Command

/-- The entities of one kind in a file. -/
def readEntities {α : Type} (ofJson? : Json → Option α) (path : Path) : Action (List α) := do
  match Artifact.decode? ofJson? (← Action.readText path) with
  | some entities => return entities
  | none => throw (.malformed path)

/-- **The entities in a directory.** -/
def readSources (directory : Path) : Action Collation.Sources := do
  let components ← readEntities Component.ofJson? (directory.join Artifact.componentsFile)
  let vars ← readEntities Variable.ofJson? (directory.join Artifact.variablesFile)
  let crosscuts ← readEntities Crosscut.ofJson? (directory.join Artifact.crosscutsFile)
  let journeys ← readEntities Journey.ofJson? (directory.join Artifact.journeysFile)
  let examples ← readEntities Example.ofJson? (directory.join Artifact.examplesFile)
  return { components, crosscuts, journeys, examples, vars }

/-- The name of the application that is asked for or else configured, unless it is blank. -/
def appName? (request : ReportRequest) (config : Config) : Option String :=
  (request.app.or config.app).filter fun app => !Text.isAllBlank app

/-- The title of the problems that kept entities from being collated. -/
def failureTitle : Collation.Failure → String
  | .aborted _ => "Collation aborted!"
  | .problems _ => Collation.Failure.headline

/-- Writes a report, and makes the directory for it. -/
def writeReport (path : Path) (report : Report) : Action Unit := do
  match path.parent? with
  | some directory => unless directory.text = "" do Action.makeDirectories directory
  | none => pure ()
  Action.writeText (Failure.unwritable path) path report.encode

/-- **Writes the report.** -/
def report (request : ReportRequest) : Action Result := do
  let config ← projectConfig request.verbose
  let some app := appName? request config | throw .namelessApp
  let directory := request.dir.getD ⟨config.outputDir⟩
  let output := request.output.getD (directory.join Artifact.reportFile)
  let outcome := Collation.collate app (← readSources directory)
  Action.warn outcome.warnings
  match outcome.result with
  | .error failure =>
    return {
      summary := .report { app }
      title := failureTitle failure
      problems := failure.messages }
  | .ok report =>
    writeReport output report
    return {
      summary := .report {
        app
        components := report.components.length
        examples := report.examples.length
        journeys := report.journeys.length
        written := some output } }

end LivingDocs.Command
