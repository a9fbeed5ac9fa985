import LivingDocs.Artifact.Store
import LivingDocs.Command.Request
import LivingDocs.Command.Session
import LivingDocs.Selection.Basic

/-!
# Scanning

Selects files, gathers their entities, and keeps these in an output directory. If a block is
malformed, nothing is written.

## Main definitions

* `LivingDocs.Command.scanFile`, `LivingDocs.Command.scanFiles` — the corpus of files.
* `LivingDocs.Command.scan` — the command.
-/

set_option autoImplicit false

namespace LivingDocs.Command

/-- The corpus of a file, whose entities are stamped with its absolute path. -/
def scanFile (grammar : Block.Grammar) (path : Path) : Action Corpus := do
  let content ← Action.readFile path
  let file := match (← Action.files).canonical path with
    | .ok absolute => absolute
    | .error _ => path.text
  return Corpus.ofLines grammar file (Text.lines (Text.Utf8.decodeLossy content))

/-- The corpus of several files. -/
def scanFiles (grammar : Block.Grammar) (paths : List Path) : Action Corpus :=
  paths.foldlM (fun corpus path => return corpus.merge (← scanFile grammar path)) ∅

/-- Writes the files of a corpus into a directory; their paths in order. -/
def writeCorpus (directory : Path) (corpus : Corpus) : Action (List Path) := do
  Action.makeDirectories directory
  (Artifact.contents directory corpus).mapM fun (path, text) => do
    Action.writeText (Failure.unwritable path) path text
    return path

/-- The configuration with what is asked for in a scan. -/
def ScanRequest.amend (request : ScanRequest) (config : Config) : Config :=
  { config with
    exclude := config.exclude ++ request.exclude
    readGitignore := config.readGitignore && !request.noIgnoreFiles
    scanNonTests := config.scanNonTests || request.nonTests
    scanExtensionless := config.scanExtensionless || request.extensionless }

/-- What the configuration asks for in a selection. -/
def selectionOptions (config : Config) : Selection.Options where
  exclude := config.exclude
  readIgnoreFiles := config.readGitignore
  nonTests := config.scanNonTests
  extensionless := config.scanExtensionless

/-- The summary of a scan before anything is written. -/
def scanSummary (selection : Selection) (corpus : Corpus) : Console.ScanSummary where
  filesScanned := selection.files.length
  skipped := selection.skipped
  components := corpus.components.size
  examples := corpus.examples.size
  vars := corpus.vars.size
  crosscuts := corpus.crosscuts.size
  journeys := corpus.journeys.size

/-- The notices about a selection, one on a line. -/
def noticesText (notices : List Selection.Notice) : String :=
  String.join (notices.map fun notice => Console.warning notice.message)

/-- The title of malformed blocks. -/
def malformedTitle : String := "Problems encountered while parsing files!"

/-- **Scans files.** -/
def scan (request : ScanRequest) : Action Result := do
  let config := request.amend (← projectConfig request.verbose)
  Action.ofExcept (Failure.configuration ∘ .invalid) config.validate
  let selection := Selection.select (← Action.files) (selectionOptions config) request.paths
  if request.verbose then Action.tell (noticesText selection.notices)
  let corpus ← scanFiles (Block.Grammar.standard config.keywordPrefix) selection.files
  let summary := scanSummary selection corpus
  if corpus.hasErrors then
    return { summary := .scan summary, title := malformedTitle, problems := corpus.errors }
  else
    let written ← writeCorpus (request.output.getD ⟨config.outputDir⟩) corpus
    return { summary := .scan { summary with written } }

end LivingDocs.Command
