import LivingDocs.Collation.Basic
import LivingDocs.Config.Discovery
import LivingDocs.Console

/-!
# Sessions

A command runs in a session: it reads and writes files, tells what is worth telling while it runs,
and ends with a result or with a failure. What has been written before a failure stays.

## Main definitions

* `LivingDocs.Command.Session` — what a command can change.
* `LivingDocs.Command.Failure` — why a command broke off.
* `LivingDocs.Command.Action` — a step of a command.
* `LivingDocs.Command.Result` — what a command has come to.
-/

set_option autoImplicit false

namespace LivingDocs.Command

/-- **What a command can change.** -/
structure Session where
  files : FileSystem
  /-- What has been told so far, besides the result. -/
  told : String := ""
  /-- The ambiguities that have been met. -/
  warnings : List Collation.Warning := []

/-- **Why a command broke off.** -/
inductive Failure where
  /-- The configuration cannot be loaded. -/
  | configuration (fault : Config.LoadFault)
  /-- The name of the application is not given. -/
  | namelessApp
  /-- A file cannot be read. -/
  | unreadable (path : Path) (fault : FileSystem.Fault)
  /-- The content of a file is not what it should be. -/
  | malformed (path : Path)
  /-- A directory cannot be made. -/
  | noDirectory (path : Path) (fault : FileSystem.Fault)
  /-- A file cannot be written. -/
  | unwritable (path : Path) (fault : FileSystem.Fault)
  /-- The configuration file cannot be written. -/
  | noConfiguration (fault : FileSystem.Fault)
  deriving DecidableEq, Repr

/-- The failure in words. -/
def Failure.message : Failure → String
  | configuration fault => fault.message
  | namelessApp => "No application name given. Pass --app or set \"app\" in .aerialrc.json"
  | unreadable path fault => s!"Failed to read file: {path.text}: {fault.message}"
  | malformed path => s!"Failed to parse JSON: {path.text}: {Json.faultMessage}"
  | noDirectory path fault => s!"Failed to create directory: {path.text}: {fault.message}"
  | unwritable path fault => s!"Failed to write file: {path.text}: {fault.message}"
  | noConfiguration fault => s!"Failed to write {Config.fileName}: {fault.message}"

/-- **A step of a command.** A failure keeps what has been changed before it. -/
abbrev Action := ExceptT Failure (StateM Session)

namespace Action

/-- The step that takes a result as it is. -/
def ofExcept {ε α : Type} (blame : ε → Failure) : Except ε α → Action α
  | .ok a => pure a
  | .error e => throw (blame e)

/-- Tells something. -/
def tell (text : String) : Action Unit :=
  modify fun session => { session with told := session.told ++ text }

/-- Takes down the ambiguities that have been met. -/
def warn (warnings : List Collation.Warning) : Action Unit :=
  modify fun session => { session with warnings := session.warnings ++ warnings }

/-- The file system as it is. -/
def files : Action FileSystem := do return (← get).files

/-- The content of a file. -/
def readFile (path : Path) : Action ByteArray := do
  ofExcept (Failure.unreadable path) ((← files).readFile path)

/-- The content of a text file. -/
def readText (path : Path) : Action String := do
  ofExcept (Failure.unreadable path) ((← files).readText path)

/-- Goes on with another file system. -/
def replaceFiles (files : FileSystem) : Action Unit :=
  modify fun session => { session with files := files }

/-- Writes a text file. -/
def writeText (blame : FileSystem.Fault → Failure) (path : Path) (text : String) :
    Action Unit := do
  replaceFiles (← ofExcept blame ((← files).writeFile path (Text.Utf8.encode text)))

/-- Makes a directory and all directories above it that are missing. -/
def makeDirectories (path : Path) : Action Unit := do
  let (files, result) := (← files).makeDirectories path
  replaceFiles files
  ofExcept (Failure.noDirectory path) result

end Action

/-- **What a command has come to**: what it has done, and the problems that kept it from doing
more. -/
structure Result where
  summary : Console.Summary
  /-- The title of the problems. -/
  title : String := ""
  problems : List String := []
  deriving DecidableEq, Repr

/-- The configuration of the project around the working directory. -/
def projectConfig (verbose : Bool) : Action Config := do
  let loaded ← Action.ofExcept Failure.configuration (Config.load (← Action.files) ⟨"."⟩)
  if verbose && !loaded.fromFile then
    Action.tell (Console.note s!"No {Config.fileName} found, using default configuration")
  return loaded.config

end LivingDocs.Command
