import LivingDocs.Command.Init
import LivingDocs.Command.Report
import LivingDocs.Command.Scan

/-!
# Running a command

A request is carried out in a file system. What comes of it is another file system, what is told,
and an exit status.

## Main definitions

* `LivingDocs.Command.Status` — the exit status.
* `LivingDocs.Command.Outcome` — what comes of a command.
* `LivingDocs.Command.run` — carries out a request.
-/

set_option autoImplicit false

namespace LivingDocs.Command

/-- **The exit status.** -/
inductive Status where
  /-- The command has done what it was asked for. -/
  | success
  /-- There were problems, and nothing was written. -/
  | failure
  /-- The command broke off, or was not understood. -/
  | error
  deriving DecidableEq, Repr

/-- The number of a status. -/
def Status.code : Status → Nat
  | success => 0
  | failure => 1
  | error => 2

/-- The status of arguments that are not accepted. -/
def Refusal.status : Refusal → Status
  | help | version => .success
  | _ => .error

/-- The status of a result. -/
def Result.status (result : Result) : Status :=
  if result.problems.isEmpty then .success else .failure

/-- **What comes of a command.** -/
structure Outcome where
  status : Status
  /-- What is told as the result. -/
  stdout : String
  /-- What is told besides. -/
  stderr : String
  /-- Why the command broke off. -/
  failure : Option Failure
  /-- The ambiguities that were met. -/
  warnings : List Collation.Warning
  files : FileSystem

/-- What is told as the result: the summary, if there are no problems. -/
def Result.stdout (result : Result) (verbose : Bool) : String :=
  if result.problems.isEmpty then result.summary.text verbose else ""

/-- What is told besides: the problems, and paths that could not be looked at. -/
def Result.stderr (result : Result) (verbose : Bool) : String :=
  (if result.problems.isEmpty then "" else Console.problemsText result.title result.problems) ++
    Console.skippedText verbose result.summary

/-- What comes of a step of a command in a file system. -/
def Action.outcome (action : Action Result) (verbose : Bool) (files : FileSystem) : Outcome :=
  match action.run.run { files } with
  | (.ok result, session) =>
    { status := result.status
      stdout := result.stdout verbose
      stderr := session.told ++ result.stderr verbose
      failure := none
      warnings := session.warnings
      files := session.files }
  | (.error failure, session) =>
    { status := .error
      stdout := ""
      stderr := session.told
      failure := some failure
      warnings := session.warnings
      files := session.files }

/-- **Carries out a request.** -/
def run (request : Request) (files : FileSystem) : Outcome :=
  match request with
  | .scan request => (scan request).outcome request.verbose files
  | .report request => (report request).outcome request.verbose files
  | .init => init.outcome false files
  | .overview =>
    { status := .success
      stdout := Console.overview
      stderr := ""
      failure := none
      warnings := []
      files := files }

end LivingDocs.Command
