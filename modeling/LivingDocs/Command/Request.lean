import LivingDocs.Command.Arguments
import LivingDocs.Path

/-!
# Requests

What a user asks for: to scan files, to write a report, to set up a configuration, or nothing in
particular.

## Main definitions

* `LivingDocs.Command.ScanRequest`, `LivingDocs.Command.ReportRequest`,
  `LivingDocs.Command.Request` — what is asked for.
* `LivingDocs.Command.Request.ofArguments` — the request of a command line.
-/

set_option autoImplicit false

namespace LivingDocs.Command

/-- What is asked for with a scan. -/
structure ScanRequest where
  /-- The files and directories to scan. -/
  paths : List Path
  /-- Where the entities are kept, if not as configured. -/
  output : Option Path
  /-- Patterns besides the configured ones. -/
  exclude : List String
  noIgnoreFiles : Bool
  nonTests : Bool
  extensionless : Bool
  verbose : Bool
  deriving DecidableEq, Repr

/-- What is asked for with a report. -/
structure ReportRequest where
  /-- The name of the application, if not as configured. -/
  app : Option String
  /-- Where the entities are kept, if not as configured. -/
  dir : Option Path
  /-- Where the report is written, if not beside the entities. -/
  output : Option Path
  verbose : Bool
  deriving DecidableEq, Repr

/-- **What a user asks for.** -/
inductive Request where
  | scan (request : ScanRequest)
  | report (request : ReportRequest)
  | init
  /-- No command is given. -/
  | overview
  deriving DecidableEq, Repr

/-- The commands. -/
inductive Verb where
  | scan
  | report
  | init
  | help
  deriving DecidableEq, Repr

/-- The command of that name. -/
def Verb.ofName? : String → Option Verb
  | "scan" => some .scan
  | "report" => some .report
  | "init" => some .init
  | "help" => some .help
  | _ => none

/-- The switch that asks for help. -/
def helpSwitch : Switch := ⟨"help", some 'h', .ending .help⟩

/-- The switch that asks for more output. -/
def verboseSwitch : Switch := ⟨"verbose", some 'v', .nothing⟩

/-- What may be given with a scan. -/
def scanShape : Shape where
  switches := [
    ⟨"output", some 'o', .path⟩,
    ⟨"exclude", some 'x', .texts⟩,
    ⟨"no-gitignore", none, .nothing⟩,
    ⟨"scan-non-tests", none, .nothing⟩,
    ⟨"scan-extensionless", none, .nothing⟩,
    verboseSwitch,
    helpSwitch]
  free := true

/-- What may be given with a report. -/
def reportShape : Shape where
  switches := [
    ⟨"app", none, .text⟩,
    ⟨"dir", some 'd', .path⟩,
    ⟨"output", some 'o', .path⟩,
    verboseSwitch,
    helpSwitch]
  free := false

/-- What may be given with the set-up of a configuration. -/
def initShape : Shape where
  switches := [helpSwitch]
  free := false

/-- What may be given before a command. -/
def topShape : Shape where
  switches := [helpSwitch, ⟨"version", some 'V', .ending .version⟩]
  free := false

namespace Request

/-- The request for a scan; at least one path is needed. -/
def ofScan (arguments : List String) : Except Refusal Request := do
  let given ← scanShape.read arguments
  if given.free.isEmpty then throw .missingArgument
  return .scan {
    paths := given.free.map Path.mk
    output := (given.value? "output").map Path.mk
    exclude := given.valuesOf "exclude"
    noIgnoreFiles := given.has "no-gitignore"
    nonTests := given.has "scan-non-tests"
    extensionless := given.has "scan-extensionless"
    verbose := given.has "verbose" }

/-- The request for a report; the name of the application may come from the environment. -/
def ofReport (environment : Option String) (arguments : List String) :
    Except Refusal Request := do
  let given ← reportShape.read arguments
  return .report {
    app := (given.value? "app").or environment
    dir := (given.value? "dir").map Path.mk
    output := (given.value? "output").map Path.mk
    verbose := given.has "verbose" }

/-- The request for the set-up of a configuration. -/
def ofInit (arguments : List String) : Except Refusal Request := do
  let _ ← initShape.read arguments
  return .init

/-- Help on a command: the names must be those of a command and of nothing below it. -/
def ofHelp : List String → Refusal
  | [] => .help
  | [name] => if (Verb.ofName? name).isSome then .help else .unknownCommand
  | _ => .unknownCommand

/-- The request behind a lone `--`, where a command may not stand. -/
def ofLiteral : List String → Except Refusal Request
  | [] => .ok .overview
  | argument :: _ =>
    if (Verb.ofName? argument).isSome then .error .unknownArgument else .error .unknownCommand

/-- Whether an argument has the form of a switch. -/
def isSwitch (argument : String) : Bool := argument.toList.head? = some '-' && argument ≠ "-"

/-- **The request of a command line**, given the name of the application in the environment. -/
def ofArguments (environment : Option String) : List String → Except Refusal Request
  | [] => .ok .overview
  | "--" :: arguments => ofLiteral arguments
  | first :: arguments =>
    match Verb.ofName? first with
    | some .scan => ofScan arguments
    | some .report => ofReport environment arguments
    | some .init => ofInit arguments
    | some .help => .error (ofHelp arguments)
    | none =>
      if isSwitch first then (topShape.read [first]).map fun _ => .overview
      else .error .unknownCommand

end Request

end LivingDocs.Command
