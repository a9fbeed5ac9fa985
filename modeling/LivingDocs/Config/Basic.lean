import LivingDocs.Block.Grammar
import LivingDocs.Glob
import LivingDocs.Json.Fields
import LivingDocs.Json.Printer
import LivingDocs.Json.Reader

/-!
# The configuration of a project

What a project can set, with a default for each setting. A configuration is kept as a JSON object,
or as an array of its settings in order, of which the last ones may be left out.

## Main definitions

* `LivingDocs.Config` — the settings.
* `LivingDocs.Config.toJson`, `LivingDocs.Config.ofJson?`, `LivingDocs.Config.parse?` — on file.
* `LivingDocs.Config.Fault`, `LivingDocs.Config.validate` — settings that make no sense.
-/

set_option autoImplicit false

namespace LivingDocs

open Json

/-- **The settings of a project.** -/
structure Config where
  /-- The name of the application. -/
  app : Option String := none
  /-- Patterns for names of files and directories that are not looked at. -/
  exclude : List String := []
  /-- Whether ignore files have a say in what is looked at. -/
  readGitignore : Bool := true
  /-- Whether files are scanned that do not look like tests. -/
  scanNonTests : Bool := false
  /-- Whether files without an extension are scanned. -/
  scanExtensionless : Bool := false
  /-- The directory where the entities are kept. -/
  outputDir : String := "build/"
  /-- The stem of the block keywords. -/
  keywordPrefix : String := Block.Grammar.defaultStem
  deriving DecidableEq, Repr

namespace Config

/-- The settings of a project that sets nothing. -/
def default : Config := {}

/-- The name of the configuration file. -/
def fileName : String := ".aerialrc.json"

/-! ## On file -/

/-- The configuration as a JSON value; an application without a name is left out. -/
def toJson (config : Config) : Json :=
  let app := match config.app with
    | some name => [("app", ofString name)]
    | none => []
  ofMembers (app ++ [
    ("exclude", .array (config.exclude.map ofString)),
    ("readGitignore", .bool config.readGitignore),
    ("scanNonTests", .bool config.scanNonTests),
    ("scanExtensionless", .bool config.scanExtensionless),
    ("outputDir", ofString config.outputDir),
    ("keywordPrefix", ofString config.keywordPrefix)])

/-- The default configuration in words, as it is written for a new project. -/
def defaultText : String := default.toJson.pretty

/-- The names of the settings, in order; the name of the application has two. -/
def fieldNames : List (List String) :=
  [["app", "system"], ["exclude"], ["readGitignore"], ["scanNonTests"], ["scanExtensionless"],
    ["outputDir"], ["keywordPrefix"]]

/-- A setting that may be left out. -/
def setting? {α : Type} (dflt : α) (read : Json → Option α) : Option Json → Option α
  | none => some dflt
  | some value => read value

/-- A name that may be null. -/
def name? : Json → Option (Option String)
  | .null => some none
  | value => value.text?.map some

/-- The configuration of a JSON value. -/
def ofJson? (value : Json) : Option Config := do
  match ← value.fields? fieldNames with
  | [app, exclude, readGitignore, scanNonTests, scanExtensionless, outputDir, keywordPrefix] =>
    return {
      app := ← setting? default.app name? app
      exclude := ← setting? default.exclude texts? exclude
      readGitignore := ← setting? default.readGitignore bool? readGitignore
      scanNonTests := ← setting? default.scanNonTests bool? scanNonTests
      scanExtensionless := ← setting? default.scanExtensionless bool? scanExtensionless
      outputDir := ← setting? default.outputDir text? outputDir
      keywordPrefix := ← setting? default.keywordPrefix text? keywordPrefix }
  | _ => none

/-- **The configuration in the content of a file.** -/
def parse? (text : String) : Option Config := (Json.parse? text).bind ofJson?

/-! ## Settings that make no sense -/

/-- Why settings make no sense. -/
inductive Fault where
  /-- A pattern for names is none. -/
  | invalidPattern (pattern : String) (error : Glob.Error)
  /-- The stem of the block keywords is blank. -/
  | blankPrefix
  deriving DecidableEq, Repr

/-- The fault in words. -/
def Fault.message : Fault → String
  | invalidPattern pattern error =>
    s!"Invalid glob pattern in 'exclude': \"{pattern}\": {error.message}"
  | blankPrefix => "'keywordPrefix' must not be blank"

/-- The fault of the first pattern that is none. -/
def patternFault? : List String → Option Fault
  | [] => none
  | pattern :: patterns =>
    match Glob.compile pattern with
    | .ok _ => patternFault? patterns
    | .error error => some (.invalidPattern pattern error)

/-- **Whether the settings make sense**, and otherwise the first reason why they do not: patterns
come before the stem. -/
def validate (config : Config) : Except Fault Unit :=
  match patternFault? config.exclude with
  | some fault => .error fault
  | none => if Text.isAllBlank config.keywordPrefix then .error .blankPrefix else .ok ()

end Config

end LivingDocs
