import LivingDocs.Config.Basic
import LivingDocs.FileSystem.Basic
import LivingDocs.Text.Quoted

/-!
# Finding the configuration

The configuration of a project is looked for in a directory and then in those above it, as far as
the spelling of its path goes. The search ends at the top of a repository.

## Main definitions

* `LivingDocs.Config.findFile?` — the path of the configuration file.
* `LivingDocs.Config.load` — the configuration, or the default one if there is no file.
-/

set_option autoImplicit false

namespace LivingDocs.Config

/-- A directory with an entry of that name is the top of a repository. -/
def repositoryMark : String := ".git"

/-- The first configuration file in some directories, up to the top of a repository. -/
def search (files : FileSystem) : List Path → Option Path
  | [] => none
  | directory :: above =>
    if files.contains (directory.join fileName) then some (directory.join fileName)
    else if files.contains (directory.join repositoryMark) then none
    else search files above

/-- **The path of the configuration file**, looked for from a path upwards. -/
def findFile? (files : FileSystem) (start : Path) : Option Path := search files start.ancestors

/-- A configuration and where it comes from. -/
structure Loaded where
  config : Config
  /-- Whether it has been read, and is not the default one. -/
  fromFile : Bool
  deriving DecidableEq, Repr

/-- Why a configuration cannot be loaded. -/
inductive LoadFault where
  /-- The file cannot be read. -/
  | unreadable (path : Path) (fault : FileSystem.Fault)
  /-- The content of the file is no configuration. -/
  | malformed (path : Path)
  /-- The settings make no sense. -/
  | invalid (fault : Fault)
  deriving DecidableEq, Repr

/-- The fault in words. -/
def LoadFault.message : LoadFault → String
  | unreadable path fault =>
    s!"Failed to read config file: {Text.quoted path.text}: {fault.message}"
  | malformed path =>
    s!"Failed to parse config file: {Text.quoted path.text}: {Json.faultMessage}"
  | invalid fault => fault.message

/-- The configuration in a file. -/
def read (files : FileSystem) (path : Path) : Except LoadFault Config := do
  let text ← (files.readText path).mapError (LoadFault.unreadable path)
  match parse? text with
  | none => throw (.malformed path)
  | some config =>
    config.validate.mapError .invalid
    return config

/-- **The configuration that holds at a path.** -/
def load (files : FileSystem) (start : Path) : Except LoadFault Loaded :=
  match findFile? files start with
  | some path => (read files path).map fun config => ⟨config, true⟩
  | none => .ok ⟨default, false⟩

end LivingDocs.Config
