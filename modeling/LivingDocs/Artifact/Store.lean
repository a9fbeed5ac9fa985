import LivingDocs.Artifact.Report
import LivingDocs.Collation.Basic
import LivingDocs.Path

/-!
# Where artifacts are kept

The entities of a corpus are kept in five files of one directory, and the report beside them.

## Main definitions

* `LivingDocs.Artifact.componentsFile` and the other names — the names of the files.
* `LivingDocs.Artifact.contents` — the files of a corpus, in the order in which they are written.
-/

set_option autoImplicit false

namespace LivingDocs.Artifact

/-- The name of the file of components. -/
def componentsFile : String := "components.json"

/-- The name of the file of variables. -/
def variablesFile : String := "variables.json"

/-- The name of the file of crosscuts. -/
def crosscutsFile : String := "crosscuts.json"

/-- The name of the file of journeys. -/
def journeysFile : String := "journeys.json"

/-- The name of the file of examples. -/
def examplesFile : String := "examples.json"

/-- The name of the report file. -/
def reportFile : String := "report.json"

/-- **The files of a corpus** in a directory with their contents, in the order in which they are
written. -/
def contents (directory : Path) (corpus : Corpus) : List (Path × String) :=
  [(directory.join componentsFile, encode Component.toJson corpus.components.toList),
    (directory.join variablesFile, encode Variable.toJson corpus.vars.toList),
    (directory.join crosscutsFile, encode Crosscut.toJson corpus.crosscuts.toList),
    (directory.join journeysFile, encode Journey.toJson corpus.journeys.toList),
    (directory.join examplesFile, encode Example.toJson corpus.examples.toList)]

end LivingDocs.Artifact
