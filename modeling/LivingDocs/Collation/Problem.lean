/-!
# Problems of a collation

Why entities cannot be brought together into a report, and the messages that say so. A problem of
one component or of one group of examples leaves the rest alone; a crosscut, journey or variable
without a file ends the whole collation.

## Main definitions

* `LivingDocs.Collation.Problem` — what is wrong with one entity or one group of examples.
* `LivingDocs.Collation.Failure` — why there is no report.
* `LivingDocs.Collation.Failure.messages`, `LivingDocs.Collation.Failure.message` — in words.
-/

set_option autoImplicit false

namespace LivingDocs.Collation

/-- The kinds of entities whose missing file is a problem of its own. -/
inductive Subject where
  | ofComponent
  | ofExample
  | ofVariable
  | ofCrosscut
  | ofJourney
  deriving DecidableEq, Repr

/-- The kind in words. -/
def Subject.noun : Subject → String
  | ofComponent => "component"
  | ofExample => "example"
  | ofVariable => "variable"
  | ofCrosscut => "crosscut"
  | ofJourney => "journey"

/-- **What is wrong** with one entity or with one group of examples. -/
inductive Problem where
  /-- The file of an entity is not known. -/
  | missingFile (subject : Subject) (name : String)
  /-- A component at a line of an unknown file cannot be used. -/
  | component (line : Nat) (name : String)
  /-- Examples of one name are in several categories, or there are none of them. -/
  | multipleCategories (name : String)
  /-- A category is neither a feature nor a journey. -/
  | unresolvedCategory (category name : String)
  /-- No variable has the value. -/
  | unresolvedValue (value : String)
  deriving DecidableEq, Repr

/-- What is said about an entity whose file is not known. -/
def missingFileMessage (subject : Subject) (name : String) : String :=
  s!"File not found for {subject.noun} {name}"

/-- The problem in words. -/
def Problem.message : Problem → String
  | missingFile subject name => missingFileMessage subject name
  | component line name =>
    s!"Cannot process component at <unknown>:{line}: {missingFileMessage .ofComponent name}"
  | multipleCategories name => s!"Multiple categories found for example {name}!"
  | unresolvedCategory category name =>
    s!"Category {category} for example {name} could not be mapped to either feature or journey!"
  | unresolvedValue value => s!"Failed to find a variable corresponding to value {value}"

/-- **Why there is no report.** -/
inductive Failure where
  /-- The first entity that ends the whole collation. -/
  | aborted (problem : Problem)
  /-- All problems of components and of groups of examples. -/
  | problems (all : List Problem)
  deriving DecidableEq, Repr

/-- One message for each problem. -/
def Failure.messages : Failure → List String
  | aborted problem => [problem.message]
  | problems all => all.map Problem.message

/-- The headline above a list of problems. -/
def Failure.headline : String := "Problems encountered while collating!"

/-- The failure in words. -/
def Failure.message : Failure → String
  | aborted problem => problem.message
  | problems all => headline ++ "\n" ++ "\n".intercalate (all.map Problem.message)

end LivingDocs.Collation
