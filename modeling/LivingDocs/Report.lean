import LivingDocs.Entity
import LivingDocs.OrderedMap

/-!
# The report

What the documentation of an application consists of once every reference has been resolved.
Unlike an entity, each entry of a report has a file.

## Main definitions

* `LivingDocs.Report.Category` — what an example documents.
* `LivingDocs.Report.ComponentEntry`, `LivingDocs.Report.ExampleEntry`,
  `LivingDocs.Report.CrosscutEntry`, `LivingDocs.Report.JourneyEntry`,
  `LivingDocs.Report.VariableEntry` — the entries.
* `LivingDocs.Report` — a whole report.
-/

set_option autoImplicit false

namespace LivingDocs

namespace Report

/-- A line of a file. -/
structure Place where
  file : String
  line : Nat
  deriving DecidableEq, Repr

/-- **What an example documents**: a feature of a component, or a journey. -/
inductive Category where
  | feature (component feature : String)
  | journey (journey : String)
  deriving DecidableEq, Repr

/-- A component of the application. -/
structure ComponentEntry where
  name : String
  desc : String
  tags : List String
  features : List String
  place : Place
  deriving DecidableEq, Repr

/-- One or more examples of one name, merged. -/
structure ExampleEntry where
  category : Category
  name : String
  /-- Which value of each variable the example makes use of. -/
  bindings : OrderedMap String String
  tags : List String
  kind : ExampleKind
  /-- One place for each of the merged examples. -/
  places : List Place
  deriving DecidableEq

/-- A concern that many components share. -/
structure CrosscutEntry where
  name : String
  place : Place
  deriving DecidableEq, Repr

/-- A journey through the application. -/
structure JourneyEntry where
  name : String
  desc : String
  place : Place
  deriving DecidableEq, Repr

/-- A variable and its values. -/
structure VariableEntry where
  name : String
  values : List String
  place : Place
  deriving DecidableEq, Repr

end Report

/-- **The documentation of an application.** -/
structure Report where
  app : String
  components : List Report.ComponentEntry
  examples : List Report.ExampleEntry
  crosscuts : List Report.CrosscutEntry
  journeys : List Report.JourneyEntry
  vars : List Report.VariableEntry
  deriving DecidableEq

end LivingDocs
