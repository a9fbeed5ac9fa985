import LivingDocs.Collation.Lookup
import LivingDocs.Collation.Problem
import LivingDocs.Corpus

/-!
# Collation

Entities are brought together into a report: examples of one name become one entry, their category
is resolved to a feature or a journey, and each value they make use of to its variable.

Variables, crosscuts and journeys are all needed, so the first of them without a file ends the
collation. A component or a group of examples with a problem is left out, and the problem is
noted; only without any problem is there a report.

## Main definitions

* `LivingDocs.Collation.Sources` — the five lists of entities.
* `LivingDocs.Collation.groupByName` — examples of one name together.
* `LivingDocs.Collation.mergeExamples` — one entry for a group of examples.
* `LivingDocs.Collation.collate` — the report, or why there is none, with the warnings.
-/

set_option autoImplicit false

namespace LivingDocs.Collation

/-- **The entities that a report is made from**, in the order in which they are to appear. -/
structure Sources where
  components : List Component
  crosscuts : List Crosscut
  journeys : List Journey
  examples : List Example
  vars : List Variable
  deriving DecidableEq

/-- The entities of a corpus, in ascending order. -/
def Sources.ofCorpus (corpus : Corpus) : Sources where
  components := corpus.components.toList
  crosscuts := corpus.crosscuts.toList
  journeys := corpus.journeys.toList
  examples := corpus.examples.toList
  vars := corpus.vars.toList

/-- The values among several results. -/
def successes {ε α : Type} (results : List (Except ε α)) : List α :=
  results.filterMap Except.toOption

/-- The errors among several results. -/
def failures {ε α : Type} (results : List (Except ε α)) : List ε :=
  results.filterMap fun
    | .ok _ => none
    | .error e => some e

/-- The place of an entity, whose file has to be known. -/
def requirePlace (subject : Subject) (name : String) (location : Location) :
    Except Problem Report.Place :=
  match location.file with
  | some file => .ok ⟨file, location.line⟩
  | none => .error (.missingFile subject name)

/-- The entry of a component. -/
def componentEntry (c : Component) : Except Problem Report.ComponentEntry :=
  match requirePlace .ofComponent c.name c.location with
  | .ok place => .ok ⟨c.name, c.desc, c.tags.toList, c.features.toList, place⟩
  | .error _ => .error (.component c.location.line c.name)

/-- The entry of a variable. -/
def variableEntry (v : Variable) : Except Problem Report.VariableEntry :=
  (requirePlace .ofVariable v.name v.location).map fun place => ⟨v.name, v.values.toList, place⟩

/-- The entry of a crosscut. -/
def crosscutEntry (c : Crosscut) : Except Problem Report.CrosscutEntry :=
  (requirePlace .ofCrosscut c.name c.location).map fun place => ⟨c.name, place⟩

/-- The entry of a journey. -/
def journeyEntry (j : Journey) : Except Problem Report.JourneyEntry :=
  (requirePlace .ofJourney j.name j.location).map fun place => ⟨j.name, j.desc, place⟩

/-! ## Groups of examples -/

/-- Puts an example at the end of the group of its name, or of a new group at the end. -/
def addToGroup (e : Example) : List (String × List Example) → List (String × List Example)
  | [] => [(e.name, [e])]
  | group :: groups =>
    if group.1 = e.name then (group.1, group.2 ++ [e]) :: groups
    else group :: addToGroup e groups

/-- Examples of one name together, in the order in which the names are first seen. -/
def groupByName (examples : List Example) : List (String × List Example) :=
  examples.foldl (fun groups e => addToGroup e groups) []

/-- **What references are resolved against.** -/
structure Lookups where
  /-- From a feature to its component. -/
  features : OrderedMap String String
  /-- The names of the journeys. -/
  journeys : OrderedSet String
  /-- From a value to its variable. -/
  values : OrderedMap String String
  deriving DecidableEq

/-- The category that a group of examples shares; a feature comes before a journey of that name. -/
def findCategory (lookups : Lookups) (name : String) (examples : List Example) :
    Except Problem Report.Category :=
  match (OrderedSet.ofList (examples.map Example.category)).toList with
  | [category] =>
    match lookups.features.get? category with
    | some component => .ok (.feature component category)
    | none =>
      if category ∈ lookups.journeys.toList then .ok (.journey category)
      else .error (.unresolvedCategory category name)
  | _ => .error (.multipleCategories name)

/-- Puts each value under the name of its variable; of two values of one variable the later one
stays. -/
def resolveValues (index : OrderedMap String String) (values : List String) :
    Except Problem (OrderedMap String String) :=
  values.foldlM (fun bindings value =>
    match index.get? value with
    | some name => .ok (bindings.insert name value)
    | none => .error (.unresolvedValue value)) ∅

/-- The elements of the sets of several examples, in ascending order. -/
def gather (field : Example → OrderedSet String) (examples : List Example) : List String :=
  (OrderedSet.ofList (examples.flatMap fun e => (field e).toList)).toList

/-- **One entry for a group of examples.** The category is resolved first, then the places are
looked at, then the values. -/
def mergeExamples (lookups : Lookups) (name : String) (examples : List Example) :
    Except Problem Report.ExampleEntry := do
  let category ← findCategory lookups name examples
  let places ← examples.mapM fun e => requirePlace .ofExample e.name e.location
  let bindings ← resolveValues lookups.values (gather Example.values examples)
  return {
    category, name, bindings
    tags := gather Example.tags examples
    kind := ExampleKind.merge (examples.map Example.kind)
    places }

/-! ## The whole report -/

/-- The report, or why there is none, and the ambiguities that were met. -/
structure Outcome where
  warnings : List Warning
  result : Except Failure Report

/-- **Collates the entities of an application.** -/
def collate (app : String) (sources : Sources) : Outcome :=
  let componentResults := sources.components.map componentEntry
  let components := successes componentResults
  let needed : Except Problem _ := do
    let vars ← sources.vars.mapM variableEntry
    let crosscuts ← sources.crosscuts.mapM crosscutEntry
    let journeys ← sources.journeys.mapM journeyEntry
    return (vars, crosscuts, journeys)
  match needed with
  | .error problem => ⟨[], .error (.aborted problem)⟩
  | .ok (vars, crosscuts, journeys) =>
    let features := ofFeatures components
    let values := ofValues vars
    let lookups : Lookups :=
      ⟨features.index, OrderedSet.ofList (journeys.map Report.JourneyEntry.name), values.index⟩
    let exampleResults := (groupByName sources.examples).map fun group =>
      mergeExamples lookups group.1 group.2
    let warnings := features.ambiguities.map .feature ++ values.ambiguities.map .value
    match failures componentResults ++ failures exampleResults with
    | [] =>
      ⟨warnings, .ok {
        app, components, crosscuts, journeys, vars
        examples := successes exampleResults }⟩
    | problems => ⟨warnings, .error (.problems problems)⟩

end LivingDocs.Collation
