import LivingDocs.Artifact.Entities
import LivingDocs.Report

/-!
# Reports on file

A report is kept as one JSON object. Each of its records may also be written as an array of its
fields in order. Members that do not belong to a record are skipped, whatever they hold; only the
category of an example has to be readable in full.

## Main definitions

* `LivingDocs.Report.toJson`, `LivingDocs.Report.ofJson?` — a report as a JSON value.
* `LivingDocs.Report.encode`, `LivingDocs.Report.decode?` — a report as a text.
-/

set_option autoImplicit false

namespace LivingDocs.Report

open Json

/-- The members of an entry that say where it was declared. -/
def Place.toMembers (place : Place) : List (String × Json) :=
  [("file", ofString place.file), ("line", Json.ofNat place.line)]

/-- A place, from its two fields. -/
def Place.ofFields? (file line : Json) : Option Place := do
  return ⟨← file.text?, ← Location.line? line⟩

/-- A place as a JSON value. -/
def Place.toJson (place : Place) : Json := ofMembers place.toMembers

/-- The place of a JSON value. -/
def Place.ofJson? (value : Json) : Option Place := do
  match ← value.record? ["file", "line"] with
  | [file, line] => Place.ofFields? file line
  | _ => none

/-- A category as a JSON value. -/
def Category.toJson : Category → Json
  | .feature owner name => ofMembers [("kind", ofString "component"),
      ("component", ofString owner), ("feature", ofString name)]
  | .journey name => ofMembers [("kind", ofString "journey"), ("journey", ofString name)]

/-- How many arrays and objects a category stands in: the report, its examples, and one of them. -/
def Category.level : Nat := 3

/-- The category of a tag and of further items. -/
def Category.ofItems? (tag : String) (items : List Json) : Option Category :=
  match tag, items with
  | "component", [owner, name] => return .feature (← owner.text?) (← name.text?)
  | "journey", [name] => return .journey (← name.text?)
  | _, _ => none

/-- The category of a tag and of further members. -/
def Category.ofMembers? (tag : String) (members : List (String × Json)) : Option Category :=
  match tag with
  | "component" => do
    Category.ofItems? tag [← required? "component" members, ← required? "feature" members]
  | "journey" => do Category.ofItems? tag [← required? "journey" members]
  | _ => none

/-- The category of a JSON value, which says under `kind` or as its first item what it is. -/
def Category.ofJson? (value : Json) : Option Category :=
  if value.isReadable level then
    match value with
    | .array (tag :: items) => do Category.ofItems? (← tag.text?) items
    | _ => do
      let members ← value.members?
      Category.ofMembers? (← (← required? "kind" members).text?) members
  else none

/-- A component as a JSON value. -/
def ComponentEntry.toJson (c : ComponentEntry) : Json :=
  ofMembers ([("component", ofString c.name), ("desc", ofString c.desc),
    ("tags", ofStrings c.tags), ("features", ofStrings c.features)] ++ c.place.toMembers)

/-- The component of a JSON value. -/
def ComponentEntry.ofJson? (value : Json) : Option ComponentEntry := do
  match ← value.record? ["component", "desc", "tags", "features", "file", "line"] with
  | [name, desc, tags, features, file, line] =>
    return ⟨← name.text?, ← desc.text?, ← tags.texts?, ← features.texts?,
      ← Place.ofFields? file line⟩
  | _ => none

/-- Which value each variable has, as a JSON value. -/
def bindingsToJson (bindings : OrderedMap String String) : Json :=
  ofMembers (bindings.toList.map fun m => (m.1, ofString m.2))

/-- Which value each variable has; of several values of one variable the last one counts. -/
def bindingsOfJson? (value : Json) : Option (OrderedMap String String) := do
  let members ← value.members?
  let pairs ← members.mapM fun m => m.2.text?.map fun text => (m.1, text)
  return OrderedMap.ofList pairs

/-- An example as a JSON value. -/
def ExampleEntry.toJson (e : ExampleEntry) : Json :=
  ofMembers [("category", e.category.toJson), ("example", ofString e.name),
    ("variables", bindingsToJson e.bindings), ("tags", ofStrings e.tags),
    ("type", e.kind.toJson), ("locations", .array (e.places.map Place.toJson))]

/-- The example of a JSON value. -/
def ExampleEntry.ofJson? (value : Json) : Option ExampleEntry := do
  match ← value.record? ["category", "example", "variables", "tags", "type", "locations"] with
  | [category, name, bindings, tags, kind, places] =>
    return ⟨← Category.ofJson? category, ← name.text?, ← bindingsOfJson? bindings,
      ← tags.texts?, ← ExampleKind.ofJson? kind, ← (← places.items?).mapM Place.ofJson?⟩
  | _ => none

/-- A crosscut as a JSON value. -/
def CrosscutEntry.toJson (c : CrosscutEntry) : Json :=
  ofMembers (("name", ofString c.name) :: c.place.toMembers)

/-- The crosscut of a JSON value. -/
def CrosscutEntry.ofJson? (value : Json) : Option CrosscutEntry := do
  match ← value.record? ["name", "file", "line"] with
  | [name, file, line] => return ⟨← name.text?, ← Place.ofFields? file line⟩
  | _ => none

/-- A journey as a JSON value. -/
def JourneyEntry.toJson (j : JourneyEntry) : Json :=
  ofMembers ([("name", ofString j.name), ("desc", ofString j.desc)] ++ j.place.toMembers)

/-- The journey of a JSON value. -/
def JourneyEntry.ofJson? (value : Json) : Option JourneyEntry := do
  match ← value.record? ["name", "desc", "file", "line"] with
  | [name, desc, file, line] => return ⟨← name.text?, ← desc.text?, ← Place.ofFields? file line⟩
  | _ => none

/-- A variable as a JSON value. -/
def VariableEntry.toJson (v : VariableEntry) : Json :=
  ofMembers ([("name", ofString v.name), ("values", ofStrings v.values)] ++ v.place.toMembers)

/-- The variable of a JSON value. -/
def VariableEntry.ofJson? (value : Json) : Option VariableEntry := do
  match ← value.record? ["name", "values", "file", "line"] with
  | [name, values, file, line] =>
    return ⟨← name.text?, ← values.texts?, ← Place.ofFields? file line⟩
  | _ => none

/-- **A report as a JSON value.** -/
def toJson (report : Report) : Json :=
  ofMembers [("app", ofString report.app),
    ("components", .array (report.components.map ComponentEntry.toJson)),
    ("examples", .array (report.examples.map ExampleEntry.toJson)),
    ("crosscuts", .array (report.crosscuts.map CrosscutEntry.toJson)),
    ("journeys", .array (report.journeys.map JourneyEntry.toJson)),
    ("variables", .array (report.vars.map VariableEntry.toJson))]

/-- **The report of a JSON value.** -/
def ofJson? (value : Json) : Option Report := do
  match ← value.record? ["app", "components", "examples", "crosscuts", "journeys",
      "variables"] with
  | [app, components, examples, crosscuts, journeys, vars] =>
    return ⟨← app.text?, ← (← components.items?).mapM ComponentEntry.ofJson?,
      ← (← examples.items?).mapM ExampleEntry.ofJson?,
      ← (← crosscuts.items?).mapM CrosscutEntry.ofJson?,
      ← (← journeys.items?).mapM JourneyEntry.ofJson?,
      ← (← vars.items?).mapM VariableEntry.ofJson?⟩
  | _ => none

/-- A report as the content of a file. -/
def encode (report : Report) : String := Artifact.content report.toJson

/-- The report in the content of a file. -/
def decode? (text : String) : Option Report := (parse? text).bind ofJson?

end LivingDocs.Report
