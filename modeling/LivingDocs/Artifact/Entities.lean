import LivingDocs.Entity
import LivingDocs.Json.Fields
import LivingDocs.Json.Printer
import LivingDocs.Json.Reader

/-!
# Entities on file

Entities of one kind are kept as a JSON array of objects. An object names the fields of its entity
and, among them, those of the place; the file may be missing. Other members are passed over, but
the whole text has to be readable in full.

## Main definitions

* `LivingDocs.Component.toJson`, `LivingDocs.Component.ofJson?`, and the same for the other kinds.
* `LivingDocs.Artifact.encode`, `LivingDocs.Artifact.decode?` — a list of entities as a text.
-/

set_option autoImplicit false

namespace LivingDocs

open Json

/-- Strings as an array. -/
def Json.ofStrings (texts : List String) : Json := .array (texts.map ofString)

/-- The set of the texts in an array of strings. -/
def Json.textSet? (value : Json) : Option (OrderedSet String) := value.texts?.map OrderedSet.ofList

namespace Location

/-- The greatest number of a line that can be kept on file. -/
def maxLine : Nat := Nat.pow 2 64 - 1

/-- The number of a line. -/
def line? (value : Json) : Option Nat := value.nat? maxLine

/-- The members of an entity that say where it was declared. -/
def toMembers (location : Location) : List (String × Json) :=
  [("file", match location.file with
    | some file => ofString file
    | none => .null),
   ("line", Json.ofNat location.line)]

/-- A file that may be missing or null. -/
def file? : Option Json → Option (Option String)
  | none => some none
  | some .null => some none
  | some value => value.text?.map some

/-- Where an entity was declared, read from its members. -/
def ofMembers? (members : List (String × Json)) : Option Location := do
  let file ← file? (← field? ["file"] members)
  let line ← line? (← required? "line" members)
  return ⟨file, line⟩

end Location

namespace ExampleKind

/-- The kind as it stands on file. -/
def tag : ExampleKind → String
  | plain => "EXAMPLE"
  | howTo => "HOW_TO"
  | todo => "TODO"

/-- The kind with a given tag. -/
def ofTag? (tag : String) : Option ExampleKind := [plain, howTo, todo].find? fun k => k.tag = tag

/-- The kind as a JSON value. -/
def toJson (kind : ExampleKind) : Json := ofString kind.tag

/-- The kind of a JSON value: its tag, or an object whose only member has the tag as its key and
null as its value. -/
def ofJson? : Json → Option ExampleKind
  | .string text => text.bind ofTag?
  | .object [(key, .null)] => key.bind ofTag?
  | _ => none

end ExampleKind

namespace Component

/-- A component as a JSON value. -/
def toJson (c : Component) : Json :=
  ofMembers ([("name", ofString c.name), ("desc", ofString c.desc),
    ("tags", ofStrings c.tags.toList), ("features", ofStrings c.features.toList)] ++
    c.location.toMembers)

/-- The component of a JSON value. -/
def ofJson? (value : Json) : Option Component := do
  let members ← value.members?
  let name ← (← required? "name" members).text?
  let desc ← (← required? "desc" members).text?
  let tags ← (← required? "tags" members).textSet?
  let features ← (← required? "features" members).textSet?
  let location ← Location.ofMembers? members
  return { name, desc, tags, features, location }

end Component

namespace Example

/-- An example as a JSON value. -/
def toJson (e : Example) : Json :=
  ofMembers ([("name", ofString e.name), ("category", ofString e.category),
    ("variables", ofStrings e.values.toList), ("tags", ofStrings e.tags.toList),
    ("type", e.kind.toJson)] ++ e.location.toMembers)

/-- The example of a JSON value. -/
def ofJson? (value : Json) : Option Example := do
  let members ← value.members?
  let name ← (← required? "name" members).text?
  let category ← (← required? "category" members).text?
  let values ← (← required? "variables" members).textSet?
  let tags ← (← required? "tags" members).textSet?
  let kind ← ExampleKind.ofJson? (← required? "type" members)
  let location ← Location.ofMembers? members
  return { name, category, values, tags, kind, location }

end Example

namespace Variable

/-- A variable as a JSON value. -/
def toJson (v : Variable) : Json :=
  ofMembers ([("name", ofString v.name), ("values", ofStrings v.values.toList)] ++
    v.location.toMembers)

/-- The variable of a JSON value. -/
def ofJson? (value : Json) : Option Variable := do
  let members ← value.members?
  let name ← (← required? "name" members).text?
  let values ← (← required? "values" members).textSet?
  let location ← Location.ofMembers? members
  return { name, values, location }

end Variable

namespace Crosscut

/-- A crosscut as a JSON value. -/
def toJson (c : Crosscut) : Json := ofMembers (("name", ofString c.name) :: c.location.toMembers)

/-- The crosscut of a JSON value. -/
def ofJson? (value : Json) : Option Crosscut := do
  let members ← value.members?
  let name ← (← required? "name" members).text?
  let location ← Location.ofMembers? members
  return { name, location }

end Crosscut

namespace Journey

/-- A journey as a JSON value. -/
def toJson (j : Journey) : Json :=
  ofMembers ([("name", ofString j.name), ("desc", ofString j.desc)] ++ j.location.toMembers)

/-- The description of a journey, which is empty if it is missing. -/
def desc? : Option Json → Option String
  | none => some ""
  | some value => value.text?

/-- The journey of a JSON value. -/
def ofJson? (value : Json) : Option Journey := do
  let members ← value.members?
  let name ← (← required? "name" members).text?
  let desc ← desc? (← field? ["desc"] members)
  let location ← Location.ofMembers? members
  return { name, desc, location }

end Journey

namespace Artifact

/-- A JSON value as the content of a file, which ends with a line feed. -/
def content (value : Json) : String := value.pretty ++ "\n"

/-- **A list of entities as the content of a file.** -/
def encode {α : Type} (toJson : α → Json) (entities : List α) : String :=
  content (.array (entities.map toJson))

/-- **The entities in the content of a file.** -/
def decode? {α : Type} (ofJson? : Json → Option α) (text : String) : Option (List α) := do
  let value ← parse? text
  if value.isReadable 0 then (← value.items?).mapM ofJson? else none

end Artifact

end LivingDocs
