import LivingDocs.Json.Value

/-!
# Taking values apart

What a value holds if it has the right shape. A record is an object, whose members may stand in any
order and among members that do not belong to it, or an array of its fields in order. No field may
stand twice.

## Main definitions

* `LivingDocs.Json.text?`, `LivingDocs.Json.nat?`, `LivingDocs.Json.bool?`,
  `LivingDocs.Json.items?`, `LivingDocs.Json.members?` — values of one shape.
* `LivingDocs.Json.field?` — the value under some names.
* `LivingDocs.Json.fields?`, `LivingDocs.Json.record?` — the fields of a record.
-/

set_option autoImplicit false

namespace LivingDocs.Json

/-- The text of a string. -/
def text? : Json → Option String
  | string text => text
  | _ => none

/-- A Boolean value. -/
def bool? : Json → Option Bool
  | bool b => some b
  | _ => none

/-- A natural number that is not above `bound`. -/
def nat? (bound : Nat) : Json → Option Nat
  | number n => n.toNat?.filter fun value => value ≤ bound
  | _ => none

/-- The items of an array. -/
def items? : Json → Option (List Json)
  | array items => some items
  | _ => none

/-- The texts of an array of strings. -/
def texts? (value : Json) : Option (List String) := value.items?.bind fun items => items.mapM text?

/-- The members of an object, all of whose keys have to have a text. -/
def members? : Json → Option (List (String × Json))
  | object members => members.mapM fun m => m.1.map fun key => (key, m.2)
  | _ => none

/-- What stands under any of some names: at most one member may. The outer `none` says that there
are several, the inner one that there is none. -/
def field? (names : List String) (members : List (String × Json)) : Option (Option Json) :=
  match members.filter fun m => names.contains m.1 with
  | [] => some none
  | [m] => some (some m.2)
  | _ => none

/-- What stands under a name that has to be there once. -/
def required? (name : String) (members : List (String × Json)) : Option Json :=
  (field? [name] members).join

/-- Fills up a list with `none` to a given length, which it must not exceed. -/
def padded? : Nat → List Json → Option (List (Option Json))
  | 0, [] => some []
  | 0, _ :: _ => none
  | n + 1, [] => (padded? n []).map (none :: ·)
  | n + 1, item :: items => (padded? n items).map (some item :: ·)

/-- **The fields of a record**, in order, each under one of its names; a field that is not there is
`none`. -/
def fields? (names : List (List String)) (value : Json) : Option (List (Option Json)) :=
  match value with
  | array items => padded? names.length items
  | object _ => value.members?.bind fun members => names.mapM fun n => field? n members
  | _ => none

/-- **The fields of a record all of which have to be there**, in order. -/
def record? (names : List String) (value : Json) : Option (List Json) :=
  (fields? (names.map fun n => [n]) value).bind fun fields => fields.mapM id

end LivingDocs.Json
