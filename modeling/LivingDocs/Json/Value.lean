import LivingDocs.Json.Number

/-!
# JSON values

A value as its text has it: members of an object keep their order and may repeat a key, and a
string whose escapes name an unpaired surrogate is there but has no text.

Reading a value in full means more than its grammar: every string has a text, no number is beyond
all doubles, and nesting is bounded. A value that is only skipped need not meet these conditions.

## Main definitions

* `LivingDocs.Json` — a value.
* `LivingDocs.Json.depth` — how deep arrays and objects are nested.
* `LivingDocs.Json.isSound` — whether all texts and numbers can be had.
* `LivingDocs.Json.isReadable` — whether the value can be read in full.
-/

set_option autoImplicit false

namespace LivingDocs

/-- **A JSON value.** A string or a key is `none` if it names an unpaired surrogate. -/
inductive Json where
  | null
  | bool (b : Bool)
  | number (n : Json.Number)
  | string (text : Option String)
  | array (items : List Json)
  | object (members : List (Option String × Json))

namespace Json

instance : Inhabited Json := ⟨null⟩

/-- A string that has a text. -/
def ofString (s : String) : Json := string (some s)

/-- A natural number. -/
def ofNat (n : Nat) : Json := number (.ofNat n)

/-- An object with keys that have a text. -/
def ofMembers (members : List (String × Json)) : Json :=
  object (members.map fun m => (some m.1, m.2))

mutual

/-- How deep arrays and objects are nested. -/
def depth : Json → Nat
  | array items => depthOfItems items + 1
  | object members => depthOfMembers members + 1
  | _ => 0

/-- The greatest depth among the items of an array. -/
def depthOfItems : List Json → Nat
  | [] => 0
  | item :: items => max (depth item) (depthOfItems items)

/-- The greatest depth among the members of an object. -/
def depthOfMembers : List (Option String × Json) → Nat
  | [] => 0
  | (_, value) :: members => max (depth value) (depthOfMembers members)

end

mutual

/-- Whether every string has a text and no number is beyond all doubles. -/
def isSound : Json → Bool
  | number n => !n.overflows
  | string text => text.isSome
  | array items => areSoundItems items
  | object members => areSoundMembers members
  | _ => true

/-- Whether the items of an array are sound. -/
def areSoundItems : List Json → Bool
  | [] => true
  | item :: items => isSound item && areSoundItems items

/-- Whether the members of an object are sound, and their keys have texts. -/
def areSoundMembers : List (Option String × Json) → Bool
  | [] => true
  | (key, value) :: members => key.isSome && isSound value && areSoundMembers members

end

/-- The greatest depth of a document. -/
def maxDepth : Nat := 127

/-- Whether a value that stands below `level` arrays and objects can be read in full. -/
def isReadable (level : Nat) (value : Json) : Bool :=
  value.isSound && level + value.depth ≤ maxDepth

end Json

end LivingDocs
