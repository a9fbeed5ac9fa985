import LivingDocs.Report

/-!
# Looking up declarations

From a feature to its component, and from a value to its variable. An item that is declared again
under another name belongs to the later name, and that is an ambiguity worth a warning.

## Main definitions

* `LivingDocs.Collation.Lookup` — an index and the ambiguities met while it was built.
* `LivingDocs.Collation.Lookup.ofDeclarations` — the lookup of declared items, in order.
* `LivingDocs.Collation.ofFeatures`, `LivingDocs.Collation.ofValues` — the two lookups of a report.
* `LivingDocs.Collation.Warning` — an ambiguity with what it is about.
-/

set_option autoImplicit false

namespace LivingDocs.Collation

/-- An item that was declared under `first` and then under `second`. -/
structure Ambiguity where
  item : String
  first : String
  second : String
  deriving DecidableEq, Repr

/-- **An index from items to the names that declare them**, and the ambiguities met on the way. -/
structure Lookup where
  index : OrderedMap String String
  ambiguities : List Ambiguity
  deriving DecidableEq

namespace Lookup

/-- The lookup without declarations. -/
def empty : Lookup := ⟨∅, []⟩

/-- One more declaration: the item belongs to `name` from now on, and an earlier other name makes
it ambiguous. -/
def declare (lookup : Lookup) (item name : String) : Lookup where
  index := lookup.index.insert item name
  ambiguities :=
    match lookup.index.get? item with
    | none => lookup.ambiguities
    | some previous =>
      if previous = name then lookup.ambiguities
      else lookup.ambiguities ++ [⟨item, previous, name⟩]

/-- The lookup of items declared under names, in order. -/
def ofDeclarations (declarations : List (String × String)) : Lookup :=
  declarations.foldl (fun lookup d => lookup.declare d.1 d.2) empty

end Lookup

/-- The features that components declare, in order. -/
def featureDeclarations (components : List Report.ComponentEntry) : List (String × String) :=
  components.flatMap fun c => c.features.map fun feature => (feature, c.name)

/-- The values that variables declare, in order. -/
def valueDeclarations (entries : List Report.VariableEntry) : List (String × String) :=
  entries.flatMap fun v => v.values.map fun value => (value, v.name)

/-- From a feature to the name of its component. -/
def ofFeatures (components : List Report.ComponentEntry) : Lookup :=
  Lookup.ofDeclarations (featureDeclarations components)

/-- From a value to the name of its variable. -/
def ofValues (entries : List Report.VariableEntry) : Lookup :=
  Lookup.ofDeclarations (valueDeclarations entries)

/-- **An ambiguity of the report**: a feature of several components, or a value of several
variables. -/
inductive Warning where
  | feature (ambiguity : Ambiguity)
  | value (ambiguity : Ambiguity)
  deriving DecidableEq, Repr

/-- The warning in words. -/
def Warning.message : Warning → String
  | feature _ => "feature declared by more than one component, keeping the last one"
  | value _ => "value declared by more than one variable, keeping the last one"

end LivingDocs.Collation
