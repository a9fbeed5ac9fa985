import LivingDocs.Comparison
import LivingDocs.OrderedSet

/-!
# Annotated entities

The five kinds of things that annotations declare. Each carries the place of its declaration;
the file of that place is unknown until the entity is stamped with it. Entities of one kind
are ordered field by field, in the order in which the fields are declared here.

## Main definitions

* `LivingDocs.Location` — where an entity was declared.
* `LivingDocs.ExampleKind` — what an example is for, with `ExampleKind.merge`.
* `LivingDocs.Component`, `LivingDocs.Example`, `LivingDocs.Variable`, `LivingDocs.Crosscut`,
  `LivingDocs.Journey` — the five kinds of entities.
* `LivingDocs.Entity` — an entity of any kind, with `Entity.stamp`.

The orders are lawful: they are transitive, and entities that compare equal are equal.
-/

set_option autoImplicit false

namespace LivingDocs

open Std

/-- **Where an entity was declared.** -/
structure Location where
  /-- The absolute path of the file, once it is known. -/
  file : Option String
  /-- The line of the block's keyword, counted from one. -/
  line : Nat
  deriving DecidableEq, Repr

namespace Location

/-- The place at a line of a file that is not known yet. -/
def unstamped (line : Nat) : Location := ⟨none, line⟩

/-- The place with its file made known. -/
def stamp (location : Location) (file : String) : Location := { location with file := some file }

instance : Ord Location := ⟨compareLex (compareOn file) (compareOn line)⟩

instance : TransOrd Location := inferInstanceAs (TransCmp (compareLex _ _))

instance : LawfulEqOrd Location where
  compare_self {a} := compareLex_compareOn_eq.mpr ⟨rfl, compareOn_eq.mpr rfl⟩
  eq_of_compare {a b} h := by
    obtain ⟨h₁, h₂⟩ := compareLex_compareOn_eq.mp h
    rw [compareOn_eq] at h₂
    cases a; cases b; simp_all

end Location

/-- **What an example is for**: it documents, it instructs, or it is still to be done. -/
inductive ExampleKind where
  | plain
  | howTo
  | todo
  deriving DecidableEq, Repr

namespace ExampleKind

/-- The precedence of a kind when examples are merged. -/
def rank : ExampleKind → Nat
  | plain => 0
  | howTo => 1
  | todo => 2

/-- The kind of higher precedence. -/
def max (a b : ExampleKind) : ExampleKind := if a.rank ≤ b.rank then b else a

/-- The kind of several examples taken together: the one of highest precedence, and plain for
none. -/
def merge (kinds : List ExampleKind) : ExampleKind := kinds.foldl max plain

theorem rank_injective {a b : ExampleKind} (h : a.rank = b.rank) : a = b := by
  cases a <;> cases b <;> first | rfl | cases h

instance : Ord ExampleKind := ⟨compareOn rank⟩

instance : TransOrd ExampleKind := inferInstanceAs (TransCmp (compareOn rank))

instance : LawfulEqOrd ExampleKind where
  compare_self := compareOn_eq.mpr rfl
  eq_of_compare h := rank_injective (compareOn_eq.mp h)

end ExampleKind

/-- **A component** of the application, with the features it offers. -/
structure Component where
  name : String
  desc : String
  tags : OrderedSet String
  features : OrderedSet String
  location : Location
  deriving DecidableEq

namespace Component

instance : Ord Component :=
  ⟨compareLex (compareOn name) <| compareLex (compareOn desc) <| compareLex (compareOn tags) <|
    compareLex (compareOn features) (compareOn location)⟩

instance : TransOrd Component := inferInstanceAs (TransCmp (compareLex _ _))

instance : LawfulEqOrd Component where
  compare_self := by
    intro a
    simp only [compare, compareLex_compareOn_eq, compareOn_eq, and_self]
  eq_of_compare {a b} h := by
    simp only [compare, compareLex_compareOn_eq, compareOn_eq] at h
    cases a; cases b; simp_all

end Component

/-- **An example** of a feature or of a journey. -/
structure Example where
  name : String
  /-- The name of the feature or of the journey. -/
  category : String
  /-- The values of variables that the example makes use of. -/
  values : OrderedSet String
  tags : OrderedSet String
  kind : ExampleKind
  location : Location
  deriving DecidableEq

namespace Example

instance : Ord Example :=
  ⟨compareLex (compareOn name) <| compareLex (compareOn category) <|
    compareLex (compareOn values) <| compareLex (compareOn tags) <|
    compareLex (compareOn kind) (compareOn location)⟩

instance : TransOrd Example := inferInstanceAs (TransCmp (compareLex _ _))

instance : LawfulEqOrd Example where
  compare_self := by
    intro a
    simp only [compare, compareLex_compareOn_eq, compareOn_eq, and_self]
  eq_of_compare {a b} h := by
    simp only [compare, compareLex_compareOn_eq, compareOn_eq] at h
    cases a; cases b; simp_all

end Example

/-- **A variable** and the values it can take. -/
structure Variable where
  name : String
  values : OrderedSet String
  location : Location
  deriving DecidableEq

namespace Variable

instance : Ord Variable :=
  ⟨compareLex (compareOn name) <| compareLex (compareOn values) (compareOn location)⟩

instance : TransOrd Variable := inferInstanceAs (TransCmp (compareLex _ _))

instance : LawfulEqOrd Variable where
  compare_self := by
    intro a
    simp only [compare, compareLex_compareOn_eq, compareOn_eq, and_self]
  eq_of_compare {a b} h := by
    simp only [compare, compareLex_compareOn_eq, compareOn_eq] at h
    cases a; cases b; simp_all

end Variable

/-- **A crosscut**: a concern that many components share. -/
structure Crosscut where
  name : String
  location : Location
  deriving DecidableEq

namespace Crosscut

instance : Ord Crosscut := ⟨compareLex (compareOn name) (compareOn location)⟩

instance : TransOrd Crosscut := inferInstanceAs (TransCmp (compareLex _ _))

instance : LawfulEqOrd Crosscut where
  compare_self := by
    intro a
    simp only [compare, compareLex_compareOn_eq, compareOn_eq, and_self]
  eq_of_compare {a b} h := by
    simp only [compare, compareLex_compareOn_eq, compareOn_eq] at h
    cases a; cases b; simp_all

end Crosscut

/-- **A journey** of a user through the application; its description may be empty. -/
structure Journey where
  name : String
  desc : String
  location : Location
  deriving DecidableEq

namespace Journey

instance : Ord Journey :=
  ⟨compareLex (compareOn name) <| compareLex (compareOn desc) (compareOn location)⟩

instance : TransOrd Journey := inferInstanceAs (TransCmp (compareLex _ _))

instance : LawfulEqOrd Journey where
  compare_self := by
    intro a
    simp only [compare, compareLex_compareOn_eq, compareOn_eq, and_self]
  eq_of_compare {a b} h := by
    simp only [compare, compareLex_compareOn_eq, compareOn_eq] at h
    cases a; cases b; simp_all

end Journey

/-- **An entity** of any kind, as one annotation declares it. -/
inductive Entity where
  | ofComponent (c : Component)
  | ofExample (e : Example)
  | ofVariable (v : Variable)
  | ofCrosscut (c : Crosscut)
  | ofJourney (j : Journey)
  deriving DecidableEq

namespace Entity

/-- Where the entity was declared. -/
def location : Entity → Location
  | ofComponent c => c.location
  | ofExample e => e.location
  | ofVariable v => v.location
  | ofCrosscut c => c.location
  | ofJourney j => j.location

/-- The entity with the file of its place made known. -/
def stamp (entity : Entity) (file : String) : Entity :=
  match entity with
  | ofComponent c => ofComponent { c with location := c.location.stamp file }
  | ofExample e => ofExample { e with location := e.location.stamp file }
  | ofVariable v => ofVariable { v with location := v.location.stamp file }
  | ofCrosscut c => ofCrosscut { c with location := c.location.stamp file }
  | ofJourney j => ofJourney { j with location := j.location.stamp file }

@[simp] theorem location_stamp (entity : Entity) (file : String) :
    (entity.stamp file).location = entity.location.stamp file := by
  cases entity <;> rfl

end Entity

end LivingDocs
