import LivingDocs.Comparison
import LivingDocs.Text.Search

/-!
# Paths

A path is kept as it is spelled. What it is about are its parts: doubled and trailing separators
and a `.` anywhere but in front add no part. Paths are compared part by part, so two spellings of
the same parts count as one path.

## Main definitions

* `LivingDocs.Path`, `LivingDocs.Path.pieces` — a path and what stands between its separators.
* `LivingDocs.Path.parts`, `LivingDocs.Path.same` — what a path is about.
* `LivingDocs.Path.join`, `LivingDocs.Path.parents`, `LivingDocs.Path.fileName` — one step down,
  all steps up, and the last name.
-/

set_option autoImplicit false

namespace LivingDocs

open Std

/-- **A path**, as it is spelled. -/
structure Path where
  text : String
  deriving DecidableEq, Repr

namespace Path

/-! ## Pieces and parts -/

/-- What stands between the separators of a path; at least one piece, which may be empty. -/
def pieces (path : Path) : List String := (Text.segments '/' path.text.toList).map String.ofList

/-- A path has at least one piece. -/
theorem pieces_ne_nil (path : Path) : path.pieces ≠ [] := by
  rw [pieces, Ne, List.map_eq_nil_iff]
  exact Text.segments_ne_nil '/' path.text.toList

/-- Whether the path starts at the root of the file system. -/
def isAbsolute (path : Path) : Bool := path.text.toList.head? = some '/'

/-- A part of a path. -/
inductive Part where
  /-- The root of the file system. -/
  | root
  /-- A leading `.`, the working directory. -/
  | here
  /-- One directory up. -/
  | up
  /-- The entry of that name. -/
  | named (name : String)
  deriving DecidableEq, Repr

namespace Part

/-- Where a part stands among the others, apart from its name. -/
def rank : Part → Nat
  | root => 0
  | here => 1
  | up => 2
  | named _ => 3

/-- The name of a part, if it has one. -/
def name? : Part → Option String
  | named name => some name
  | _ => none

/-- Parts are ordered by their kind, and those with a name by name. -/
instance : Ord Part := ⟨compareLex (compareOn rank) (compareOn name?)⟩

instance : TransOrd Part := inferInstanceAs (TransCmp (compareLex _ _))

instance : LawfulEqOrd Part where
  compare_self {a} := compareLex_compareOn_eq.mpr ⟨rfl, compareOn_eq.mpr rfl⟩
  eq_of_compare {a b} h := by
    obtain ⟨h₁, h₂⟩ := compareLex_compareOn_eq.mp h
    rw [compareOn_eq] at h₂
    cases a <;> cases b <;> simp_all [rank, name?]

end Part

/-- The part that a piece behind the first one adds, if any. -/
def innerPart? (piece : String) : Option Part :=
  if piece = "" ∨ piece = "." then none
  else if piece = ".." then some .up
  else some (.named piece)

/-- The part that the first piece adds, given whether another one follows. -/
def firstPart? (piece : String) (more : Bool) : Option Part :=
  if piece = "" then (if more then some .root else none)
  else if piece = "." then some .here
  else innerPart? piece

/-- **The parts of a path.** -/
def parts (path : Path) : List Part :=
  match path.pieces with
  | [] => []
  | first :: rest => (firstPart? first !rest.isEmpty).toList ++ rest.filterMap innerPart?

/-- Whether two paths have the same parts. -/
def same (a b : Path) : Bool := a.parts = b.parts

/-- Whether the parts of one path come before those of another one, or are the same. -/
def precedes (a b : Path) : Bool := (compare a.parts b.parts).isLE

/-! ## Up and down -/

/-- The path one step down, at the entry `name` of a directory. -/
def join (path : Path) (name : String) : Path :=
  if path.text = "" then ⟨name⟩
  else if path.text.toList.getLast? = some '/' then ⟨path.text ++ name⟩
  else ⟨path.text ++ "/" ++ name⟩

/-- Leaves out the last pieces of a path, given in reverse, that add no part. -/
def dropIdle : List String → List String
  | [] => []
  | [first] => [first]
  | piece :: before :: rest =>
    if (innerPart? piece).isNone then dropIdle (before :: rest) else piece :: before :: rest

/-- The path of pieces in reverse; an empty piece alone is the root. -/
def ofReversed : List String → Path
  | [""] => ⟨"/"⟩
  | reversed => ⟨"/".intercalate reversed.reverse⟩

/-- The path without the last pieces that add no part. -/
def trimmed (path : Path) : Path := ofReversed (dropIdle path.pieces.reverse)

/-- The paths above the one whose pieces are given in reverse, nearest first. Above the root there
is none, and above a lone name stands the empty path. -/
def parentsOfReversed : List String → List Path
  | [] => []
  | [first] => if first = "" then [] else [⟨""⟩]
  | piece :: before :: rest =>
    if (innerPart? piece).isNone then parentsOfReversed (before :: rest)
    else ofReversed (dropIdle (before :: rest)) :: parentsOfReversed (before :: rest)

/-- **The paths above a path**, nearest first: each leaves out one more part. -/
def parents (path : Path) : List Path := parentsOfReversed path.pieces.reverse

/-- A path and all paths above it, nearest first. -/
def ancestors (path : Path) : List Path := path :: path.parents

/-- The path above a path, if there is one. -/
def parent? (path : Path) : Option Path := path.parents.head?

/-- The name at the end of a path, or its whole spelling if there is none. -/
def fileName (path : Path) : String := ((path.parts.getLast?.bind Part.name?)).getD path.text

end Path

end LivingDocs
