import LivingDocs.FileSystem.Fault
import LivingDocs.FileSystem.Node

/-!
# Places in a file tree

A place is a node together with the way down to it from the root of the tree. A path is followed
piece by piece from place to place, so that each piece costs one look into a directory.

## Main definitions

* `LivingDocs.FileSystem.Place` — a node and the way to it.
* `LivingDocs.FileSystem.Place.follow` — one piece of a path further.
* `LivingDocs.FileSystem.Place.Within` — the places of a tree.

## Main results

* `LivingDocs.FileSystem.Place.Within.get?_address` — the node of a place is the one at its address.
* `LivingDocs.FileSystem.Place.Within.follow` — following a path never leaves the tree.
-/

set_option autoImplicit false

namespace LivingDocs.FileSystem

/-- **A node and the way to it.** -/
structure Place where
  node : Node
  /-- The names on the way with the directories that hold them, the last name first. -/
  way : List (String × Node)

namespace Place

/-- The place at the top of a tree. -/
def top (root : Node) : Place := ⟨root, []⟩

/-- The names on the way from the top. -/
def address (place : Place) : Address := (place.way.map Prod.fst).reverse

/-- One place up; there is none above the top. -/
def up (place : Place) : Place :=
  match place.way with
  | [] => place
  | (_, above) :: way => ⟨above, way⟩

/-- The entries of the directory at a place. -/
def entries (place : Place) : Except Fault (List (String × Node)) :=
  match place.node with
  | .directory entries => .ok entries
  | .file _ => .error .notDirectory

/-- The node of a name in the directory at a place, if there is one. -/
def lookup (place : Place) (name : String) : Except Fault (Option Node) := do
  let entries ← place.entries
  if maxNameSize < name.utf8ByteSize then throw .nameTooLong
  return entries.lookup name

/-- The place of the node with that name in the directory at a place. -/
def enter (place : Place) (name : String) : Except Fault Place := do
  match ← place.lookup name with
  | some node => return ⟨node, (name, place.node) :: place.way⟩
  | none => throw .notFound

/-- **One piece of a path further**: only a directory leads on. -/
def follow (place : Place) (piece : String) : Except Fault Place :=
  if piece = "" ∨ piece = "." then place.entries.map fun _ => place
  else if piece = ".." then place.entries.map fun _ => place.up
  else place.enter piece

/-- The name of an entry leads to that entry. -/
theorem follow_eq_enter (place : Place) {name : String} (h : EntryName name) :
    place.follow name = place.enter name := by
  rw [follow, if_neg (by simp [h.nonempty, h.notHere]), if_neg h.notUp]

/-! ## The places of a tree -/

/-- **The places of a tree**: its top, and with a directory also the entries of it. -/
inductive Within (root : Node) : Place → Prop
  | top : Within root (Place.top root)
  | entry {entries : List (String × Node)} {way : List (String × Node)} {name : String}
      {node : Node} (above : Within root ⟨.directory entries, way⟩)
      (found : entries.lookup name = some node) :
      Within root ⟨node, (name, .directory entries) :: way⟩

/-- **The node of a place is the one at its address.** -/
theorem Within.get?_address {root : Node} {place : Place} (h : Within root place) :
    root.get? place.address = some place.node := by
  induction h with
  | top => rfl
  | @entry entries way name node above found ih =>
    have hup : root.get? (way.map Prod.fst).reverse = some (.directory entries) := ih
    simp [address, Node.get?_append, hup, Node.get?, Node.child?, Node.entries, found]

/-- Going up does not leave the tree. -/
theorem Within.up {root : Node} {place : Place} (h : Within root place) :
    Within root place.up := by
  cases h with
  | top => exact .top
  | entry above _ => exact above

/-- What is found at a place has entries only if it is a directory. -/
theorem entries_eq_ok {place : Place} {entries : List (String × Node)}
    (h : place.entries = .ok entries) : place.node = .directory entries := by
  rw [Place.entries] at h
  split at h
  · next heq =>
    cases h
    exact heq
  · cases h

/-- An entry is found under its name. -/
theorem lookup_eq_ok {place : Place} {name : String} {node? : Option Node}
    (h : place.lookup name = .ok node?) :
    ∃ entries, place.node = .directory entries ∧ entries.lookup name = node? := by
  rw [lookup] at h
  cases hentries : place.entries with
  | error fault =>
    rw [hentries] at h
    cases h
  | ok entries =>
    rw [hentries] at h
    by_cases hsize : maxNameSize < name.utf8ByteSize
    · simp [hsize, bind, Except.bind, throw, throwThe, MonadExceptOf.throw] at h
    · simp only [hsize, bind, Except.bind, if_false, pure, Except.pure] at h
      cases h
      exact ⟨entries, entries_eq_ok hentries, rfl⟩

/-- Entering a directory does not leave the tree. -/
theorem Within.enter {root : Node} {place next : Place} {name : String}
    (h : Within root place) (hnext : place.enter name = .ok next) : Within root next := by
  rw [Place.enter] at hnext
  cases hentry : place.lookup name with
  | error fault =>
    rw [hentry] at hnext
    cases hnext
  | ok node? =>
    rw [hentry] at hnext
    obtain ⟨entries, hnode, hlookup⟩ := lookup_eq_ok hentry
    cases node? with
    | none => cases hnext
    | some node =>
      cases hnext
      rw [hnode]
      obtain ⟨here, way⟩ := place
      subst hnode
      exact .entry h hlookup

/-- **Following a path never leaves the tree.** -/
theorem Within.follow {root : Node} {place next : Place} {piece : String}
    (h : Within root place) (hnext : place.follow piece = .ok next) : Within root next := by
  rw [Place.follow] at hnext
  have hmap {other : Place} (hother : Within root other)
      (hok : (place.entries.map fun _ => other) = .ok next) : Within root next := by
    cases hentries : place.entries with
    | error fault =>
      rw [hentries] at hok
      cases hok
    | ok entries =>
      rw [hentries] at hok
      cases hok
      exact hother
  split at hnext
  · exact hmap h hnext
  · split at hnext
    · exact hmap h.up hnext
    · exact h.enter hnext

/-- Following several pieces never leaves the tree. -/
theorem Within.foldlM_follow {root : Node} {place last : Place} {pieces : List String}
    (h : Within root place) (hlast : pieces.foldlM Place.follow place = .ok last) :
    Within root last := by
  induction pieces generalizing place with
  | nil =>
    cases hlast
    exact h
  | cons piece pieces ih =>
    rw [List.foldlM_cons] at hlast
    cases hnext : place.follow piece with
    | error fault =>
      rw [hnext] at hlast
      cases hlast
    | ok next =>
      rw [hnext] at hlast
      exact ih (h.follow hnext) hlast

end Place

end LivingDocs.FileSystem
