import LivingDocs.FileSystem.Place
import LivingDocs.Text.Utf8

/-!
# The file system

A tree of files and directories with a working directory in it, from which relative paths lead.
There are no links, so an address reaches each node in one way only, and each directory has its
entries in the order of their names. An operation that fails says why, and leaves the file system
as it was.

## Main definitions

* `LivingDocs.FileSystem` — the tree and the working directory.
* `LivingDocs.FileSystem.reach` — the place that a path leads to.
* `LivingDocs.FileSystem.find`, `LivingDocs.FileSystem.locate` — the node there and its address.
* `LivingDocs.FileSystem.readFile`, `LivingDocs.FileSystem.readText`,
  `LivingDocs.FileSystem.writeFile`, `LivingDocs.FileSystem.makeDirectory` — the operations.
* `LivingDocs.FileSystem.makeDirectories` — a directory and all directories above it that are
  missing.

## Main results

* `LivingDocs.FileSystem.within_of_reach` — a path leads to a place of the tree.
-/

set_option autoImplicit false

namespace LivingDocs

/-- **The file system**: a tree, and the address of the working directory in it. -/
@[ext] structure FileSystem where
  root : FileSystem.Node
  here : FileSystem.Address
  /-- Each directory has its entries in the order of their names. -/
  ordered : root.Ordered := by decide +kernel

namespace FileSystem

/-! ## Where paths lead -/

/-- The place of the working directory. -/
def workplace (files : FileSystem) : Except Fault Place :=
  files.here.foldlM Place.enter (Place.top files.root)

/-- The place from which a path leads. -/
def start (files : FileSystem) (path : Path) : Except Fault Place :=
  if path.isAbsolute then .ok (Place.top files.root) else files.workplace

/-- **The place that a path leads to.** -/
def reach (files : FileSystem) (path : Path) : Except Fault Place := do
  spelled path
  path.pieces.foldlM Place.follow (← files.start path)

/-- The start of a path is a place of the tree. -/
theorem within_of_start {files : FileSystem} {path : Path} {place : Place}
    (h : files.start path = .ok place) : Place.Within files.root place := by
  have henter : ∀ (names : List String) (first : Place), Place.Within files.root first →
      names.foldlM Place.enter first = .ok place → Place.Within files.root place := by
    intro names
    induction names with
    | nil =>
      intro first hfirst hfold
      cases hfold
      exact hfirst
    | cons name names ih =>
      intro first hfirst hfold
      rw [List.foldlM_cons] at hfold
      cases hnext : first.enter name with
      | error fault =>
        rw [hnext] at hfold
        cases hfold
      | ok next =>
        rw [hnext] at hfold
        exact ih next (hfirst.enter hnext) hfold
  rw [start] at h
  split at h
  · cases h
    exact .top
  · exact henter _ _ .top h

/-- **A path leads to a place of the tree.**

**Proof sketch.** The path starts at a place of the tree, and no piece of it leads out. -/
theorem within_of_reach {files : FileSystem} {path : Path} {place : Place}
    (h : files.reach path = .ok place) : Place.Within files.root place := by
  rw [reach] at h
  cases hspelled : spelled path with
  | error fault =>
    rw [hspelled] at h
    cases h
  | ok _ =>
    rw [hspelled] at h
    cases hstart : files.start path with
    | error fault =>
      rw [hstart] at h
      cases h
    | ok first =>
      rw [hstart] at h
      exact (within_of_start hstart).foldlM_follow h

/-- **The address of the node that a path leads to.** -/
def locate (files : FileSystem) (path : Path) : Except Fault Address :=
  (files.reach path).map Place.address

/-- The node that a path leads to. -/
def find (files : FileSystem) (path : Path) : Except Fault Node :=
  (files.reach path).map Place.node

/-- Whether a path leads somewhere. -/
def contains (files : FileSystem) (path : Path) : Bool := (files.reach path).isOk

/-- Whether a path leads to a directory. -/
def isDirectory (files : FileSystem) (path : Path) : Bool :=
  match files.find path with
  | .ok node => node.isDirectory
  | .error _ => false

/-- The absolute path of an address. -/
def absolute (address : Address) : String := "/" ++ "/".intercalate address

/-- The absolute path of the node that a path leads to. -/
def canonical (files : FileSystem) (path : Path) : Except Fault String :=
  (files.locate path).map absolute

/-! ## Reading -/

/-- **The content of the file at a path.** -/
def readFile (files : FileSystem) (path : Path) : Except Fault ByteArray := do
  match ← files.find path with
  | .file content => return content
  | .directory _ => throw .isDirectory

/-- The content of the file at a path, which has to be text. -/
def readText (files : FileSystem) (path : Path) : Except Fault String := do
  match Text.Utf8.decode? (← files.readFile path) with
  | some text => return text
  | none => throw .notText

/-! ## Writing -/

/-- The file system with `node` under a name in the directory at an address. -/
def putAt (files : FileSystem) (address : Address) (name : String) (node : Node)
    (hname : EntryName name) (hnode : node.Ordered) : FileSystem where
  root := files.root.put (address ++ [name]) node
  here := files.here
  ordered := files.ordered.put hname hnode address

/-- The last piece of a path and the pieces before it, in reverse; trailing separators are left
out, and nothing remains of the root. -/
def lastPiece (path : Path) : List String := path.pieces.reverse.dropWhile (· = "")

/-- The place of the directory that holds the last of the pieces of a path, given the pieces before
it in reverse. -/
def holder (files : FileSystem) (path : Path) (before : List String) : Except Fault Place := do
  let place ← before.reverse.foldlM Place.follow (← files.start path)
  place.entries.map fun _ => place

/-- **Makes an empty directory at a path.** -/
def makeDirectory (files : FileSystem) (path : Path) : Except Fault FileSystem := do
  spelled path
  match lastPiece path with
  | [] => throw .alreadyExists
  | piece :: before =>
    let place ← files.holder path before
    if hname : EntryName piece then
      match ← place.lookup piece with
      | some _ => throw .alreadyExists
      | none => return files.putAt place.address piece (.directory []) hname .empty
    else throw .alreadyExists

/-- Whether a path ends with a separator. -/
def endsOpen (path : Path) : Bool := path.pieces.getLast? = some ""

/-- **Writes a file at a path**, in place of the one that may be there. -/
def writeFile (files : FileSystem) (path : Path) (content : ByteArray) :
    Except Fault FileSystem := do
  spelled path
  match lastPiece path with
  | [] => throw .isDirectory
  | piece :: before =>
    let place ← files.holder path before
    if hname : EntryName piece ∧ endsOpen path = false then
      match ← place.lookup piece with
      | some (.directory _) => throw .isDirectory
      | _ => return files.putAt place.address piece (.file content) hname.1 (.file content)
    else throw .isDirectory

/-- Makes a directory, for which it is no fault to be there already. -/
def ensureDirectory (files : FileSystem) (path : Path) : FileSystem × Except Fault Unit :=
  match files.makeDirectory path with
  | .ok files => (files, .ok ())
  | .error fault => (files, if files.isDirectory path then .ok () else .error fault)

/-- Makes the first of some directories, and before it those after it in the list that are
missing. What has been made stays when a later one cannot be made. -/
def makeChain (files : FileSystem) : List Path → FileSystem × Except Fault Unit
  | [] => (files, .ok ())
  | path :: above =>
    if path.text = "" then (files, .ok ())
    else match files.makeDirectory path with
      | .error .notFound =>
        match files.makeChain above with
        | (files, .ok ()) => files.ensureDirectory path
        | (files, .error fault) => (files, .error fault)
      | _ => files.ensureDirectory path

/-- **Makes a directory and all directories above it that are missing.** -/
def makeDirectories (files : FileSystem) (path : Path) : FileSystem × Except Fault Unit :=
  files.makeChain path.ancestors

end FileSystem

end LivingDocs
