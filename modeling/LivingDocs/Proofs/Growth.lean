import LivingDocs.Proofs.Changes
import LivingDocs.Proofs.Selected

/-!
# How a file system grows

A command that writes files into a directory adds to the tree: the directories that were missing,
and files of a few names. Nothing else is touched, and no directory makes place for a file. Since
the entries of each directory are in order, what has been written can be written again without any
change.

## Main definitions

* `LivingDocs.FileSystem.Alters`, `LivingDocs.FileSystem.Grown` — how what stands at an address may
  change while a file system grows.

## Main results

* `LivingDocs.FileSystem.Node.Ordered.put_self` — putting the node that is there changes nothing.
* `LivingDocs.FileSystem.grown_writeFile`, `LivingDocs.FileSystem.grown_makeDirectories` — writing
  files and making directories lets a file system grow.
* `LivingDocs.FileSystem.writeFile_self`, `LivingDocs.FileSystem.makeDirectories_self` — doing so
  again changes nothing.
-/

set_option autoImplicit false

namespace LivingDocs

open Std

namespace FileSystem

/-! ## Trees with their entries in order -/

/-- An entry that is there is put without a change. -/
lemma putAscending_self {name : String} {node : Node} {entries : List (String × Node)}
    (h : Ascending (entries.map Prod.fst)) (hlookup : entries.lookup name = some node) :
    putAscending name node entries = entries := by
  induction entries with
  | nil => cases hlookup
  | cons entry entries ih =>
    obtain ⟨first, inner⟩ := entry
    have hfirst := (List.pairwise_cons.mp h).1
    have hrest : Ascending (entries.map Prod.fst) := (List.pairwise_cons.mp h).2
    rw [lookup_entry] at hlookup
    rw [putAscending]
    split_ifs at hlookup with hname
    · cases hlookup
      subst hname
      simp only [ReflOrd.compare_self]
    · have hlater := (Node.lookup_eq_some_iff_mem hrest.nodup).mp hlookup
      have hgt : compare name first = .gt :=
        OrientedCmp.gt_of_lt (hfirst name (List.mem_map.mpr ⟨_, hlater, rfl⟩))
      rw [hgt]
      dsimp only
      rw [ih hrest hlookup]

namespace Node

/-- **Putting the node that is there changes nothing.** -/
lemma Ordered.put_self {name : String} {node : Node} :
    ∀ {address : Address} {root : Node}, root.Ordered →
      root.get? (address ++ [name]) = some node → root.put (address ++ [name]) node = root
  | [], root, h, hget => by
    obtain ⟨entries, child, rfl, hlookup, hchild⟩ := exists_child hget
    cases hchild
    rw [List.nil_append, Node.put, putAscending_self h.ascending hlookup]
  | first :: address, root, h, hget => by
    obtain ⟨entries, child, rfl, hlookup, hchild⟩ := exists_child hget
    have hbelow := Ordered.put_self (h.of_lookup hlookup).2 hchild
    rw [List.cons_append, put_cons hlookup (by simp), hbelow,
      putAscending_self h.ascending hlookup]

/-- A node is a directory if it has no content. -/
lemma isDirectory_eq (node : Node) : node.isDirectory = node.content?.isNone := by
  cases node <;> rfl

end Node

/-! ## Growth -/

/-- **How what stands at an address may change** while a file system grows, given the last name of
the address: not at all, or a file of a hidden name is written where no directory stood, or a
directory is made where nothing stood. -/
inductive Alters (hidden : String → Prop) (name : String) :
    Option (Option ByteArray) → Option (Option ByteArray) → Prop
  | same (stood : Option (Option ByteArray)) : Alters hidden name stood stood
  | written {stood : Option (Option ByteArray)} (content : ByteArray) (hname : hidden name)
      (hstood : stood ≠ some none) : Alters hidden name stood (some (some content))
  | made : Alters hidden name none (some none)

/-- Two changes are one change: a file is not followed by a directory, nor the other way round. -/
lemma Alters.trans {hidden : String → Prop} {name : String} {a b c : Option (Option ByteArray)}
    (hab : Alters hidden name a b) (hbc : Alters hidden name b c) : Alters hidden name a c := by
  cases hab with
  | same => exact hbc
  | written content hname hstood =>
    cases hbc with
    | same => exact .written content hname hstood
    | written content' => exact .written content' hname hstood
  | made =>
    cases hbc with
    | same => exact .made
    | written content hname hstood => exact absurd rfl hstood

/-- **A file system has grown**: files of hidden names have been written, and directories have been
made. -/
structure Grown (hidden : String → Prop) (before after : FileSystem) : Prop where
  here : after.here = before.here
  top : after.view [] = before.view []
  alters : ∀ (address : Address) (name : String),
    Alters hidden name (before.view (address ++ [name])) (after.view (address ++ [name]))

namespace Grown

variable {hidden : String → Prop} {a b c : FileSystem}

lemma refl (files : FileSystem) : Grown hidden files files :=
  ⟨rfl, rfl, fun _ _ => .same _⟩

lemma trans (hab : Grown hidden a b) (hbc : Grown hidden b c) : Grown hidden a c :=
  ⟨hbc.here.trans hab.here, hbc.top.trans hab.top,
    fun address name => (hab.alters address name).trans (hbc.alters address name)⟩

/-- Putting a node where it may be put. -/
lemma of_puts {address : Address} {name : String} {new : Node}
    (hputs : Puts a b (address ++ [name]) new)
    (halters : Alters hidden name (a.view (address ++ [name])) (some new.content?)) :
    Grown hidden a b := by
  refine ⟨hputs.here, ?_, fun above other => ?_⟩
  · rw [hputs.view_eq, if_neg (by simp)]
  · rw [hputs.view_eq]
    split_ifs with haddress
    · obtain ⟨rfl, hother⟩ := List.append_inj' haddress rfl
      cases hother
      exact halters
    · exact .same _

/-- **What stands in a file system that has grown**: every node is still there, as a file or as a
directory as before, and files have their content unless their name is hidden. -/
lemma keeps (h : Grown hidden a b) : a.root.Keeps b.root fun address =>
    ∀ name, address.getLast? = some name → ¬ hidden name := by
  intro address node hnode
  have hstood : a.view address = some node.content? := by rw [view, Node.view, hnode]; rfl
  have hfound {v : Option ByteArray} (hview : b.view address = some v) :
      ∃ node', b.root.get? address = some node' ∧ node'.content? = v := by
    rw [view, Node.view] at hview
    exact Option.map_eq_some_iff.mp hview
  rcases List.eq_nil_or_concat address with rfl | ⟨front, name, rfl⟩
  · obtain ⟨node', hget, hcontent⟩ := hfound (h.top.trans hstood)
    exact ⟨node', hget, by rw [Node.isDirectory_eq, hcontent, Node.isDirectory_eq],
      fun _ => hcontent⟩
  · rw [List.concat_eq_append] at *
    have halters := h.alters front name
    rw [hstood] at halters
    generalize hafter : b.view (front ++ [name]) = later at halters
    cases halters with
    | same =>
      obtain ⟨node', hget, hcontent⟩ := hfound hafter
      exact ⟨node', hget, by rw [Node.isDirectory_eq, hcontent, Node.isDirectory_eq],
        fun _ => hcontent⟩
    | written content hname hdirectory =>
      obtain ⟨node', hget, hcontent⟩ := hfound hafter
      refine ⟨node', hget, ?_, fun hspared => absurd hname (hspared name List.getLast?_concat)⟩
      rw [Node.isDirectory_eq, hcontent, Node.isDirectory_eq]
      cases hnone : node.content? with
      | none => exact absurd (congrArg some hnone) hdirectory
      | some was => rfl

/-- A directory that a path leads to stays one. -/
lemma isDirectory (h : Grown hidden a b) {path : Path} (hpath : a.isDirectory path = true) :
    b.isDirectory path = true := by
  rw [FileSystem.isDirectory] at hpath ⊢
  split at hpath
  · next node hfind =>
    obtain ⟨place, hreach, rfl⟩ := map_eq_ok_iff.mp hfind
    obtain ⟨place', hreach', haddress⟩ := reach_of_keeps h.keeps h.here hreach
    obtain ⟨node', hget, hdirectory, -⟩ := h.keeps _ _ (within_of_reach hreach).get?_address
    rw [← haddress, (within_of_reach hreach').get?_address] at hget
    cases hget
    rw [find, hreach']
    exact hdirectory.trans hpath
  · cases hpath

end Grown

/-! ## Writing files and making directories -/

section Steps

variable {hidden : String → Prop} {files files' : FileSystem}

/-- **Writing a file of a hidden name** lets a file system grow. -/
lemma grown_writeFile {directory : Path} {name : String} {content : ByteArray}
    (hname : EntryName name) (hhidden : hidden name)
    (h : files.writeFile (directory.join name) content = .ok files') :
    Grown hidden files files' := by
  obtain ⟨place, last, entries, hnames, hnode, hold, rfl⟩ := writeFile_eq_ok h
  obtain rfl := hnames.name_eq hname
  have hget := hnames.within.get?_address
  rw [hnode] at hget
  refine Grown.of_puts
    (puts_putAt hname (.file content) hnames.within hnode (Node.isLeaf_file content)
      fun old hlookup => ?_)
    (.written content hhidden fun hview => ?_)
  · obtain ⟨was, rfl⟩ := hold old hlookup
    exact ⟨was, content, rfl, rfl⟩
  · rw [view_child hget] at hview
    obtain ⟨old, hlookup, hdirectory⟩ := Option.map_eq_some_iff.mp hview
    obtain ⟨was, rfl⟩ := hold old hlookup
    cases hdirectory

/-- **Making a directory** lets a file system grow. -/
lemma grown_makeDirectory {path : Path} (h : files.makeDirectory path = .ok files') :
    Grown hidden files files' := by
  obtain ⟨-, before, name, gaps, place, entries, hname, -, -, -, -, hwithin, hnode, hfound, rfl⟩ :=
    makeDirectory_eq_ok h
  obtain ⟨hputs, hnone⟩ := puts_emptyDirectory hname hwithin hnode hfound
  exact Grown.of_puts hputs (hnone ▸ .made)

lemma grown_ensureDirectory (files : FileSystem) (path : Path) :
    Grown hidden files (files.ensureDirectory path).1 := by
  rw [ensureDirectory]
  cases h : files.makeDirectory path with
  | ok files' => exact grown_makeDirectory h
  | error fault => exact .refl files

/-- Making several directories lets a file system grow, also when one of them cannot be made. -/
lemma grown_makeChain (paths : List Path) (files : FileSystem) :
    Grown hidden files (files.makeChain paths).1 := by
  induction paths with
  | nil => exact .refl files
  | cons path above ih =>
    rw [makeChain]
    split_ifs
    · exact .refl files
    · split
      · rcases hchain : files.makeChain above with ⟨files', fault | done⟩
        · rw [hchain] at ih
          exact ih
        · rw [hchain] at ih
          exact ih.trans (grown_ensureDirectory files' path)
      · exact grown_ensureDirectory files path

/-- **Making a directory and those above it** lets a file system grow, also when it fails. -/
lemma grown_makeDirectories (files : FileSystem) (path : Path) :
    Grown hidden files (files.makeDirectories path).1 :=
  grown_makeChain path.ancestors files

end Steps

/-! ## Doing it again -/

section Again

variable {files files' : FileSystem} {path : Path}

/-- A path leads to a directory if nothing but a directory stands where it leads to. -/
lemma isDirectory_of_view {address : Address} (hlocate : files.locate path = .ok address)
    (hview : files.view address = some none) : files.isDirectory path = true := by
  obtain ⟨place, hreach, rfl⟩ := map_eq_ok_iff.mp hlocate
  rw [view_of_reach hreach, Option.some_inj] at hview
  rw [isDirectory, find, hreach]
  exact (Node.isDirectory_eq place.node).trans (by rw [hview]; rfl)

/-- A directory is there once it has been made, or else was there already. -/
lemma isDirectory_of_ensureDirectory (h : files.ensureDirectory path = (files', .ok ())) :
    files'.isDirectory path = true := by
  rw [ensureDirectory] at h
  split at h
  · next made hmade =>
    cases h
    obtain ⟨target, hputs, hlocate, -⟩ := puts_of_makeDirectory hmade
    exact isDirectory_of_view hlocate ((hputs.view_eq target).trans (if_pos rfl))
  · obtain ⟨rfl, hresult⟩ := Prod.mk.inj h
    split_ifs at hresult with hdirectory
    exact hdirectory

/-- **A directory is there once it has been made** with those above it. -/
lemma isDirectory_of_makeDirectories (hpath : path.text ≠ "")
    (h : files.makeDirectories path = (files', .ok ())) : files'.isDirectory path = true := by
  rw [makeDirectories, Path.ancestors, makeChain, if_neg hpath] at h
  split at h
  · split at h
    · exact isDirectory_of_ensureDirectory h
    · cases h
  · exact isDirectory_of_ensureDirectory h

/-- Only a directory leads on. -/
lemma Place.exists_entries_of_follow {place next : Place} {piece : String}
    (h : place.follow piece = .ok next) : ∃ entries, place.entries = .ok entries := by
  rw [follow] at h
  split_ifs at h
  · obtain ⟨entries, hentries, -⟩ := map_eq_ok_iff.mp h
    exact ⟨entries, hentries⟩
  · obtain ⟨entries, hentries, -⟩ := map_eq_ok_iff.mp h
    exact ⟨entries, hentries⟩
  · obtain ⟨node, hlookup, -⟩ := enter_eq_ok_iff.mp h
    obtain ⟨entries, hnode, -⟩ := lookup_eq_ok_iff.mp hlookup
    exact ⟨entries, by rw [Place.entries, hnode]⟩

/-- **A path that leads somewhere** leads there from the directory that holds its last piece. -/
lemma exists_holder_of_reach {place : Place} {before after : List String} {name : String}
    (hreach : files.reach path = .ok place) (hpieces : path.pieces = before ++ name :: after) :
    spelled path = .ok () ∧ ∃ above next, files.holder path before.reverse = .ok above ∧
      above.follow name = .ok next ∧ after.foldlM Place.follow next = .ok place := by
  obtain ⟨_, hspelled, hreach⟩ := bind_eq_ok_iff.mp hreach
  obtain ⟨first, hfirst, hreach⟩ := bind_eq_ok_iff.mp hreach
  rw [hpieces, List.foldlM_append] at hreach
  obtain ⟨above, habove, hreach⟩ := bind_eq_ok_iff.mp hreach
  rw [List.foldlM_cons] at hreach
  obtain ⟨next, hnext, hafter⟩ := bind_eq_ok_iff.mp hreach
  obtain ⟨entries, hentries⟩ := Place.exists_entries_of_follow hnext
  refine ⟨hspelled, above, next, ?_, hnext, hafter⟩
  rw [holder, List.reverse_reverse]
  exact bind_eq_ok_iff.mpr ⟨first, hfirst, bind_eq_ok_iff.mpr ⟨above, habove,
    map_eq_ok_iff.mpr ⟨entries, hentries, rfl⟩⟩⟩

/-- A directory that is there cannot be made. -/
lemma makeDirectory_of_isDirectory (h : files.isDirectory path = true) :
    files.makeDirectory path = .error .alreadyExists := by
  rw [isDirectory] at h
  split at h
  · next node hfind =>
    obtain ⟨place, hreach, -⟩ := map_eq_ok_iff.mp hfind
    rw [makeDirectory]
    cases hlast : lastPiece path with
    | nil =>
      obtain ⟨_, hspelled, -⟩ := bind_eq_ok_iff.mp hreach
      rw [hspelled]
      rfl
    | cons name before =>
      obtain ⟨gaps, hpieces, -⟩ := exists_pieces_of_lastPiece hlast
      obtain ⟨hspelled, above, next, hholder, hnext, -⟩ := exists_holder_of_reach hreach hpieces
      rw [List.reverse_reverse] at hholder
      simp only [hspelled, hholder, bind, Except.bind]
      by_cases hname : EntryName name
      · rw [above.follow_eq_enter hname] at hnext
        obtain ⟨node, hlookup, -⟩ := Place.enter_eq_ok_iff.mp hnext
        rw [dif_pos hname, hlookup]
        rfl
      · rw [dif_neg hname]
        rfl
  · cases h

/-- **A directory that is there is made without a change.** -/
lemma makeDirectories_self (h : path.text ≠ "" → files.isDirectory path = true) :
    files.makeDirectories path = (files, .ok ()) := by
  rw [makeDirectories, Path.ancestors, makeChain]
  split_ifs with hpath
  · rfl
  · rw [makeDirectory_of_isDirectory (h hpath)]
    dsimp only
    rw [ensureDirectory, makeDirectory_of_isDirectory (h hpath)]
    simp [h hpath]

/-- **A file that is there is written without a change** if it holds what is written. -/
lemma writeFile_self {directory : Path} {name : String} (hname : EntryName name)
    {content : ByteArray}
    (h : files.readFile (directory.join name) = .ok content) :
    files.writeFile (directory.join name) content = .ok files := by
  obtain ⟨place, hreach, hnode⟩ := readFile_eq_ok_iff.mp h
  obtain ⟨before, hpieces, -⟩ := exists_pieces_join directory hname.noSlash
  obtain ⟨hspelled, above, next, hholder, hnext, hplace⟩ := exists_holder_of_reach hreach hpieces
  cases hplace
  rw [above.follow_eq_enter hname] at hnext
  have haddress := Place.address_enter hnext
  obtain ⟨node, hlookup, hentered⟩ := Place.enter_eq_ok_iff.mp hnext
  have hfile : node = .file content := by rw [← hnode, hentered]
  have hlast : lastPiece (directory.join name) = name :: before.reverse := by
    rw [lastPiece, hpieces, List.reverse_append, List.reverse_singleton, List.singleton_append,
      List.dropWhile_cons_of_neg (by simpa using hname.nonempty)]
  have hclosed : endsOpen (directory.join name) = false := by
    rw [endsOpen, hpieces, List.getLast?_concat]
    simpa using hname.nonempty
  have hsame : files.putAt above.address name (.file content) hname (.file content) = files := by
    have hget := (within_of_reach hreach).get?_address
    rw [haddress, hnode] at hget
    exact FileSystem.ext (files.ordered.put_self hget) rfl
  rw [writeFile, hlast]
  simp only [hspelled, hholder, hlookup, hfile, bind, Except.bind]
  rw [dif_pos ⟨hname, hclosed⟩]
  exact congrArg Except.ok hsame

end Again

end FileSystem

end LivingDocs
