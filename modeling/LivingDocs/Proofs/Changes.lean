import LivingDocs.Proofs.Disk

/-!
# What changes on disk

A file system is seen through its addresses: at each of them stands nothing, a directory, or a file
with its content. Writing a file changes what stands at one address, and so does making a directory
where nothing stood. What several such steps change together is what one of them changes, since
every path leads to where it led before.

## Main definitions

* `LivingDocs.FileSystem.Node.view` — what stands at an address.
* `LivingDocs.FileSystem.ChangesOnly` — what may differ between two file systems.
* `LivingDocs.FileSystem.Writes` — some files have been written, and nothing else has changed.

## Main results

* `LivingDocs.FileSystem.Node.view_put` — what stands in a tree after a node has been put into a
  directory.
* `LivingDocs.FileSystem.changesOnly_writeFile`, `LivingDocs.FileSystem.changesOnly_makeDirectories`
  — what writing a file and making directories change.
-/

set_option autoImplicit false

namespace LivingDocs.FileSystem

/-! ## What stands at an address -/

namespace Node

/-- **What stands at an address**: nothing, a directory, or a file with its content. -/
def view (root : Node) (address : Address) : Option (Option ByteArray) :=
  (root.get? address).map content?

/-- A node that nothing stands below. -/
def IsLeaf (node : Node) : Prop := ∀ name, node.child? name = none

lemma isLeaf_file (content : ByteArray) : (file content).IsLeaf := fun _ => rfl

lemma isLeaf_empty : (directory []).IsLeaf := fun _ => rfl

@[simp] lemma view_nil (node : Node) : node.view [] = some node.content? := rfl

/-- What stands below an entry of a directory. -/
lemma view_cons (entries : List (String × Node)) (name : String) (names : Address) :
    (directory entries).view (name :: names) = (entries.lookup name).bind (·.view names) := by
  rw [view, get?_cons, Option.map_bind]
  rfl

lemma IsLeaf.view_cons {node : Node} (h : node.IsLeaf) (name : String) (names : Address) :
    node.view (name :: names) = none := by
  rw [view, get?_cons, h name]
  rfl

/-- What stands in a directory after an entry of it has been replaced. -/
lemma view_putAscending_cons (entries : List (String × Node)) (name first : String) (new : Node)
    (rest : Address) : (directory (putAscending name new entries)).view (first :: rest) =
      if first = name then new.view rest else (directory entries).view (first :: rest) := by
  rw [view_cons, lookup_putAscending]
  split_ifs with h
  · rfl
  · rw [view_cons]

/-- **What stands in a tree after a node has been put into a directory**: the node, in place of
nothing or of a node that nothing stands below, and everything else as before. -/
lemma view_put {entries : List (String × Node)} {name : String} {new : Node} (hnew : new.IsLeaf)
    (hold : ∀ old, entries.lookup name = some old → old.IsLeaf) :
    ∀ {address : Address} {root : Node}, root.get? address = some (.directory entries) →
      ∀ other, (root.put (address ++ [name]) new).view other =
        if other = address ++ [name] then some new.content? else root.view other
  | [], root, hroot, [] => by
    cases hroot
    rfl
  | [], root, hroot, first :: rest => by
    cases hroot
    rw [List.nil_append, put, view_putAscending_cons]
    by_cases hfirst : first = name
    · subst hfirst
      cases rest with
      | nil => simp
      | cons next rest =>
        rw [if_pos rfl, hnew.view_cons, view_cons, if_neg (by simp)]
        cases hlookup : entries.lookup first with
        | none => rfl
        | some old => exact ((hold old hlookup).view_cons next rest).symm
    · simp [hfirst]
  | first :: address, root, hroot, [] => by
    obtain ⟨siblings, child, rfl, hchild, -⟩ := exists_child hroot
    rw [List.cons_append, put_cons hchild (by simp)]
    rfl
  | first :: address, root, hroot, next :: rest => by
    obtain ⟨siblings, child, rfl, hchild, hinner⟩ := exists_child hroot
    rw [List.cons_append, put_cons hchild (by simp), view_putAscending_cons,
      view_put hnew hold hinner, view_cons]
    by_cases hnext : next = first
    · subst hnext
      simp [hchild]
    · simp [hnext]

end Node

/-- What stands at an address of the file system. -/
def view (files : FileSystem) (address : Address) : Option (Option ByteArray) :=
  files.root.view address

/-- The content of what stands in a directory under some name. -/
lemma view_child {files : FileSystem} {address : Address} {entries : List (String × Node)}
    (h : files.root.get? address = some (.directory entries)) (name : String) :
    files.view (address ++ [name]) = (entries.lookup name).map Node.content? := by
  rw [view, Node.view, Node.get?_child h]

/-- What stands where a path leads to. -/
lemma view_of_reach {files : FileSystem} {path : Path} {place : Place}
    (h : files.reach path = .ok place) : files.view place.address = some place.node.content? := by
  rw [view, Node.view, (within_of_reach h).get?_address]
  rfl

/-- **A file is read where a path leads to it.** -/
lemma readFile_eq_ok_iff_view {files : FileSystem} {path : Path} {content : ByteArray} :
    files.readFile path = .ok content ↔
      ∃ address, files.locate path = .ok address ∧ files.view address = some (some content) := by
  rw [readFile_eq_ok_iff]
  constructor
  · rintro ⟨place, hreach, hnode⟩
    refine ⟨place.address, map_eq_ok_iff.mpr ⟨place, hreach, rfl⟩, ?_⟩
    rw [view_of_reach hreach, hnode]
    rfl
  · rintro ⟨address, hlocate, hview⟩
    obtain ⟨place, hreach, rfl⟩ := map_eq_ok_iff.mp hlocate
    rw [view_of_reach hreach, Option.some_inj] at hview
    refine ⟨place, hreach, ?_⟩
    cases hnode : place.node with
    | file was =>
      rw [hnode] at hview
      cases hview
      rfl
    | directory entries =>
      rw [hnode] at hview
      cases hview

/-! ## What may differ -/

/-- **What may differ between two file systems**: files that some paths lead to, and directories
that were made where other paths lead to. -/
structure ChangesOnly (before after : FileSystem) (outputs made : List Path) : Prop where
  /-- The working directory has the same address. -/
  here : after.here = before.here
  /-- Every path leads to where it led. -/
  leads : ∀ path address, before.locate path = .ok address → after.locate path = .ok address
  /-- Where something else stands than before, an output stands, or a new directory. -/
  differs : ∀ address, after.view address ≠ before.view address →
    (∃ path ∈ outputs, after.locate path = .ok address) ∨
      (∃ path ∈ made, after.locate path = .ok address) ∧ before.view address = none ∧
        after.view address = some none

namespace ChangesOnly

variable {a b c : FileSystem} {outputs outputs' made made' : List Path}

lemma refl (files : FileSystem) : files.ChangesOnly files [] [] :=
  ⟨rfl, fun _ _ h => h, fun _ h => absurd rfl h⟩

lemma mono (h : a.ChangesOnly b outputs made) (houtputs : outputs ⊆ outputs')
    (hmade : made ⊆ made') : a.ChangesOnly b outputs' made' :=
  ⟨h.here, h.leads, fun address hne => (h.differs address hne).imp
    (fun ⟨path, hpath, hlocate⟩ => ⟨path, houtputs hpath, hlocate⟩)
    fun ⟨⟨path, hpath, hlocate⟩, hviews⟩ => ⟨⟨path, hmade hpath, hlocate⟩, hviews⟩⟩

/-- **What two steps change is what one of them changes.**

**Proof sketch.** Where the first step has changed something, the second one has left it or has
replaced it by an output: a new directory is not replaced by another one. A path that leads there
after the first step does so after the second one. -/
lemma trans (hab : a.ChangesOnly b outputs made) (hbc : b.ChangesOnly c outputs' made') :
    a.ChangesOnly c (outputs ++ outputs') (made ++ made') := by
  refine ⟨hbc.here.trans hab.here,
    fun path address h => hbc.leads path address (hab.leads path address h), ?_⟩
  intro address hne
  by_cases hfirst : b.view address = a.view address
  · rw [← hfirst] at hne ⊢
    rcases hbc.differs address hne with ⟨path, hpath, hlocate⟩ | ⟨⟨path, hpath, hlocate⟩, hviews⟩
    · exact .inl ⟨path, List.mem_append_right outputs hpath, hlocate⟩
    · exact .inr ⟨⟨path, List.mem_append_right made hpath, hlocate⟩, hviews⟩
  · rcases hab.differs address hfirst with
      ⟨path, hpath, hlocate⟩ | ⟨⟨path, hpath, hlocate⟩, hnone, hmade⟩
    · exact .inl ⟨path, List.mem_append_left outputs' hpath, hbc.leads path address hlocate⟩
    · by_cases hsecond : c.view address = b.view address
      · exact .inr ⟨⟨path, List.mem_append_left made' hpath, hbc.leads path address hlocate⟩,
          hnone, hsecond.trans hmade⟩
      · rcases hbc.differs address hsecond with ⟨path', hpath', hlocate'⟩ | ⟨-, hnone', -⟩
        · exact .inl ⟨path', List.mem_append_right outputs hpath', hlocate'⟩
        · rw [hmade] at hnone'
          cases hnone'

end ChangesOnly

/-- Paths lead to where they led in a tree that keeps what is there. -/
lemma locate_of_keeps {files files' : FileSystem} {spared : Address → Prop}
    (hkeeps : files.root.Keeps files'.root spared) (hhere : files'.here = files.here) {path : Path}
    {address : Address} (h : files.locate path = .ok address) :
    files'.locate path = .ok address := by
  obtain ⟨place, hreach, rfl⟩ := map_eq_ok_iff.mp h
  obtain ⟨place', hreach', haddress⟩ := reach_of_keeps hkeeps hhere hreach
  exact map_eq_ok_iff.mpr ⟨place', hreach', haddress⟩

/-! ## Writing a file, making a directory -/

/-- **A node has been put at an address**: it stands there, everything else is as before, and every
path leads to where it led. -/
structure Puts (before after : FileSystem) (target : Address) (new : Node) : Prop where
  here : after.here = before.here
  keeps : before.root.Keeps after.root (· ≠ target)
  view_eq : ∀ address,
    after.view address = if address = target then some new.content? else before.view address

section Puts

variable {files : FileSystem} {place : Place} {name : String} {entries : List (String × Node)}
  {new : Node} (hname : EntryName name) (hordered : new.Ordered)

/-- Putting a node into a directory, in place of nothing or of a file by a file. -/
lemma puts_putAt (hplace : Place.Within files.root place) (hnode : place.node = .directory entries)
    (hnew : new.IsLeaf) (hold : ∀ old, entries.lookup name = some old →
      ∃ before after, old = .file before ∧ new = .file after) :
    Puts files (files.putAt place.address name new hname hordered) (place.address ++ [name])
      new := by
  have hget := hplace.get?_address
  rw [hnode] at hget
  refine ⟨rfl, Node.keeps_put hold hget, Node.view_put hnew (fun old hlookup => ?_) hget⟩
  obtain ⟨was, _, rfl, -⟩ := hold old hlookup
  exact Node.isLeaf_file was

/-- The directory holds the node afterwards. -/
lemma exists_entry_of_putAt (hplace : Place.Within files.root place)
    (hnode : place.node = .directory entries) {place' : Place}
    (hplace' : Place.Within (files.putAt place.address name new hname hordered).root place')
    (haddress : place'.address = place.address) :
    ∃ entries', place'.node = .directory entries' ∧ entries'.lookup name = some new := by
  have hget := hplace.get?_address
  rw [hnode] at hget
  have hput : (files.putAt place.address name new hname hordered).root.get?
      (place'.address ++ [name]) = some new := by
    rw [haddress]
    exact Node.get?_put_self hget
  rw [Node.get?_append, hplace'.get?_address] at hput
  obtain ⟨entries', child, hnode', hlookup', hchild⟩ := Node.exists_child hput
  cases hchild
  exact ⟨entries', hnode', hlookup'⟩

end Puts

/-- What one step changes that puts a node where a path leads to. -/
lemma Puts.changesOnly {before after : FileSystem} {target : Address} {new : Node}
    (h : Puts before after target new) {outputs made : List Path}
    (htarget : (∃ path ∈ outputs, after.locate path = .ok target) ∨
      (∃ path ∈ made, after.locate path = .ok target) ∧ before.view target = none ∧
        new.content? = none) : before.ChangesOnly after outputs made := by
  refine ⟨h.here, fun path address hlocate => locate_of_keeps h.keeps h.here hlocate, ?_⟩
  intro address hne
  have hview := h.view_eq address
  by_cases haddress : address = target
  · subst haddress
    rw [if_pos rfl] at hview
    exact htarget.imp id fun ⟨hmade, hnone, hnew⟩ => ⟨hmade, hnone, hview.trans (by rw [hnew])⟩
  · exact absurd (hview.trans (if_neg haddress)) hne

/-- The address of an entry. -/
lemma address_entry (place : Place) (name : String) (node above : Node) :
    Place.address ⟨node, (name, above) :: place.way⟩ = place.address ++ [name] := by
  simp [Place.address]

/-- **Writing a file** puts it where the path leads to afterwards. -/
lemma puts_of_writeFile {files files' : FileSystem} {path : Path} {content : ByteArray}
    (h : files.writeFile path content = .ok files') :
    ∃ target, Puts files files' target (.file content) ∧ files'.locate path = .ok target := by
  obtain ⟨place, name, entries, hnames, hnode, hold, rfl⟩ := writeFile_eq_ok h
  have hputs := puts_putAt hnames.entryName (.file content) hnames.within hnode
    (Node.isLeaf_file content) fun old hlookup => by
      obtain ⟨was, rfl⟩ := hold old hlookup
      exact ⟨was, content, rfl, rfl⟩
  refine ⟨_, hputs, ?_⟩
  obtain ⟨place', hnames', haddress⟩ := hnames.of_keeps hputs.keeps hputs.here
  obtain ⟨entries', hnode', hlookup'⟩ :=
    exists_entry_of_putAt hnames.entryName (.file content) hnames.within hnode hnames'.within
      haddress
  refine map_eq_ok_iff.mpr ⟨_, hnames'.reach hnode' hlookup', ?_⟩
  rw [address_entry, haddress]

/-- **Writing a file** changes nothing but what stands where the path leads to. -/
lemma changesOnly_writeFile {files files' : FileSystem} {path : Path} {content : ByteArray}
    (h : files.writeFile path content = .ok files') : files.ChangesOnly files' [path] [] := by
  obtain ⟨target, hputs, hlocate⟩ := puts_of_writeFile h
  exact hputs.changesOnly (.inl ⟨path, List.mem_singleton.mpr rfl, hlocate⟩)

/-- The last piece of a path stands before nothing but separators. -/
lemma exists_pieces_of_lastPiece {path : Path} {name : String} {before : List String}
    (h : lastPiece path = name :: before) :
    ∃ gaps, path.pieces = before.reverse ++ name :: gaps ∧ ∀ gap ∈ gaps, gap = "" := by
  rw [lastPiece] at h
  refine ⟨(path.pieces.reverse.takeWhile (· = "")).reverse, ?_, fun gap hgap => ?_⟩
  · have hsplit := List.takeWhile_append_dropWhile (p := (· = "")) (l := path.pieces.reverse)
    rw [h] at hsplit
    have hpieces := congrArg List.reverse hsplit
    simpa using hpieces.symm
  · have hall := List.mem_takeWhile_imp (List.mem_reverse.mp hgap)
    simpa using hall

/-- Separators behind a directory lead nowhere else. -/
lemma foldlM_follow_gaps {place : Place} {entries : List (String × Node)}
    (hnode : place.node = .directory entries) {gaps : List String}
    (hgaps : ∀ gap ∈ gaps, gap = "") :
    gaps.foldlM Place.follow place = .ok place := by
  induction gaps with
  | nil => rfl
  | cons gap gaps ih =>
    have hstay : place.follow gap = .ok place := by
      rw [Place.follow, if_pos (.inl (hgaps gap List.mem_cons_self)), Place.entries, hnode]
      rfl
    rw [List.foldlM_cons, hstay]
    exact ih fun other hother => hgaps other (List.mem_cons_of_mem gap hother)

/-- A path leads to a directory that has been put where its last piece names it. -/
lemma locate_of_putAt {files : FileSystem} {path : Path} {place : Place} {name : String}
    {before gaps : List String} {entries : List (String × Node)}
    (hspelled : spelled path = .ok ()) (hpieces : path.pieces = before ++ name :: gaps)
    (hgaps : ∀ gap ∈ gaps, gap = "")
    (hplace : (files.start path >>= before.foldlM Place.follow) = .ok place)
    (hname : EntryName name) (hsize : name.utf8ByteSize ≤ maxNameSize)
    (hwithin : Place.Within files.root place) (hnode : place.node = .directory entries)
    (hputs : Puts files (files.putAt place.address name (.directory []) hname .empty)
      (place.address ++ [name]) (.directory [])) :
    (files.putAt place.address name (.directory []) hname .empty).locate path =
      .ok (place.address ++ [name]) := by
  obtain ⟨place', hplace', hwithin', haddress⟩ := follow_of_keeps hputs.keeps hputs.here hplace
  obtain ⟨first, hfirst, hfold⟩ := bind_eq_ok_iff.mp hplace'
  obtain ⟨entries', hnode', hlookup'⟩ :=
    exists_entry_of_putAt hname .empty hwithin hnode hwithin' haddress
  have hentry : place'.follow name = .ok ⟨.directory [], (name, place'.node) :: place'.way⟩ := by
    rw [place'.follow_eq_enter hname]
    exact Place.enter_eq_ok_iff.mpr
      ⟨_, Place.lookup_eq_ok_iff.mpr ⟨entries', hnode', hsize, hlookup'⟩, rfl⟩
  refine map_eq_ok_iff.mpr ⟨⟨.directory [], (name, place'.node) :: place'.way⟩, ?_, ?_⟩
  · refine bind_eq_ok_iff.mpr ⟨(), hspelled, bind_eq_ok_iff.mpr ⟨first, hfirst, ?_⟩⟩
    rw [hpieces, List.foldlM_append]
    exact bind_eq_ok_iff.mpr ⟨place', hfold,
      bind_eq_ok_iff.mpr ⟨_, hentry, foldlM_follow_gaps rfl hgaps⟩⟩
  · rw [address_entry, haddress]

/-- **What making a directory does**: it puts an empty one into the directory where the last piece
of the path names it, in place of nothing. -/
lemma makeDirectory_eq_ok {files files' : FileSystem} {path : Path}
    (h : files.makeDirectory path = .ok files') :
    spelled path = .ok () ∧ ∃ before name gaps place entries, ∃ hname : EntryName name,
      path.pieces = before ++ name :: gaps ∧ (∀ gap ∈ gaps, gap = "") ∧
      (files.start path >>= before.foldlM Place.follow) = .ok place ∧
      name.utf8ByteSize ≤ maxNameSize ∧ Place.Within files.root place ∧
      place.node = .directory entries ∧ entries.lookup name = none ∧
      files' = files.putAt place.address name (.directory []) hname .empty := by
  rw [makeDirectory] at h
  obtain ⟨_, hspelled, h⟩ := bind_eq_ok_iff.mp h
  refine ⟨hspelled, ?_⟩
  split at h
  · cases h
  · next name before hlast =>
    obtain ⟨gaps, hpieces, hgaps⟩ := exists_pieces_of_lastPiece hlast
    obtain ⟨place, hholder, h⟩ := bind_eq_ok_iff.mp h
    obtain ⟨first, hfirst, hplace⟩ := bind_eq_ok_iff.mp hholder
    obtain ⟨last, hfold, hplace⟩ := bind_eq_ok_iff.mp hplace
    obtain ⟨_, -, rfl⟩ := map_eq_ok_iff.mp hplace
    split at h
    · next hname =>
      obtain ⟨node?, hlookup, h⟩ := bind_eq_ok_iff.mp h
      obtain ⟨entries, hnode, hsize, hfound⟩ := Place.lookup_eq_ok_iff.mp hlookup
      cases node? with
      | some node => cases h
      | none =>
        cases h
        exact ⟨before.reverse, name, gaps, last, entries, hname, hpieces, hgaps,
          bind_eq_ok_iff.mpr ⟨first, hfirst, hfold⟩, hsize,
          (within_of_start hfirst).foldlM_follow hfold, hnode, hfound, rfl⟩
    · cases h

/-- Putting an empty directory where nothing stood. -/
lemma puts_emptyDirectory {files : FileSystem} {place : Place} {name : String}
    {entries : List (String × Node)} (hname : EntryName name)
    (hwithin : Place.Within files.root place) (hnode : place.node = .directory entries)
    (hfound : entries.lookup name = none) :
    Puts files (files.putAt place.address name (.directory []) hname .empty)
        (place.address ++ [name]) (.directory []) ∧
      files.view (place.address ++ [name]) = none := by
  have hget := hwithin.get?_address
  rw [hnode] at hget
  refine ⟨puts_putAt hname .empty hwithin hnode Node.isLeaf_empty fun old hold => ?_, ?_⟩
  · rw [hfound] at hold
    cases hold
  · rw [view_child hget, hfound, Option.map_none]

/-- **Making a directory** puts an empty one where nothing stood, and the path leads to it. -/
lemma puts_of_makeDirectory {files files' : FileSystem} {path : Path}
    (h : files.makeDirectory path = .ok files') :
    ∃ target, Puts files files' target (.directory []) ∧ files'.locate path = .ok target ∧
      files.view target = none := by
  obtain ⟨hspelled, before, name, gaps, place, entries, hname, hpieces, hgaps, hplace, hsize,
    hwithin, hnode, hfound, rfl⟩ := makeDirectory_eq_ok h
  obtain ⟨hputs, hnone⟩ := puts_emptyDirectory hname hwithin hnode hfound
  exact ⟨_, hputs, locate_of_putAt hspelled hpieces hgaps hplace hname hsize hwithin hnode hputs,
    hnone⟩

/-- Making a directory, for which it is no fault to be there already, changes nothing else. -/
lemma changesOnly_ensureDirectory (files : FileSystem) (path : Path) :
    files.ChangesOnly (files.ensureDirectory path).1 [] [path] := by
  rw [ensureDirectory]
  cases h : files.makeDirectory path with
  | ok files' =>
    obtain ⟨target, hputs, hlocate, hnone⟩ := puts_of_makeDirectory h
    exact hputs.changesOnly (.inr ⟨⟨path, List.mem_singleton.mpr rfl, hlocate⟩, hnone, rfl⟩)
  | error fault => exact (ChangesOnly.refl files).mono (List.nil_subset _) (List.nil_subset _)

/-- **Making directories** changes nothing else, also when one of them cannot be made.

**Proof sketch.** Induction on the directories: either the first one is made right away, or those
above it are made and then the first one. -/
lemma changesOnly_makeChain (paths : List Path) (files : FileSystem) :
    files.ChangesOnly (files.makeChain paths).1 [] paths := by
  induction paths with
  | nil => exact ChangesOnly.refl files
  | cons path above ih =>
    have hfirst : ∀ files : FileSystem,
        files.ChangesOnly (files.ensureDirectory path).1 [] (path :: above) := fun files =>
      (changesOnly_ensureDirectory files path).mono (List.nil_subset _) (by simp)
    have habove := ih.mono (List.nil_subset []) (List.subset_cons_self path above)
    rw [makeChain]
    split_ifs
    · exact (ChangesOnly.refl files).mono (List.nil_subset _) (List.nil_subset _)
    · split
      · rcases hchain : files.makeChain above with ⟨files', fault | done⟩
        · rw [hchain] at habove
          exact habove
        · rw [hchain] at habove
          exact (habove.trans (hfirst files')).mono (by simp) (by simp)
      · exact hfirst files

/-- **Making a directory and those above it** changes nothing else, also when it fails. -/
lemma changesOnly_makeDirectories (files : FileSystem) (path : Path) :
    files.ChangesOnly (files.makeDirectories path).1 [] path.ancestors :=
  changesOnly_makeChain path.ancestors files

/-! ## Writing several files -/

/-- **Some files have been written, and nothing else has changed**, apart from directories that
were made where some paths lead to. -/
structure Writes (before after : FileSystem) (outputs : List (Path × String)) (made : List Path) :
    Prop where
  /-- Each file holds its text. -/
  holds : ∀ output ∈ outputs, after.readFile output.1 = .ok (Text.Utf8.encode output.2)
  /-- Nothing else differs. -/
  changes : before.ChangesOnly after (outputs.map Prod.fst) made

/-- Files are written into a directory that is made before. -/
lemma Writes.of_makeDirectories {files middle after : FileSystem} {directory : Path}
    {result : Except Fault Unit} {outputs : List (Path × String)}
    (hmake : files.makeDirectories directory = (middle, result))
    (h : middle.Writes after outputs []) : files.Writes after outputs directory.ancestors := by
  have hmade := changesOnly_makeDirectories files directory
  rw [hmake] at hmade
  refine ⟨h.holds, ?_⟩
  simpa using hmade.trans h.changes

end LivingDocs.FileSystem
