import LivingDocs.FileSystem.Basic
import LivingDocs.Proofs.Cutting
import LivingDocs.Proofs.Results
import Mathlib.Tactic.SplitIfs

/-!
# What is written to disk stays there

A file that is written is read back with its content, and files of other names are not touched.
Writing replaces nothing but a file by a file, so in the new tree every path leads to where it led
before. That is said once, for any two trees of which one keeps what the other one holds, and then
for each operation only what it keeps.

## Main definitions

* `LivingDocs.FileSystem.Node.Keeps` — what is kept from one tree to another.
* `LivingDocs.FileSystem.Names` — a path names an entry of a directory.

## Main results

* `LivingDocs.FileSystem.Node.keeps_put`, `LivingDocs.FileSystem.Node.get?_put_self` — what a tree
  holds after a node has been put into a directory.
* `LivingDocs.FileSystem.reach_of_keeps` — paths lead to where they led before.
* `LivingDocs.FileSystem.writeFile_spec` — what writing a file does.
* `LivingDocs.FileSystem.readFile_of_writeFile`,
  `LivingDocs.FileSystem.readFile_of_writeFile_other` — the file that was written, and others.
-/

set_option autoImplicit false

namespace LivingDocs.FileSystem

/-! ## Trees -/

namespace Node

lemma get?_cons (node : Node) (name : String) (names : Address) :
    node.get? (name :: names) = (node.child? name).bind fun child => child.get? names := rfl

/-- What stands in a directory under some name is one of its entries. -/
lemma get?_child {root : Node} {address : Address} {entries : List (String × Node)}
    (h : root.get? address = some (.directory entries)) (name : String) :
    root.get? (address ++ [name]) = entries.lookup name := by
  rw [get?_append, h, Option.bind_some, get?_cons, child?, Node.entries]
  cases entries.lookup name <;> rfl

/-- **What is kept from one tree to another**: every node is still there, as a file or as a
directory as before, and files at spared addresses have their content. -/
def Keeps (old new : Node) (spared : Address → Prop) : Prop :=
  ∀ address node, old.get? address = some node → ∃ node', new.get? address = some node' ∧
    node'.isDirectory = node.isDirectory ∧ (spared address → node'.content? = node.content?)

lemma Keeps.mono {old new : Node} {spared spared' : Address → Prop} (h : old.Keeps new spared)
    (hs : ∀ address, spared' address → spared address) : old.Keeps new spared' := by
  intro address node hnode
  obtain ⟨node', h', hdir, hcontent⟩ := h address node hnode
  exact ⟨node', h', hdir, fun hspared => hcontent (hs address hspared)⟩

/-- Directories stay directories. -/
lemma Keeps.directory {old new : Node} {spared : Address → Prop} (h : old.Keeps new spared)
    {address : Address} {entries : List (String × Node)}
    (hold : old.get? address = some (.directory entries)) :
    ∃ entries', new.get? address = some (.directory entries') := by
  obtain ⟨node', hnew, hdir, -⟩ := h address _ hold
  cases node' with
  | file content => cases hdir
  | directory entries' => exact ⟨entries', hnew⟩

/-- Putting a node below a child replaces that child. -/
lemma put_cons {entries : List (String × Node)} {name : String} {child : Node}
    (hchild : entries.lookup name = some child) {rest : Address} (hrest : rest ≠ [])
    (new : Node) :
    (directory entries).put (name :: rest) new =
      directory (putAscending name (child.put rest new) entries) := by
  cases rest with
  | nil => exact absurd rfl hrest
  | cons next rest => rw [put, hchild]

/-- An address that leads on from a node shows that it is a directory. -/
lemma exists_child {node inner : Node} {name : String} {names : Address}
    (h : node.get? (name :: names) = some inner) :
    ∃ entries child, node = directory entries ∧ entries.lookup name = some child ∧
      child.get? names = some inner := by
  obtain ⟨child, hchild, hinner⟩ := Option.bind_eq_some_iff.mp h
  cases node with
  | file content => cases hchild
  | directory entries => exact ⟨entries, child, rfl, hchild, hinner⟩

/-- **What has been put into a directory is there.** -/
lemma get?_put_self {entries : List (String × Node)} {name : String} {new : Node} :
    ∀ {address : Address} {root : Node}, root.get? address = some (.directory entries) →
      (root.put (address ++ [name]) new).get? (address ++ [name]) = some new
  | [], root, h => by
    cases h
    simp [put, get?, child?, Node.entries, lookup_putAscending]
  | first :: address, root, h => by
    obtain ⟨siblings, child, rfl, hchild, hinner⟩ := exists_child h
    rw [List.cons_append, put_cons hchild (by simp), get?_cons]
    simp [child?, Node.entries, lookup_putAscending, get?_put_self hinner]

/-- Replacing the entry of a directory keeps what the old entry held if the new one does. -/
lemma keeps_putAscending {entries : List (String × Node)} {name : String} {new : Node}
    {spared : Address → Prop}
    (h : ∀ old, entries.lookup name = some old → old.Keeps new fun rest => spared (name :: rest)) :
    (directory entries).Keeps (directory (putAscending name new entries)) spared := by
  intro address node hnode
  cases address with
  | nil =>
    cases hnode
    exact ⟨_, rfl, rfl, fun _ => rfl⟩
  | cons first rest =>
    obtain ⟨_, child, hentries, hchild, hinner⟩ := exists_child hnode
    cases hentries
    simp only [get?_cons, child?, Node.entries, lookup_putAscending]
    by_cases hfirst : first = name
    · subst hfirst
      simpa using h child hchild rest node hinner
    · simpa [hfirst, hchild] using ⟨node, hinner, rfl, fun _ => rfl⟩

/-- **Putting a node into a directory keeps all other nodes.** What it replaces, if anything, has to
be a file and the new node as well. -/
lemma keeps_put {entries : List (String × Node)} {name : String} {new : Node}
    (h : ∀ old, entries.lookup name = some old →
      ∃ before after, old = .file before ∧ new = .file after) :
    ∀ {address : Address} {root : Node}, root.get? address = some (.directory entries) →
      root.Keeps (root.put (address ++ [name]) new) (· ≠ address ++ [name])
  | [], root, hroot => by
    cases hroot
    refine keeps_putAscending fun old hold => ?_
    obtain ⟨before, after, rfl, rfl⟩ := h old hold
    intro address node hnode
    cases address with
    | nil =>
      cases hnode
      exact ⟨_, rfl, rfl, fun hspared => absurd rfl hspared⟩
    | cons first rest => cases hnode
  | first :: address, root, hroot => by
    obtain ⟨siblings, child, rfl, hchild, hinner⟩ := exists_child hroot
    rw [List.cons_append, put_cons hchild (by simp)]
    refine keeps_putAscending fun old hold => ?_
    cases hchild.symm.trans hold
    exact (keeps_put h hinner).mono fun rest hrest heq => hrest (heq ▸ rfl)

end Node

/-! ## Places -/

namespace Place

/-- The address one place up. -/
lemma address_up (place : Place) : place.up.address = place.address.dropLast := by
  obtain ⟨node, way⟩ := place
  cases way with
  | nil => rfl
  | cons step way => simp [up, address]

/-- **When a name is looked up** at a place, and what is found. -/
lemma lookup_eq_ok_iff {place : Place} {name : String} {node? : Option Node} :
    place.lookup name = .ok node? ↔ ∃ entries, place.node = .directory entries ∧
      name.utf8ByteSize ≤ maxNameSize ∧ entries.lookup name = node? := by
  obtain ⟨node, way⟩ := place
  cases node with
  | file content => simp [lookup, Place.entries, bind, Except.bind]
  | directory entries =>
    by_cases hsize : maxNameSize < name.utf8ByteSize
    · simp [lookup, Place.entries, bind, Except.bind, hsize, Nat.not_le.mpr hsize, throw, throwThe,
        MonadExceptOf.throw]
    · simp [lookup, Place.entries, bind, Except.bind, hsize, Nat.not_lt.mp hsize, pure, Except.pure]

/-- **When a directory is entered**, and where that leads. -/
lemma enter_eq_ok_iff {place next : Place} {name : String} :
    place.enter name = .ok next ↔ ∃ node, place.lookup name = .ok (some node) ∧
      next = ⟨node, (name, place.node) :: place.way⟩ := by
  rw [enter, bind_eq_ok_iff]
  constructor
  · rintro ⟨node?, hlookup, h⟩
    cases node? with
    | none => cases h
    | some node =>
      cases h
      exact ⟨node, hlookup, rfl⟩
  · rintro ⟨node, hlookup, rfl⟩
    exact ⟨some node, hlookup, rfl⟩

/-- The entry of a directory stands under its name behind the directory's address. -/
lemma address_enter {place next : Place} {name : String} (h : place.enter name = .ok next) :
    next.address = place.address ++ [name] := by
  obtain ⟨node, -, rfl⟩ := enter_eq_ok_iff.mp h
  simp [address]

section Keeps

variable {old new : Node} {spared : Address → Prop} {place place' next : Place}

/-- A place with the same address is a directory as before. -/
lemma entries_of_keeps (hkeeps : old.Keeps new spared) (h : Within old place)
    (h' : Within new place') (haddress : place'.address = place.address)
    {entries : List (String × Node)} (hnode : place.node = .directory entries) :
    ∃ entries', place'.node = .directory entries' := by
  have hold := h.get?_address
  rw [hnode] at hold
  obtain ⟨entries', hnew⟩ := hkeeps.directory hold
  rw [← haddress, h'.get?_address] at hnew
  exact ⟨entries', Option.some.inj hnew⟩

/-- **Entering a directory leads to the same address** in a tree that keeps what is there. -/
lemma enter_of_keeps (hkeeps : old.Keeps new spared) (h : Within old place)
    (h' : Within new place') (haddress : place'.address = place.address) {name : String}
    (hnext : place.enter name = .ok next) :
    ∃ next', place'.enter name = .ok next' ∧ next'.address = next.address := by
  have hsame := address_enter hnext
  have hlater := (h.enter hnext).get?_address
  obtain ⟨node, hlookup, rfl⟩ := enter_eq_ok_iff.mp hnext
  obtain ⟨entries, hnode, hsize, -⟩ := lookup_eq_ok_iff.mp hlookup
  obtain ⟨entries', hnode'⟩ := entries_of_keeps hkeeps h h' haddress hnode
  obtain ⟨node', hnew, -, -⟩ := hkeeps _ _ hlater
  have hfound : entries'.lookup name = some node' := by
    rw [hsame, ← haddress, Node.get?_append, h'.get?_address, hnode'] at hnew
    simpa [Node.get?, Node.child?, Node.entries] using hnew
  have hlookup' : place'.lookup name = .ok (some node') :=
    lookup_eq_ok_iff.mpr ⟨entries', hnode', hsize, hfound⟩
  refine ⟨_, enter_eq_ok_iff.mpr ⟨node', hlookup', rfl⟩, ?_⟩
  rw [hsame, ← haddress]
  simp [address]

/-- **A piece of a path leads to the same address** in a tree that keeps what is there. -/
lemma follow_of_keeps (hkeeps : old.Keeps new spared) (h : Within old place)
    (h' : Within new place') (haddress : place'.address = place.address) {piece : String}
    (hnext : place.follow piece = .ok next) :
    ∃ next', place'.follow piece = .ok next' ∧ next'.address = next.address := by
  have hstay {other other' : Place} (hother : other'.address = other.address)
      (hok : (place.entries.map fun _ => other) = .ok next) :
      ∃ next', (place'.entries.map fun _ => other') = .ok next' ∧
        next'.address = next.address := by
    obtain ⟨entries, hentries, rfl⟩ := map_eq_ok_iff.mp hok
    obtain ⟨entries', hnode'⟩ := entries_of_keeps hkeeps h h' haddress (entries_eq_ok hentries)
    exact ⟨other', by rw [Place.entries, hnode']; rfl, hother⟩
  rw [follow] at hnext ⊢
  split_ifs at hnext ⊢
  · exact hstay haddress hnext
  · exact hstay (by rw [address_up, address_up, haddress]) hnext
  · exact enter_of_keeps hkeeps h h' haddress hnext

/-- **Steps lead to the same address** in a tree that keeps what is there, if each of them does. -/
lemma foldlM_of_keeps {step : Place → String → Except Fault Place}
    (hstep : ∀ {place place' next : Place} {piece : String}, Within old place → Within new place' →
      place'.address = place.address → step place piece = .ok next →
        Within old next ∧ ∃ next', step place' piece = .ok next' ∧ Within new next' ∧
          next'.address = next.address)
    {pieces : List String} (h : Within old place) (h' : Within new place')
    (haddress : place'.address = place.address) (hnext : pieces.foldlM step place = .ok next) :
    ∃ next', pieces.foldlM step place' = .ok next' ∧ next'.address = next.address := by
  induction pieces generalizing place place' with
  | nil =>
    cases hnext
    exact ⟨place', rfl, haddress⟩
  | cons piece pieces ih =>
    rw [List.foldlM_cons, bind_eq_ok_iff] at hnext
    obtain ⟨middle, hmiddle, hnext⟩ := hnext
    obtain ⟨hwithin, middle', hmiddle', hwithin', hsame⟩ := hstep h h' haddress hmiddle
    rw [List.foldlM_cons, hmiddle']
    exact ih hwithin hwithin' hsame hnext

end Keeps

end Place

/-! ## Paths -/

section Keeps

variable {files files' : FileSystem} {spared : Address → Prop}

/-- The working directory has the same address in a tree that keeps what is there. -/
lemma start_of_keeps (hkeeps : files.root.Keeps files'.root spared)
    (hhere : files'.here = files.here) {path : Path} {place : Place}
    (h : files.start path = .ok place) :
    ∃ place', files'.start path = .ok place' ∧ place'.address = place.address := by
  rw [start] at h ⊢
  split_ifs at h ⊢
  · cases h
    exact ⟨Place.top files'.root, rfl, rfl⟩
  · have htop : Place.Within files.root (Place.top files.root) := .top
    have htop' : Place.Within files'.root (Place.top files'.root) := .top
    rw [workplace] at h ⊢
    rw [hhere]
    refine Place.foldlM_of_keeps (fun h h' haddress hnext => ?_) htop htop' rfl h
    obtain ⟨next', hnext', hsame⟩ := Place.enter_of_keeps hkeeps h h' haddress hnext
    exact ⟨h.enter hnext, next', hnext', h'.enter hnext', hsame⟩

/-- Pieces of a path lead to the same address in a tree that keeps what is there. -/
lemma follow_of_keeps (hkeeps : files.root.Keeps files'.root spared)
    (hhere : files'.here = files.here) {path : Path} {pieces : List String} {place : Place}
    (h : (files.start path >>= pieces.foldlM Place.follow) = .ok place) :
    ∃ place', (files'.start path >>= pieces.foldlM Place.follow) = .ok place' ∧
      Place.Within files'.root place' ∧ place'.address = place.address := by
  obtain ⟨first, hfirst, hplace⟩ := bind_eq_ok_iff.mp h
  obtain ⟨first', hfirst', hsame⟩ := start_of_keeps hkeeps hhere hfirst
  have hwithin := within_of_start hfirst
  have hwithin' := within_of_start hfirst'
  obtain ⟨place', hplace', haddress⟩ := Place.foldlM_of_keeps (fun h h' haddress hnext => by
      obtain ⟨next', hnext', hsame⟩ := Place.follow_of_keeps hkeeps h h' haddress hnext
      exact ⟨h.follow hnext, next', hnext', h'.follow hnext', hsame⟩)
    hwithin hwithin' hsame hplace
  exact ⟨place', bind_eq_ok_iff.mpr ⟨first', hfirst', hplace'⟩, hwithin'.foldlM_follow hplace',
    haddress⟩

/-- **A path leads to the same address** in a tree that keeps what is there. -/
lemma reach_of_keeps (hkeeps : files.root.Keeps files'.root spared)
    (hhere : files'.here = files.here) {path : Path} {place : Place}
    (h : files.reach path = .ok place) :
    ∃ place', files'.reach path = .ok place' ∧ place'.address = place.address := by
  obtain ⟨_, hspelled, h⟩ := bind_eq_ok_iff.mp h
  obtain ⟨place', hplace', -, haddress⟩ := follow_of_keeps hkeeps hhere h
  exact ⟨place', bind_eq_ok_iff.mpr ⟨_, hspelled, hplace'⟩, haddress⟩

/-- A path that leads somewhere leads to a place. -/
lemma contains_iff_exists_reach {files : FileSystem} {path : Path} :
    files.contains path = true ↔ ∃ place, files.reach path = .ok place := by
  rw [contains]
  cases files.reach path <;> simp [Except.isOk, Except.toBool]

/-- What a file holds, in terms of the place of the file. -/
lemma readFile_eq_ok_iff {files : FileSystem} {path : Path} {content : ByteArray} :
    files.readFile path = .ok content ↔
      ∃ place, files.reach path = .ok place ∧ place.node = .file content := by
  rw [readFile, bind_eq_ok_iff]
  constructor
  · rintro ⟨node, hfind, h⟩
    obtain ⟨place, hreach, rfl⟩ := map_eq_ok_iff.mp hfind
    refine ⟨place, hreach, ?_⟩
    split at h
    · next hnode =>
      cases h
      exact hnode
    · cases h
  · rintro ⟨place, hreach, hnode⟩
    exact ⟨.file content, map_eq_ok_iff.mpr ⟨place, hreach, hnode⟩, rfl⟩

/-- **A spared file keeps its content.** -/
lemma readFile_of_keeps (hkeeps : files.root.Keeps files'.root spared)
    (hhere : files'.here = files.here) {path : Path} {place : Place} {content : ByteArray}
    (hreach : files.reach path = .ok place) (hspared : spared place.address)
    (h : files.readFile path = .ok content) : files'.readFile path = .ok content := by
  obtain ⟨place, hreach', hnode⟩ := readFile_eq_ok_iff.mp h
  cases hreach.symm.trans hreach'
  obtain ⟨place', hplace', haddress⟩ := reach_of_keeps hkeeps hhere hreach
  obtain ⟨node', hnew, -, hcontent⟩ := hkeeps _ _ (within_of_reach hreach).get?_address
  have hnode' : place'.node = node' := by
    rw [← haddress, (within_of_reach hplace').get?_address] at hnew
    exact Option.some.inj hnew
  have hsame := hcontent hspared
  rw [hnode] at hsame
  refine readFile_eq_ok_iff.mpr ⟨place', hplace', ?_⟩
  cases node' with
  | file content' =>
    cases hsame
    exact hnode'
  | directory entries => cases hsame

end Keeps

/-! ## Writing a file -/

/-- The last piece of a path that does not end with a separator stands behind all others. -/
lemma pieces_of_lastPiece {path : Path} {name : String} {before : List String}
    (hopen : endsOpen path = false) (h : lastPiece path = name :: before) :
    path.pieces = before.reverse ++ [name] := by
  have hlast : path.pieces.getLast? ≠ some "" := by simpa [endsOpen] using hopen
  rw [← List.head?_reverse] at hlast
  rw [lastPiece] at h
  cases hreverse : path.pieces.reverse with
  | nil => exact absurd (List.reverse_eq_nil_iff.mp hreverse) path.pieces_ne_nil
  | cons last rest =>
    have hne : last ≠ "" := by simpa [hreverse] using hlast
    rw [hreverse, List.dropWhile_cons_of_neg (by simpa using hne)] at h
    cases h
    simpa using congrArg List.reverse hreverse

/-- **A path names an entry of a directory**, which may be there or not: it leads to the place of
the directory, and its last piece is the name. -/
structure Names (files : FileSystem) (path : Path) (place : Place) (name : String) : Prop where
  spelled : FileSystem.spelled path = .ok ()
  leads : ∃ before, path.pieces = before ++ [name] ∧
    (files.start path >>= before.foldlM Place.follow) = .ok place
  entryName : EntryName name
  size : name.utf8ByteSize ≤ maxNameSize

/-- The place of the directory is one of the tree. -/
lemma Names.within {files : FileSystem} {path : Path} {place : Place} {name : String}
    (h : files.Names path place name) : Place.Within files.root place := by
  obtain ⟨before, -, hplace⟩ := h.leads
  obtain ⟨first, hfirst, hplace⟩ := bind_eq_ok_iff.mp hplace
  exact (within_of_start hfirst).foldlM_follow hplace

/-- A path leads to the entry that it names. -/
lemma Names.reach {files : FileSystem} {path : Path} {place : Place} {name : String}
    (h : files.Names path place name) {entries : List (String × Node)} {node : Node}
    (hnode : place.node = .directory entries) (hlookup : entries.lookup name = some node) :
    files.reach path = .ok ⟨node, (name, place.node) :: place.way⟩ := by
  obtain ⟨before, hpieces, hplace⟩ := h.leads
  obtain ⟨first, hfirst, hplace⟩ := bind_eq_ok_iff.mp hplace
  have henter : place.follow name = .ok ⟨node, (name, place.node) :: place.way⟩ := by
    rw [place.follow_eq_enter h.entryName]
    exact Place.enter_eq_ok_iff.mpr
      ⟨node, Place.lookup_eq_ok_iff.mpr ⟨entries, hnode, h.size, hlookup⟩, rfl⟩
  refine bind_eq_ok_iff.mpr ⟨(), h.spelled, bind_eq_ok_iff.mpr ⟨first, hfirst, ?_⟩⟩
  rw [hpieces, List.foldlM_append]
  exact bind_eq_ok_iff.mpr ⟨place, hplace, bind_eq_ok_iff.mpr ⟨_, henter, rfl⟩⟩

/-- A path names the same entry in a tree that keeps what is there. -/
lemma Names.of_keeps {files files' : FileSystem} {spared : Address → Prop} {path : Path}
    {place : Place} {name : String} (h : files.Names path place name)
    (hkeeps : files.root.Keeps files'.root spared) (hhere : files'.here = files.here) :
    ∃ place', files'.Names path place' name ∧ place'.address = place.address := by
  obtain ⟨before, hpieces, hplace⟩ := h.leads
  obtain ⟨place', hplace', -, haddress⟩ := follow_of_keeps hkeeps hhere hplace
  exact ⟨place', { h with leads := ⟨before, hpieces, hplace'⟩ }, haddress⟩

/-- **What writing a file does**: it puts the file into the directory where the path names it, in
place of nothing or of a file. -/
lemma writeFile_eq_ok {files files' : FileSystem} {path : Path} {content : ByteArray}
    (h : files.writeFile path content = .ok files') :
    ∃ place name entries, ∃ hnames : files.Names path place name,
      place.node = .directory entries ∧
      (∀ old, entries.lookup name = some old → ∃ was, old = .file was) ∧
      files' = files.putAt place.address name (.file content) hnames.entryName (.file content) := by
  rw [writeFile] at h
  obtain ⟨_, hspelled, h⟩ := bind_eq_ok_iff.mp h
  split at h
  · cases h
  · next name before hlast =>
    obtain ⟨place, hholder, h⟩ := bind_eq_ok_iff.mp h
    split at h
    · next hname =>
      obtain ⟨node?, hlookup, h⟩ := bind_eq_ok_iff.mp h
      obtain ⟨entries, hnode, hsize, hfound⟩ := Place.lookup_eq_ok_iff.mp hlookup
      have hpieces := pieces_of_lastPiece hname.2 hlast
      obtain ⟨first, hfirst, hplace⟩ := bind_eq_ok_iff.mp hholder
      obtain ⟨last, hlastPlace, hplace⟩ := bind_eq_ok_iff.mp hplace
      obtain ⟨_, -, rfl⟩ := map_eq_ok_iff.mp hplace
      refine ⟨last, name, entries, ⟨hspelled, ⟨before.reverse, hpieces,
        bind_eq_ok_iff.mpr ⟨first, hfirst, hlastPlace⟩⟩, hname.1, hsize⟩, hnode, ?_⟩
      split at h
      · cases h
      · next hfile =>
        cases h
        refine ⟨fun old hold => ?_, rfl⟩
        cases old with
        | file was => exact ⟨was, rfl⟩
        | directory inner => exact absurd (hfound.symm.trans hold) (hfile inner)
    · cases h

/-- **Writing a file** changes nothing but that file: where the path names it, the content stands
afterwards, and everything else is kept. -/
lemma writeFile_spec {files files' : FileSystem} {path : Path} {content : ByteArray}
    (h : files.writeFile path content = .ok files') :
    files'.here = files.here ∧ ∃ place name, files.Names path place name ∧
      files.root.Keeps files'.root (· ≠ place.address ++ [name]) ∧
      files'.root.get? (place.address ++ [name]) = some (.file content) := by
  obtain ⟨place, name, entries, hnames, hnode, hold, rfl⟩ := writeFile_eq_ok h
  have hplace := hnames.within.get?_address
  rw [hnode] at hplace
  refine ⟨rfl, place, name, hnames, Node.keeps_put (fun old hlookup => ?_) hplace,
    Node.get?_put_self hplace⟩
  obtain ⟨was, rfl⟩ := hold old hlookup
  exact ⟨was, content, rfl, rfl⟩

/-- **A path leads to the file at the address that it names.** -/
lemma Names.readFile {files : FileSystem} {path : Path} {place : Place} {name : String}
    (h : files.Names path place name) {content : ByteArray}
    (hfile : files.root.get? (place.address ++ [name]) = some (.file content)) :
    files.readFile path = .ok content := by
  rw [Node.get?_append, h.within.get?_address] at hfile
  obtain ⟨entries, child, hnode, hlookup, hchild⟩ := Node.exists_child hfile
  cases hchild
  exact readFile_eq_ok_iff.mpr ⟨_, h.reach hnode hlookup, rfl⟩

/-- **A file is read back as it was written.** -/
theorem readFile_of_writeFile {files files' : FileSystem} {path : Path} {content : ByteArray}
    (h : files.writeFile path content = .ok files') : files'.readFile path = .ok content := by
  obtain ⟨hhere, place, name, hnames, hkeeps, hfile⟩ := writeFile_spec h
  obtain ⟨place', hnames', haddress⟩ := hnames.of_keeps hkeeps hhere
  rw [← haddress] at hfile
  exact hnames'.readFile hfile

/-! ## Files of one directory -/

/-- **The pieces of a path that is joined with a name**: the name stands behind those of the path,
or in place of an empty one at the end. -/
lemma exists_pieces_join (directory : Path) {name : String} (h : '/' ∉ name.toList) :
    ∃ before, (directory.join name).pieces = before ++ [name] ∧
      (directory.text ≠ "" ∧ directory.pieces = before ∨ directory.pieces = before ++ [""]) := by
  have hname : (Text.segments '/' name.toList).map String.ofList = [name] := by
    rw [Text.segments_of_not_mem h]
    simp
  rw [Path.join, Path.pieces, Path.pieces]
  split_ifs with hempty hslash
  · exact ⟨[], by rw [hname]; rfl, .inr (by rw [hempty]; rfl)⟩
  · obtain ⟨front, hfront⟩ := List.getLast?_eq_some_iff.mp hslash
    refine ⟨(Text.segments '/' front).map String.ofList, ?_, .inr ?_⟩
    · rw [String.toList_append, hfront, List.append_assoc, List.singleton_append,
        Text.segments_append, List.map_append, hname]
    · rw [hfront, Text.segments_append, List.map_append]
      rfl
  · refine ⟨_, ?_, .inl ⟨hempty, rfl⟩⟩
    rw [String.toList_append, String.toList_append, List.append_assoc,
      show "/".toList = ['/'] from rfl, List.singleton_append, Text.segments_append,
      List.map_append, hname]

/-- **A path that is joined with a name names no other entry.** -/
lemma Names.name_eq {files : FileSystem} {directory : Path} {place : Place} {name last : String}
    (h : files.Names (directory.join name) place last) (hname : EntryName name) : last = name := by
  obtain ⟨before, hpieces, -⟩ := h.leads
  obtain ⟨front, hjoin, -⟩ := exists_pieces_join directory hname.noSlash
  exact List.singleton_inj.mp (List.append_inj' (hpieces.symm.trans hjoin) rfl).2

/-- **A path that leads to an entry of a directory names it.** -/
lemma names_of_reach_join {files : FileSystem} {directory : Path} {place : Place} {name : String}
    (hname : EntryName name) (h : files.reach (directory.join name) = .ok place) :
    ∃ above, files.Names (directory.join name) above name ∧
      place.address = above.address ++ [name] := by
  obtain ⟨before, hpieces, -⟩ := exists_pieces_join directory hname.noSlash
  obtain ⟨_, hspelled, h⟩ := bind_eq_ok_iff.mp h
  obtain ⟨first, hfirst, h⟩ := bind_eq_ok_iff.mp h
  rw [hpieces, List.foldlM_append] at h
  obtain ⟨above, habove, h⟩ := bind_eq_ok_iff.mp h
  obtain ⟨last, h, hplace⟩ := bind_eq_ok_iff.mp h
  cases hplace
  rw [above.follow_eq_enter hname] at h
  obtain ⟨node, hlookup, -⟩ := Place.enter_eq_ok_iff.mp h
  obtain ⟨entries, -, hsize, -⟩ := Place.lookup_eq_ok_iff.mp hlookup
  exact ⟨above, ⟨hspelled, ⟨before, hpieces, bind_eq_ok_iff.mpr ⟨first, hfirst, habove⟩⟩, hname,
    hsize⟩, Place.address_enter h⟩

/-- **Writing a file leaves files of other names alone.** -/
theorem readFile_of_writeFile_other {files files' : FileSystem} {directory : Path}
    {name other : String} (hname : EntryName name) (hother : EntryName other) (hne : other ≠ name)
    {content kept : ByteArray} (h : files.writeFile (directory.join name) content = .ok files')
    (hread : files.readFile (directory.join other) = .ok kept) :
    files'.readFile (directory.join other) = .ok kept := by
  obtain ⟨hhere, place, last, hnames, hkeeps, -⟩ := writeFile_spec h
  obtain ⟨target, hreach, -⟩ := readFile_eq_ok_iff.mp hread
  refine readFile_of_keeps hkeeps hhere hreach (fun heq => hne ?_) hread
  obtain ⟨above, -, haddress⟩ := names_of_reach_join hother hreach
  obtain ⟨-, hsame⟩ := List.append_inj' (haddress.symm.trans heq) rfl
  exact (List.singleton_inj.mp hsame).trans (hnames.name_eq hname)

/-- A text that was written is read back. -/
lemma readText_of_readFile {files : FileSystem} {path : Path} {text : String}
    (h : files.readFile path = .ok (Text.Utf8.encode text)) : files.readText path = .ok text := by
  rw [readText, h]
  simp [bind, Except.bind, Text.Utf8.decode?_encode, pure, Except.pure]

end LivingDocs.FileSystem
