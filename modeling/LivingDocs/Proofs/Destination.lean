import LivingDocs.Proofs.Selected

/-!
# Where a path is bound for

Without links, where a path leads to can be read off its parts: a name goes one step down, `..` one
step up, and nothing else moves at all but the root in front. What stands on the disk decides only
whether the path leads there. So two paths with the same parts are bound for the same address,
while paths with other parts may be so as well: `tests/a` and `./tests/a` are. A file is read by
each of them, if they lead there at all.

## Main definitions

* `LivingDocs.Path.Part.apply`, `LivingDocs.Path.destination` — where a part and a path lead to.
* `LivingDocs.FileSystem.Opens` — a path opens the directory at an address.

## Main results

* `LivingDocs.Path.parts_join`, `LivingDocs.Path.parts_below` — the parts of a path that leads on.
* `LivingDocs.FileSystem.address_of_reach` — a path leads to no other address than its destination.
* `LivingDocs.FileSystem.readFile_join_of_opens` — a file is read by every path that opens its
  directory.
-/

set_option autoImplicit false

namespace LivingDocs

open FileSystem

namespace Path

/-! ## Parts of a path that leads on -/

/-- The pieces of a path without a separator: it is the only one. -/
lemma text_eq_of_pieces_singleton {path : Path} {piece : String} (h : path.pieces = [piece]) :
    path.text = piece := by
  by_cases hslash : '/' ∈ path.text.toList
  · obtain ⟨front, rest, htext⟩ := List.append_of_mem hslash
    have hlength := congrArg List.length h
    have hfront := List.length_pos_iff.mpr (Text.segments_ne_nil '/' front)
    have hrest := List.length_pos_iff.mpr (Text.segments_ne_nil '/' rest)
    rw [pieces, htext, Text.segments_append, List.length_map, List.length_append,
      List.length_singleton] at hlength
    omega
  · rw [pieces, Text.segments_of_not_mem hslash] at h
    simpa using h

/-- A path starts with a separator exactly if its first piece is empty and not the only one. -/
lemma isAbsolute_iff_of_pieces {path : Path} {first : String} {rest : List String}
    (h : path.pieces = first :: rest) : path.isAbsolute = true ↔ first = "" ∧ rest ≠ [] := by
  rw [isAbsolute, decide_eq_true_iff]
  rw [pieces] at h
  cases htext : path.text.toList with
  | nil =>
    rw [htext] at h
    cases h
    simp
  | cons c text =>
    rw [htext, Text.segments] at h
    split_ifs at h with hc
    · subst hc
      obtain ⟨rfl, rfl⟩ := List.cons.inj h
      simp [Text.segments_ne_nil]
    · cases hrest : Text.segments '/' text with
      | nil => exact absurd hrest (Text.segments_ne_nil '/' text)
      | cons piece pieces =>
        rw [hrest] at h
        obtain ⟨rfl, -⟩ := List.cons.inj h
        simp [hc, ← String.toList_inj]

/-- The parts of a path whose pieces are known, of which the last one is one of several. -/
lemma parts_of_pieces_concat {path : Path} {first last : String} {rest : List String}
    (h : path.pieces = first :: (rest ++ [last])) :
    path.parts = (firstPart? first true).toList ++ rest.filterMap innerPart? ++
      (innerPart? last).toList := by
  have hmore : (!(rest ++ [last]).isEmpty) = true := by simp
  rw [parts, h]
  dsimp only
  rw [hmore, List.filterMap_append, List.append_assoc]
  cases hlast : innerPart? last <;> simp [hlast]

/-- **A path that is joined with a name has that name as one more part.** -/
lemma parts_join (path : Path) {name : String} (h : EntryName name) :
    (path.join name).parts = path.parts ++ [.named name] := by
  have hinner := innerPart?_of_entryName h
  obtain ⟨before, hjoin, hpath⟩ := exists_pieces_join path h.noSlash
  cases before with
  | nil =>
    -- nothing but the empty path adds no piece
    have hempty : path.pieces = [""] := hpath.resolve_left fun hnil => path.pieces_ne_nil hnil.2
    rw [parts, parts, hjoin, hempty]
    simp [firstPart?, h.nonempty, h.notHere, hinner]
  | cons first rest =>
    rw [parts_of_pieces_concat hjoin, hinner]
    rcases hpath with ⟨htext, hpieces⟩ | hpieces
    · rw [parts, hpieces]
      cases rest with
      | nil =>
        have hfirst : first ≠ "" := text_eq_of_pieces_singleton hpieces ▸ htext
        simp [firstPart?, hfirst]
      | cons next rest => simp
    · rw [parts_of_pieces_concat hpieces]
      simp [innerPart?]

/-- A path that is joined with a name starts at the root if it did so before. -/
lemma isAbsolute_join (path : Path) {name : String} (h : '/' ∉ name.toList) :
    (path.join name).isAbsolute = path.isAbsolute := by
  by_cases hempty : path.text = ""
  · have hname : name.toList.head? ≠ some '/' := fun hhead => h (List.mem_of_mem_head? hhead)
    rw [join, if_pos hempty]
    simpa [isAbsolute, hempty] using hname
  · obtain ⟨c, rest, htext⟩ :=
      List.exists_cons_of_ne_nil fun hnil => hempty (String.toList_eq_nil_iff.mp hnil)
    rw [join, if_neg hempty]
    split_ifs <;> simp [isAbsolute, htext]

/-- The characters of a path that is joined with a name. -/
lemma mem_text_join (path : Path) (name : String) {c : Char} (hc : c ≠ '/') :
    c ∈ (path.join name).text.toList ↔ c ∈ path.text.toList ∨ c ∈ name.toList := by
  rw [join]
  split_ifs with hempty
  · simp [hempty]
  · simp
  · simp [hc]

/-- **The parts of a path that leads on by some names.** -/
lemma parts_below (root : Path) {names : Address} (h : ∀ name ∈ names, EntryName name) :
    (root.below names).parts = root.parts ++ names.map .named := by
  induction names generalizing root with
  | nil => simp [below]
  | cons name names ih =>
    obtain ⟨hname, hnames⟩ := List.forall_mem_cons.mp h
    have hrest := ih (root.join name) hnames
    rw [below] at hrest ⊢
    rw [List.foldl_cons, hrest, parts_join root hname, List.map_cons, List.append_assoc,
      List.singleton_append]

/-! ## Destinations -/

/-- **Where a part leads to** from an address. -/
def Part.apply (address : Address) : Part → Address
  | root => []
  | here => address
  | up => address.dropLast
  | named name => address ++ [name]

/-- **Where a path is bound for**, given the address of the working directory. -/
def destination (path : Path) (here : Address) : Address := path.parts.foldl Part.apply here

/-- Names lead down one after the other. -/
lemma foldl_apply_named (names address : Address) :
    (names.map Part.named).foldl Part.apply address = address ++ names := by
  induction names generalizing address with
  | nil => simp
  | cons name names ih => simp [Part.apply, ih]

/-- **Where a path is bound for that leads on by some names.** -/
lemma destination_below (root : Path) {names : Address} (h : ∀ name ∈ names, EntryName name)
    (here : Address) : (root.below names).destination here = root.destination here ++ names := by
  rw [destination, parts_below root h, List.foldl_append, foldl_apply_named, ← destination]

lemma destination_join (path : Path) {name : String} (h : EntryName name) (here : Address) :
    (path.join name).destination here = path.destination here ++ [name] :=
  path.destination_below (List.forall_mem_singleton.mpr h) here

end Path

namespace FileSystem

/-- Where one piece of a path leads to. -/
lemma Place.address_follow {place next : Place} {piece : String}
    (h : place.follow piece = .ok next) :
    next.address = (Path.innerPart? piece).toList.foldl Path.Part.apply place.address := by
  rw [Place.follow] at h
  rw [Path.innerPart?]
  split_ifs at h ⊢
  · obtain ⟨_, -, rfl⟩ := map_eq_ok_iff.mp h
    rfl
  · obtain ⟨_, -, rfl⟩ := map_eq_ok_iff.mp h
    exact Place.address_up place
  · exact Place.address_enter h

/-- Where several pieces of a path lead to. -/
lemma Place.address_foldlM_follow {place last : Place} {pieces : List String}
    (h : pieces.foldlM Place.follow place = .ok last) :
    last.address = (pieces.filterMap Path.innerPart?).foldl Path.Part.apply place.address := by
  induction pieces generalizing place with
  | nil =>
    cases h
    rfl
  | cons piece pieces ih =>
    rw [List.foldlM_cons, bind_eq_ok_iff] at h
    obtain ⟨next, hnext, h⟩ := h
    rw [ih h, Place.address_follow hnext, List.filterMap_cons]
    cases Path.innerPart? piece <;> rfl

/-- The working directory stands at its address. -/
lemma address_of_workplace {files : FileSystem} {place : Place}
    (h : files.workplace = .ok place) : place.address = files.here := by
  have henter : ∀ (names : Address) (first : Place),
      names.foldlM Place.enter first = .ok place → place.address = first.address ++ names := by
    intro names
    induction names with
    | nil =>
      intro first hfirst
      cases hfirst
      simp
    | cons name names ih =>
      intro first hfirst
      rw [List.foldlM_cons, bind_eq_ok_iff] at hfirst
      obtain ⟨next, hnext, hfirst⟩ := hfirst
      rw [ih next hfirst, Place.address_enter hnext, List.append_assoc, List.singleton_append]
  exact henter files.here (Place.top files.root) h

/-- **A path leads to no other address than its destination.**

**Proof sketch.** Each piece behind the first one does what its part says. The first piece is empty
if the path starts at the root, and then the part is the root; a `.` in front stays where the path
starts, and any other piece is as one behind it. -/
theorem address_of_reach {files : FileSystem} {path : Path} {place : Place}
    (h : files.reach path = .ok place) : place.address = path.destination files.here := by
  obtain ⟨_, hspelled, h⟩ := bind_eq_ok_iff.mp h
  obtain ⟨first, hfirst, h⟩ := bind_eq_ok_iff.mp h
  have hnonempty := ((spelled_eq_ok_iff path).mp hspelled).2.2
  rw [Path.destination, Path.parts]
  cases hpieces : path.pieces with
  | nil => exact absurd hpieces path.pieces_ne_nil
  | cons piece pieces =>
    have habsolute := Path.isAbsolute_iff_of_pieces hpieces
    rw [hpieces] at h
    have haddress := Place.address_foldlM_follow h
    rw [start] at hfirst
    split_ifs at hfirst with hroot
    · obtain ⟨rfl, hmore⟩ := habsolute.mp hroot
      cases hfirst
      rw [haddress]
      simp [Path.firstPart?, hmore, Path.innerPart?, Path.Part.apply, Place.top, Place.address]
    · rw [address_of_workplace hfirst] at haddress
      have hpiece : piece ≠ "" := by
        rintro rfl
        cases pieces with
        | nil => exact hnonempty (Path.text_eq_of_pieces_singleton hpieces)
        | cons next pieces => exact hroot (habsolute.mpr ⟨rfl, List.cons_ne_nil _ _⟩)
      rw [haddress, List.filterMap_cons]
      by_cases hdot : piece = "."
      · simp [hdot, Path.firstPart?, Path.innerPart?, Path.Part.apply]
      · simp only [Path.firstPart?, if_neg hpiece, if_neg hdot]
        cases Path.innerPart? piece <;> rfl

/-- A path that leads somewhere leads to its destination. -/
lemma destination_of_locate {files : FileSystem} {path : Path} {address : Address}
    (h : files.locate path = .ok address) : path.destination files.here = address := by
  obtain ⟨place, hreach, rfl⟩ := map_eq_ok_iff.mp h
  exact (address_of_reach hreach).symm

/-! ## Directories that a path opens -/

/-- **A path opens the directory at an address**: names that the path is joined with are looked up
there. That is where the path leads to. The empty path, which leads nowhere, opens the working
directory. -/
def Opens (files : FileSystem) (path : Path) (directory : Address) : Prop :=
  (if path.text = "" then files.workplace else files.reach path).map Place.address =
    .ok directory

instance (files : FileSystem) (path : Path) (directory : Address) :
    Decidable (files.Opens path directory) := inferInstanceAs (Decidable (_ = _))

namespace Opens

variable {files : FileSystem} {path : Path} {directory : Address} {name : String}

/-- **The pieces in front of a name lead to the directory that is opened.**

**Proof sketch.** These are the pieces of the path, up to an empty one at the end, which stays at
the place that the others lead to. -/
lemma exists_leads (h : files.Opens path directory) (hname : '/' ∉ name.toList) :
    ∃ before place, (path.join name).pieces = before ++ [name] ∧
      (files.start (path.join name) >>= before.foldlM Place.follow) = .ok place ∧
      place.address = directory := by
  obtain ⟨place, hplace, haddress⟩ := map_eq_ok_iff.mp h
  obtain ⟨before, hjoin, hpath⟩ := exists_pieces_join path hname
  refine ⟨before, place, hjoin, ?_, haddress⟩
  rw [start, path.isAbsolute_join hname, ← start]
  split_ifs at hplace with hempty
  · have hpieces : path.pieces = [""] := by
      rw [Path.pieces, hempty]
      rfl
    rcases hpath with ⟨htext, -⟩ | hbefore
    · exact absurd hempty htext
    · have hnone : [] = before := (List.append_inj' (hpieces.symm.trans hbefore) rfl).1
      have hstart : files.start path = files.workplace := by simp [start, Path.isAbsolute, hempty]
      rw [hstart, hplace, ← hnone]
      rfl
  · obtain ⟨_, -, hplace⟩ := bind_eq_ok_iff.mp hplace
    obtain ⟨first, hfirst, hplace⟩ := bind_eq_ok_iff.mp hplace
    refine bind_eq_ok_iff.mpr ⟨first, hfirst, ?_⟩
    rcases hpath with ⟨-, hpieces⟩ | hpieces
    · rwa [hpieces] at hplace
    · rw [hpieces, List.foldlM_append] at hplace
      obtain ⟨above, habove, hplace⟩ := bind_eq_ok_iff.mp hplace
      obtain ⟨last, hlast, hplace⟩ := bind_eq_ok_iff.mp hplace
      cases hplace
      rw [Place.follow, if_pos (.inl rfl)] at hlast
      obtain ⟨_, -, rfl⟩ := map_eq_ok_iff.mp hlast
      exact habove

/-- A path that opens a directory can be looked up with a name behind it, unless this makes it too
long. -/
lemma spelled_join (h : files.Opens path directory) (hname : EntryName name)
    (hnull : nullCharacter ∉ name.toList)
    (hlength : (path.join name).text.utf8ByteSize ≤ maxPathSize) :
    spelled (path.join name) = .ok () := by
  have hpath : nullCharacter ∉ path.text.toList := by
    obtain ⟨place, hplace, -⟩ := map_eq_ok_iff.mp h
    split_ifs at hplace with hempty
    · simp [hempty]
    · obtain ⟨_, hspelled, -⟩ := bind_eq_ok_iff.mp hplace
      exact ((spelled_eq_ok_iff path).mp hspelled).1
  refine (spelled_eq_ok_iff _).mpr ⟨?_, hlength, fun hempty => ?_⟩
  · rw [path.mem_text_join name (by decide), not_or]
    exact ⟨hpath, hnull⟩
  · obtain ⟨before, hpieces, -⟩ := exists_pieces_join path hname.noSlash
    rw [Path.pieces, hempty] at hpieces
    have hlast : [] ++ [""] = before ++ [name] := hpieces
    exact hname.nonempty (List.singleton_inj.mp (List.append_inj' hlast rfl).2).symm

end Opens

/-- **A file is read by every path that opens its directory**, from any working directory, if the
path with the name of the file behind it is not too long.

**Proof sketch.** What is read stands at the destination of the path that it is read by. The other
path names the same address, so it is read there as well. -/
lemma readFile_join_of_opens {files later : FileSystem} (hroot : later.root = files.root)
    {path source : Path} {name : String} {content : ByteArray} (hname : EntryName name)
    (hopens : later.Opens source (path.destination files.here))
    (hlength : (source.join name).text.utf8ByteSize ≤ maxPathSize)
    (h : files.readFile (path.join name) = .ok content) :
    later.readFile (source.join name) = .ok content := by
  obtain ⟨place, hreach, hnode⟩ := readFile_eq_ok_iff.mp h
  obtain ⟨_, hnames, -⟩ := names_of_reach_join hname hreach
  have hnull : nullCharacter ∉ name.toList := fun hmem =>
    ((spelled_eq_ok_iff _).mp hnames.spelled).1
      ((path.mem_text_join name (by decide)).mpr (.inr hmem))
  obtain ⟨before, above, hpieces, hleads, haddress⟩ := hopens.exists_leads hname.noSlash
  have hother : later.Names (source.join name) above name :=
    ⟨hopens.spelled_join hname hnull hlength, ⟨before, hpieces, hleads⟩, hname, hnames.size⟩
  refine hother.readFile ?_
  have hget := (within_of_reach hreach).get?_address
  rw [address_of_reach hreach, path.destination_join hname, hnode] at hget
  rw [haddress, hroot, hget]

end FileSystem

end LivingDocs
