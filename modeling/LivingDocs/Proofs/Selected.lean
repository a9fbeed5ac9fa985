import LivingDocs.Proofs.Disk
import LivingDocs.Proofs.Ordered
import LivingDocs.Selection.Basic

/-!
# Which files are selected

The way through a tree leaves out whatever lies below an excluded name, hands the patterns of the
ignore files down, and remembers what has come of looks at them. What it finds can be said without
all that: a file is selected if it is reached from a root by names of which none is barred, and a
name is barred by a pattern that holds everywhere, or by one in an ignore file of a directory that
the way has led through below the root. So neither the order of the roots nor earlier looks make a
difference.

## Main definitions

* `LivingDocs.Path.below` — the path that leads on from another one by some names.
* `LivingDocs.Selection.Covered`, `LivingDocs.Selection.ignoreTexts` — names that a pattern covers,
  and the texts in an ignore file.
* `LivingDocs.Selection.Options.Bars` — which names are left out.
* `LivingDocs.Selection.Options.Selects` — which files are selected.
* `LivingDocs.Selection.Accessible` — a tree that can be looked at under a path.

## Main results

* `LivingDocs.Selection.found_mem_visit` — which files are found below a node.
* `LivingDocs.Selection.found_mem_visitRoots` — which files are found below some roots.
* `LivingDocs.Selection.ascending_arranged` — selected files are in the order of their paths.
* `LivingDocs.Selection.select_meets` — the selected files.
-/

set_option autoImplicit false

namespace LivingDocs

open FileSystem Std

/-! ## Trees and the paths in them -/

namespace FileSystem.Node

/-- In a list with different names, each entry is found under its name. -/
lemma lookup_eq_some_iff_mem {entries : List (String × Node)}
    (h : (entries.map Prod.fst).Nodup) {name : String} {node : Node} :
    entries.lookup name = some node ↔ (name, node) ∈ entries := by
  refine ⟨mem_of_lookup, fun hmem => ?_⟩
  induction entries with
  | nil => cases hmem
  | cons entry entries ih =>
    obtain ⟨first, inner⟩ := entry
    obtain ⟨hnew, hrest⟩ := List.nodup_cons.mp h
    rw [lookup_entry]
    rcases List.mem_cons.mp hmem with heq | hlater
    · cases heq
      exact if_pos rfl
    · have hne : name ≠ first := by
        rintro rfl
        exact hnew (List.mem_map.mpr ⟨_, hlater, rfl⟩)
      rw [if_neg hne]
      exact ih hrest hlater

/-- What an address leads to that starts with the name of an entry. -/
lemma get?_entry {entries : List (String × Node)} {name : String} {child : Node}
    (h : entries.lookup name = some child) (names : Address) :
    (directory entries).get? (name :: names) = child.get? names := by
  rw [get?_cons, child?, Node.entries, h]
  rfl

/-- The names of the entries of a directory are in order. -/
lemma Ordered.ascending {entries : List (String × Node)} (h : (Node.directory entries).Ordered) :
    Ascending (entries.map Prod.fst) := by
  cases h with
  | directory ascending _ _ => exact ascending

/-- Each name stands for one entry of a directory. -/
lemma Ordered.nodup {entries : List (String × Node)} (h : (Node.directory entries).Ordered) :
    (entries.map Prod.fst).Nodup :=
  h.ascending.nodup

/-- What stands in a tree with its entries in order is one, and all names on the way to it are
names of entries. -/
lemma Ordered.of_get? {node inner : Node} (h : node.Ordered) {names : Address}
    (hinner : node.get? names = some inner) :
    inner.Ordered ∧ ∀ name ∈ names, EntryName name := by
  induction names generalizing node with
  | nil =>
    cases hinner
    exact ⟨h, List.forall_mem_nil _⟩
  | cons name names ih =>
    obtain ⟨entries, child, rfl, hlookup, hchild⟩ := exists_child hinner
    obtain ⟨hname, hbelow⟩ := h.of_lookup hlookup
    obtain ⟨hfound, hnames⟩ := ih hbelow hchild
    exact ⟨hfound, List.forall_mem_cons.mpr ⟨hname, hnames⟩⟩

end FileSystem.Node

namespace Path

/-- **The path that leads on from another one by some names.** -/
def below (root : Path) (names : Address) : Path := names.foldl join root

/-- A name of an entry adds itself. -/
lemma innerPart?_of_entryName {name : String} (h : EntryName name) :
    innerPart? name = some (.named name) := by
  simp [innerPart?, h.nonempty, h.notHere, h.notUp]

/-- A path that is joined with a name has that name at its end. -/
lemma fileName_join (path : Path) {name : String} (h : EntryName name) :
    (path.join name).fileName = name := by
  have hinner := innerPart?_of_entryName h
  have hlast : (path.join name).parts.getLast? = some (.named name) := by
    obtain ⟨before, hpieces, -⟩ := exists_pieces_join path h.noSlash
    rw [parts, hpieces]
    cases before with
    | nil => simp [firstPart?, h.nonempty, h.notHere, hinner]
    | cons first rest => simp [List.filterMap_append, hinner]
  simp [fileName, hlast, Part.name?]

/-- The name at the end of a path that leads on by some names. -/
lemma fileName_below (root : Path) {names : Address} (h : ∀ name ∈ names, EntryName name) :
    (root.below names).fileName = names.getLast?.getD root.fileName := by
  rcases List.eq_nil_or_concat names with rfl | ⟨above, name, rfl⟩
  · rfl
  · have hname : EntryName name := h name (by simp)
    rw [List.concat_eq_append, below, List.foldl_append, List.getLast?_concat]
    exact fileName_join _ hname

end Path

namespace Selection

/-! ## Names that are barred -/

/-- **A name that a pattern covers**; texts that are no patterns have no say. -/
def Covered (texts : List String) (name : String) : Prop :=
  ∃ text ∈ texts, ∃ glob, Glob.compile text = .ok glob ∧ glob.covers name = true

/-- **The texts in the ignore file of a directory**, if there is one and it is text. -/
def ignoreTexts (entries : List (String × Node)) : List String :=
  ((ignoreFile? entries).bind Text.Utf8.decode?).elim [] fun text => exclusions (Text.lines text)

/-- **Which names are left out** in the directory that some names lead to from the node of a root:
a standard pattern or one of the options covers them, or one in the ignore file of a directory on
the way, from the root down to the directory itself. -/
def Options.Bars (options : Options) (top : Node) (above : Address) (name : String) : Prop :=
  Covered (standardExclusions ++ options.exclude) name ∨
    options.readIgnoreFiles = true ∧ ∃ directory entries, directory <+: above ∧
      top.get? directory = some (.directory entries) ∧ Covered (ignoreTexts entries) name

/-- **Which files are selected**: names lead to a file from a root, the last one is wanted, and none
of them is left out. The name of the root matters only if the root is the file. -/
def Options.Selects (options : Options) (files : FileSystem) (root : Path) (names : Address) :
    Prop :=
  ∃ top content, files.find root = .ok top ∧ top.get? names = some (.file content) ∧
    isWanted (names.getLast?.getD root.fileName) options.nonTests options.extensionless = true ∧
    ∀ above name, above ++ [name] <+: names → ¬ options.Bars top above name

/-- A name fits one of the patterns among some texts exactly if it is covered. -/
lemma anyCovers_patterns {texts : List String} {name : String} :
    Glob.anyCovers (patterns texts) name = true ↔ Covered texts name := by
  have hcompile : ∀ text glob,
      (Glob.compile text).toOption = some glob ↔ Glob.compile text = .ok glob := by
    intro text glob
    cases Glob.compile text <;> simp [Except.toOption]
  simp only [Glob.anyCovers, List.any_eq_true, patterns, List.mem_filterMap, hcompile, Covered]
  constructor
  · rintro ⟨glob, ⟨text, htext, hglob⟩, hcovers⟩
    exact ⟨text, htext, glob, hglob, hcovers⟩
  · rintro ⟨text, htext, glob, hglob, hcovers⟩
    exact ⟨glob, ⟨text, htext, hglob⟩, hcovers⟩

/-- **Which names are left out below a node**, given the patterns of the ignore files above it. -/
def Sieve.Bars (sieve : Sieve) (levels : List (List Glob)) (top : Node) (above : Address)
    (name : String) : Prop :=
  sieve.excludes levels name = true ∨
    sieve.readIgnoreFiles = true ∧ ∃ directory entries, directory <+: above ∧
      top.get? directory = some (.directory entries) ∧ Covered (ignoreTexts entries) name

/-- At a root there are no ignore files above. -/
lemma bars_sieve {options : Options} {top : Node} {above : Address} {name : String} :
    options.sieve.Bars [] top above name ↔ options.Bars top above name := by
  simp [Sieve.Bars, Options.Bars, Sieve.excludes, Options.sieve, Options.baseTexts,
    anyCovers_patterns]

section Levels

variable {sieve : Sieve} {levels : List (List Glob)} {entries : List (String × Node)}
  {name : String}

/-- A name is left out with one more ignore file if it was before or if that file covers it. -/
lemma excludes_cons {texts : List String} :
    sieve.excludes (patterns texts :: levels) name = true ↔
      sieve.excludes levels name = true ∨ sieve.readIgnoreFiles = true ∧ Covered texts name := by
  simp only [Sieve.excludes, List.any_cons, Bool.or_eq_true, Bool.and_eq_true, anyCovers_patterns]
  tauto

/-- In a directory its own ignore file has a say. -/
lemma bars_nil : sieve.Bars levels (.directory entries) [] name ↔
    sieve.excludes (patterns (ignoreTexts entries) :: levels) name = true := by
  rw [excludes_cons, Sieve.Bars]
  simp [Node.get?]

/-- **Further down the ignore file of a directory counts as one above.** -/
lemma bars_cons {first : String} {child : Node} (hchild : entries.lookup first = some child)
    {above : Address} : sieve.Bars levels (.directory entries) (first :: above) name ↔
      sieve.Bars (patterns (ignoreTexts entries) :: levels) child above name := by
  have hget := Node.get?_entry hchild
  rw [Sieve.Bars, Sieve.Bars, excludes_cons, or_assoc, ← and_or_left]
  refine or_congr_right (and_congr_right fun _ => ?_)
  constructor
  · rintro ⟨directory, inner, hprefix, hinner, hcovered⟩
    rcases List.prefix_cons_iff.mp hprefix with rfl | ⟨names, rfl, hnames⟩
    · cases hinner
      exact .inl hcovered
    · exact .inr ⟨names, inner, hnames, hget names ▸ hinner, hcovered⟩
  · rintro (hcovered | ⟨names, inner, hnames, hinner, hcovered⟩)
    · exact ⟨[], entries, List.nil_prefix, rfl, hcovered⟩
    · exact ⟨first :: names, inner, List.cons_prefix_cons.mpr ⟨rfl, hnames⟩,
        (hget names).trans hinner, hcovered⟩

end Levels

/-- What holds at each step of a way holds at the first one and at each step of the rest. -/
lemma forall_step_cons {first : String} {names : Address} {p : Address → String → Prop} :
    (∀ above name, above ++ [name] <+: first :: names → p above name) ↔
      p [] first ∧ ∀ above name, above ++ [name] <+: names → p (first :: above) name := by
  constructor
  · intro h
    exact ⟨h [] first (List.cons_prefix_cons.mpr ⟨rfl, List.nil_prefix⟩), fun above name hprefix =>
      h (first :: above) name (List.cons_prefix_cons.mpr ⟨rfl, hprefix⟩)⟩
  · rintro ⟨hfirst, hrest⟩ above name hprefix
    cases above with
    | nil =>
      obtain ⟨rfl, -⟩ := List.cons_prefix_cons.mp hprefix
      exact hfirst
    | cons other above =>
      obtain ⟨rfl, habove⟩ := List.cons_prefix_cons.mp hprefix
      exact hrest above name habove

/-! ## Trees that can be looked at -/

/-- **A tree that can be looked at under a path**: the path of no directory in it is too long, nor
that of an ignore file. -/
inductive Accessible : Path → Node → Prop
  | file {path : Path} (content : ByteArray) : Accessible path (.file content)
  | directory {path : Path} {entries : List (String × Node)} (spelled : spelled path = .ok ())
      (readable : (ignoreFile? entries).isSome = true → isReadable path = true)
      (below : ∀ entry ∈ entries, Accessible (path.join entry.1) entry.2) :
      Accessible path (.directory entries)

/-- **Earlier looks make no difference** in a tree that can be looked at. -/
lemma ignored_eq_ignoreTexts {known : List Look} (hknown : ∀ look ∈ known, look.readable = true)
    {path : Path} {entries : List (String × Node)}
    (hreadable : (ignoreFile? entries).isSome = true → isReadable path = true) :
    ignored known path entries = ignoreTexts entries := by
  cases hfile : ignoreFile? entries with
  | none => simp [ignored, ignoreTexts, hfile]
  | some content =>
    have hhere : isReadable path = true := hreadable (by simp [hfile])
    rw [ignored_eq_of_readable hknown hhere]
    cases hdecode : Text.Utf8.decode? content <;>
      simp [ignored, ignoreTexts, hfile, hdecode, earlier?, look, hhere]

section Visit

variable {sieve : Sieve} {known : List Look} {levels : List (List Glob)} {path : Path}

/-- What is met at the entries of a directory is met at one of them that is not left out. -/
lemma mem_visitEntries {entries : List (String × Node)} {event : Event} :
    event ∈ visitEntries sieve known levels path entries ↔ ∃ entry ∈ entries,
      sieve.excludes levels entry.1 ≠ true ∧
        event ∈ visit sieve known levels (path.join entry.1) entry.2 := by
  induction entries with
  | nil => simp [visitEntries]
  | cons entry entries ih =>
    obtain ⟨name, node⟩ := entry
    rw [visitEntries, List.mem_append, ih, List.exists_mem_cons_iff]
    refine or_congr_left ?_
    by_cases hexcluded : sieve.excludes levels name = true <;> simp [hexcluded]

/-- All that is met by looking at an ignore file is that look. -/
lemma exists_of_mem_consultation {entries : List (String × Node)} {event : Event}
    (h : event ∈ consultation sieve known path entries) :
    (ignoreFile? entries).isSome = true ∧ ∃ notices, event = .consulted (look path) notices := by
  rw [consultation] at h
  split at h
  · next hconsults =>
    simp only [Bool.and_eq_true] at hconsults
    exact ⟨hconsults.1.2, _, List.mem_singleton.mp h⟩
  · cases h

/-- **Files that are found below a node are files of the tree**, also where not all of it can be
looked at: names lead to them that no pattern covers which holds everywhere. -/
lemma exists_names_of_found_mem_visit {node : Node} (hordered : node.Ordered) {file : Path}
    (h : Event.found file ∈ visit sieve known levels path node) : ∃ names content,
      node.get? names = some (.file content) ∧ file = path.below names ∧
        ∀ name ∈ names, ¬ Glob.anyCovers sieve.base name = true := by
  induction hordered generalizing path levels with
  | file content =>
    rw [visit] at h
    split at h
    · cases List.mem_singleton.mp h
      exact ⟨[], content, rfl, rfl, List.forall_mem_nil _⟩
    · cases h
  | @directory entries ascending named below ih =>
    rw [visit] at h
    split at h
    · cases List.mem_singleton.mp h
    · rcases List.mem_append.mp h with h | h
      · cases (exists_of_mem_consultation h).2.choose_spec
      · obtain ⟨⟨name, child⟩, hentry, hkept, hfound⟩ := mem_visitEntries.mp h
        obtain ⟨names, content, hget, hfile, hnames⟩ := ih _ hentry hfound
        have hlookup := (Node.lookup_eq_some_iff_mem ascending.nodup).mpr hentry
        refine ⟨name :: names, content, (Node.get?_entry hlookup names).trans hget, hfile, ?_⟩
        refine List.forall_mem_cons.mpr ⟨fun hcovered => hkept ?_, hnames⟩
        rw [Sieve.excludes, hcovered, Bool.true_or]

/-- **Which files are found below a node**: those that names lead to of which none is left out.

**Proof sketch.** Induction on the tree. The names that lead to a file in a directory are that of an
entry and those that lead on from there. That the first one is not left out is what the directory
looks at, and the others are those of the entry with one more ignore file above. -/
lemma found_mem_visit {node : Node} (hordered : node.Ordered) (hopen : Accessible path node)
    (hknown : ∀ look ∈ known, look.readable = true) {file : Path} :
    Event.found file ∈ visit sieve known levels path node ↔ ∃ names content,
      node.get? names = some (.file content) ∧ file = path.below names ∧ sieve.wants file = true ∧
        ∀ above name, above ++ [name] <+: names → ¬ sieve.Bars levels node above name := by
  induction hordered generalizing path levels with
  | file content =>
    rw [visit]
    constructor
    · intro h
      split at h
      · next hwants =>
        cases List.mem_singleton.mp h
        exact ⟨[], content, rfl, rfl, hwants, by simp⟩
      · cases h
    · rintro ⟨names, _, hget, rfl, hwants, -⟩
      cases names with
      | nil => exact (if_pos hwants).symm ▸ List.mem_singleton_self _
      | cons name names => cases hget
  | @directory entries ascending named below ih =>
    cases hopen with
    | directory hspelled hreadable hbelow =>
      rw [visit, hspelled, ignored_eq_ignoreTexts hknown hreadable]
      dsimp only
      have hconsultation : Event.found file ∉ consultation sieve known path entries := fun h =>
        nomatch (exists_of_mem_consultation h).2
      rw [List.mem_append, or_iff_right hconsultation, mem_visitEntries]
      -- the first name is that of an entry, and the others lead on from there
      constructor
      · rintro ⟨⟨name, child⟩, hentry, hkept, hfound⟩
        have hlookup := (Node.lookup_eq_some_iff_mem ascending.nodup).mpr hentry
        obtain ⟨names, content, hget, hfile, hwants, hsteps⟩ :=
          (ih _ hentry (hbelow _ hentry)).mp hfound
        refine ⟨name :: names, content, (Node.get?_entry hlookup names).trans hget, hfile, hwants,
          forall_step_cons.mpr ⟨?_, ?_⟩⟩
        · rwa [bars_nil]
        · intro above other hprefix
          rw [bars_cons hlookup]
          exact hsteps above other hprefix
      · rintro ⟨names, content, hget, hfile, hwants, hsteps⟩
        cases names with
        | nil => cases hget
        | cons name names =>
          obtain ⟨_, child, hentries, hlookup, hchild⟩ := Node.exists_child hget
          cases hentries
          have hentry := (Node.lookup_eq_some_iff_mem ascending.nodup).mp hlookup
          obtain ⟨hfirst, hrest⟩ := forall_step_cons.mp hsteps
          rw [bars_nil] at hfirst
          refine ⟨(name, child), hentry, hfirst, ?_⟩
          refine (ih _ hentry (hbelow _ hentry)).mpr
            ⟨names, content, hchild, hfile, hwants, fun above other hprefix => ?_⟩
          rw [← bars_cons hlookup]
          exact hrest above other hprefix

/-- Every look at an ignore file below a node succeeds. -/
lemma readable_of_mem_visit {node : Node} (hopen : Accessible path node) {event : Event}
    (h : event ∈ visit sieve known levels path node) {seen : Look}
    (hseen : event.look? = some seen) : seen.readable = true := by
  induction hopen generalizing levels with
  | file content =>
    rw [visit] at h
    split at h
    · obtain rfl := List.mem_singleton.mp h
      cases hseen
    · cases h
  | directory hspelled hreadable _ ih =>
    rw [visit, hspelled] at h
    rcases List.mem_append.mp h with h | h
    · obtain ⟨hfile, notices, rfl⟩ := exists_of_mem_consultation h
      obtain rfl := Option.some.inj hseen
      simpa only [look] using hreadable hfile
    · obtain ⟨entry, hentry, -, hevent⟩ := mem_visitEntries.mp h
      exact ih entry hentry hevent

end Visit

/-! ## Roots -/

section Roots

variable {files : FileSystem} {options : Options} {known : List Look}

/-- What a path leads to has its entries in order. -/
lemma ordered_of_find {root : Path} {top : Node} (h : files.find root = .ok top) :
    top.Ordered := by
  obtain ⟨place, hreach, rfl⟩ := map_eq_ok_iff.mp h
  exact (files.ordered.of_get? (within_of_reach hreach).get?_address).1

/-- **A root whose tree can be looked at**, if there is something at all. -/
def Reachable (files : FileSystem) (root : Path) : Prop :=
  ∀ top, files.find root = .ok top → Accessible root top

/-- Which files are found below a root. -/
lemma found_mem_visitRoot {root : Path} (hroot : Reachable files root)
    (hknown : ∀ look ∈ known, look.readable = true) {file : Path} :
    Event.found file ∈ visitRoot files options.sieve known root ↔
      ∃ names, options.Selects files root names ∧ file = root.below names := by
  rw [visitRoot]
  cases hfind : files.find root with
  | error fault => simp [Options.Selects, hfind]
  | ok top =>
    have htop := ordered_of_find hfind
    have hwants : ∀ {names : Address} {inner : Node}, top.get? names = some inner →
        (options.sieve.wants (root.below names) = true ↔
          isWanted (names.getLast?.getD root.fileName) options.nonTests
            options.extensionless = true) := by
      intro names inner hinner
      rw [Sieve.wants, Path.fileName_below root (htop.of_get? hinner).2]
      rfl
    dsimp only
    rw [found_mem_visit htop (hroot top hfind) hknown]
    simp only [bars_sieve]
    constructor
    · rintro ⟨names, content, hget, rfl, hwanted, hsteps⟩
      exact ⟨names, ⟨top, content, hfind, hget, (hwants hget).mp hwanted, hsteps⟩, rfl⟩
    · rintro ⟨names, ⟨_, content, hfind', hget, hwanted, hsteps⟩, rfl⟩
      cases hfind.symm.trans hfind'
      exact ⟨names, content, hget, rfl, (hwants hget).mpr hwanted, hsteps⟩

/-- Files that are found below some roots are files of the tree, to which names lead from one of
the roots. -/
lemma exists_root_of_found_mem_visitRoots {sieve : Sieve} {roots : List Path} {file : Path}
    (h : Event.found file ∈ visitRoots files sieve known roots) :
    ∃ root ∈ roots, ∃ place names content, files.reach root = .ok place ∧
      place.node.get? names = some (.file content) ∧ file = root.below names ∧
        ∀ name ∈ names, ¬ Glob.anyCovers sieve.base name = true := by
  induction roots generalizing known with
  | nil => cases h
  | cons root roots ih =>
    rcases List.mem_append.mp h with h | h
    · rw [visitRoot] at h
      split at h
      · next top hfind =>
        obtain ⟨place, hreach, rfl⟩ := map_eq_ok_iff.mp hfind
        obtain ⟨names, content, hget, hfile, hnames⟩ :=
          exists_names_of_found_mem_visit (ordered_of_find hfind) h
        exact ⟨root, List.mem_cons_self, place, names, content, hreach, hget, hfile, hnames⟩
      · cases List.mem_singleton.mp h
    · obtain ⟨other, hother, hplace⟩ := ih h
      exact ⟨other, List.mem_cons_of_mem root hother, hplace⟩

/-- **Which files are found below some roots.**

**Proof sketch.** Induction on the roots, for all earlier looks that have succeeded: those below the
first root do so too. -/
lemma found_mem_visitRoots {roots : List Path} (hroots : ∀ root ∈ roots, Reachable files root)
    (hknown : ∀ look ∈ known, look.readable = true) {file : Path} :
    Event.found file ∈ visitRoots files options.sieve known roots ↔
      ∃ root ∈ roots, ∃ names, options.Selects files root names ∧ file = root.below names := by
  induction roots generalizing known with
  | nil => simp [visitRoots]
  | cons root roots ih =>
    obtain ⟨hroot, hrest⟩ := List.forall_mem_cons.mp hroots
    have hlooks : ∀ look ∈ known ++
        (visitRoot files options.sieve known root).filterMap Event.look?,
        look.readable = true := by
      intro look hlook
      rcases List.mem_append.mp hlook with hlook | hlook
      · exact hknown look hlook
      · obtain ⟨event, hevent, hseen⟩ := List.mem_filterMap.mp hlook
        rw [visitRoot] at hevent
        split at hevent
        · next top hfind => exact readable_of_mem_visit (hroot top hfind) hevent hseen
        · obtain rfl := List.mem_singleton.mp hevent
          cases hseen
    rw [visitRoots, List.mem_append, found_mem_visitRoot hroot hknown, ih hrest hlooks,
      List.exists_mem_cons_iff]

end Roots

/-! ## The order of the selected files -/

/-- A path that comes before one with other parts is less than it. -/
lemma compare_parts_of_precedes {a b : Path} (h : a.precedes b = true) (hne : ¬ a.same b = true) :
    compare a.parts b.parts = .lt := by
  have hparts : compare a.parts b.parts ≠ .eq := fun heq =>
    hne (by simpa [Path.same] using LawfulEqOrd.eq_of_compare heq)
  rw [Path.precedes] at h
  cases hcompare : compare a.parts b.parts with
  | lt => rfl
  | eq => exact absurd hcompare hparts
  | gt =>
    rw [hcompare] at h
    cases h

/-- Leaving out repetitions adds nothing. -/
lemma mem_of_mem_distinctAfter {last path : Path} {paths : List Path}
    (h : path ∈ distinctAfter last paths) : path ∈ paths := by
  induction paths generalizing last with
  | nil => cases h
  | cons first rest ih =>
    rw [distinctAfter] at h
    split at h
    · exact List.mem_cons_of_mem first (ih h)
    · exact List.mem_cons.mpr ((List.mem_cons.mp h).imp id ih)

/-- **An ordered list without repetitions is strictly ascending.** -/
lemma ascending_distinctAfter {last : Path} {paths : List Path}
    (h : (last :: paths).Pairwise fun a b => a.precedes b = true) :
    Ascending ((last :: distinctAfter last paths).map Path.parts) := by
  induction paths generalizing last with
  | nil => exact List.pairwise_singleton _ _
  | cons first rest ih =>
    obtain ⟨hlast, hrest⟩ := List.pairwise_cons.mp h
    rw [distinctAfter]
    split_ifs with hsame
    · exact ih (List.pairwise_cons.mpr
        ⟨fun path hpath => hlast path (List.mem_cons_of_mem first hpath), hrest.tail⟩)
    · have hless := compare_parts_of_precedes (hlast first List.mem_cons_self) hsame
      have hascending := ih hrest
      refine List.pairwise_cons.mpr ⟨?_, hascending⟩
      rw [List.map_cons, List.forall_mem_cons]
      exact ⟨hless, fun parts hparts =>
        TransCmp.lt_trans hless (List.rel_of_pairwise_cons hascending hparts)⟩

/-- **Selected files are in the order of their paths**, each once. -/
lemma ascending_arranged (paths : List Path) : Ascending ((arranged paths).map Path.parts) := by
  have hsorted : (paths.mergeSort Path.precedes).Pairwise fun a b => a.precedes b = true := by
    refine List.pairwise_mergeSort ?_ ?_ paths
    · intro a b c hab hbc
      exact TransCmp.isLE_trans hab hbc
    · intro a b
      have hswap : compare b.parts a.parts = (compare a.parts b.parts).swap := OrientedCmp.eq_swap
      rw [Path.precedes, Path.precedes, hswap]
      cases compare a.parts b.parts <;> rfl
  rw [arranged]
  cases hpaths : paths.mergeSort Path.precedes with
  | nil => exact List.Pairwise.nil
  | cons first rest =>
    rw [hpaths] at hsorted
    exact ascending_distinctAfter hsorted

/-- What is arranged is one of the paths. -/
lemma mem_of_mem_arranged {path : Path} {paths : List Path} (h : path ∈ arranged paths) :
    path ∈ paths := by
  rw [← (List.mergeSort_perm paths Path.precedes).mem_iff]
  rw [arranged] at h
  cases hpaths : paths.mergeSort Path.precedes with
  | nil =>
    rw [hpaths] at h
    cases h
  | cons first rest =>
    rw [hpaths] at h
    exact List.mem_cons.mpr ((List.mem_cons.mp h).imp id mem_of_mem_distinctAfter)

/-! ## The result -/

/-- The paths of the files that are found. -/
lemma mem_filterMap_file? {events : List Event} {file : Path} :
    file ∈ events.filterMap Event.file? ↔ .found file ∈ events := by
  have hfile : ∀ event : Event, event.file? = some file ↔ event = .found file := by
    intro event
    cases event <;> simp [Event.file?]
  simp only [List.mem_filterMap, hfile, exists_eq_right]

/-- A file that is selected has been found. -/
lemma found_mem_of_mem_select {files : FileSystem} {options : Options} {roots : List Path}
    {file : Path} (h : file ∈ (select files options roots).files) :
    .found file ∈ events files options roots :=
  mem_filterMap_file?.mp (mem_of_mem_arranged h)

/-- **What a list of selected files has to be**: up to their spelling, its paths are those of the
files that are selected below one of the roots, and it is strictly ascending. -/
structure Meets (files : FileSystem) (options : Options) (roots paths : List Path) : Prop where
  selected : ∀ path : Path, (∃ kept ∈ paths, kept.parts = path.parts) ↔
    ∃ root ∈ roots, ∃ names, options.Selects files root names ∧
      (root.below names).parts = path.parts
  /-- Each path is spelled as it is reached from a root. -/
  spelled : ∀ kept ∈ paths, ∃ root ∈ roots, ∃ names, options.Selects files root names ∧
    kept = root.below names
  ascending : Ascending (paths.map Path.parts)

/-- Lists for the same roots have the same paths. -/
lemma Meets.map_parts_eq {files : FileSystem} {options : Options}
    {roots roots' paths paths' : List Path} (h : Meets files options roots paths)
    (h' : Meets files options roots' paths') (hroots : ∀ root, root ∈ roots' ↔ root ∈ roots) :
    paths'.map Path.parts = paths.map Path.parts := by
  have hsets : (⟨paths'.map Path.parts, h'.ascending⟩ : OrderedSet (List Path.Part)) =
      ⟨paths.map Path.parts, h.ascending⟩ := by
    refine OrderedSet.ext_mem fun parts => ?_
    show parts ∈ paths'.map Path.parts ↔ parts ∈ paths.map Path.parts
    rw [List.mem_map, List.mem_map]
    constructor
    · rintro ⟨kept, hkept, rfl⟩
      have hselected := (h'.selected kept).mp ⟨kept, hkept, rfl⟩
      simp only [hroots] at hselected
      exact (h.selected kept).mpr hselected
    · rintro ⟨kept, hkept, rfl⟩
      have hselected := (h.selected kept).mp ⟨kept, hkept, rfl⟩
      simp only [← hroots] at hselected
      exact (h'.selected kept).mpr hselected
  exact congrArg OrderedSet.toList hsets

/-- The files of a selection are as they have to be. -/
lemma meets_select {files : FileSystem} {options : Options} {roots : List Path}
    (hroots : ∀ root ∈ roots, Reachable files root) :
    Meets files options roots (select files options roots).files := by
  have hfound : ∀ file, file ∈ (events files options roots).filterMap Event.file? ↔
      ∃ root ∈ roots, ∃ names, options.Selects files root names ∧ file = root.below names := by
    intro file
    rw [mem_filterMap_file?, events,
      found_mem_visitRoots hroots (List.forall_mem_nil _)]
  have hspelled : ∀ kept ∈ (select files options roots).files, ∃ root ∈ roots, ∃ names,
      options.Selects files root names ∧ kept = root.below names := fun kept hkept =>
    (hfound kept).mp (mem_of_mem_arranged hkept)
  refine ⟨fun path => ⟨?_, ?_⟩, hspelled, ascending_arranged _⟩
  · rintro ⟨kept, hkept, hparts⟩
    obtain ⟨root, hroot, names, hselects, rfl⟩ := hspelled kept hkept
    exact ⟨root, hroot, names, hselects, hparts⟩
  · rintro ⟨root, hroot, names, hselects, hparts⟩
    have hmem := (hfound _).mpr ⟨root, hroot, names, hselects, rfl⟩
    obtain ⟨kept, hkept, hsame⟩ :=
      exists_same_distinct ((List.mergeSort_perm _ Path.precedes).mem_iff.mpr hmem)
    exact ⟨kept, hkept, hsame.trans hparts⟩

/-- **The selected files.** In a tree that can be looked at, they are the files that are reached
from one of the roots by names of which none is left out, in strictly ascending order of their
paths. They are the same for any order and any repetition of the roots. -/
theorem select_meets {files : FileSystem} {options : Options} {roots : List Path}
    (hroots : ∀ root ∈ roots, Reachable files root) :
    Meets files options roots (select files options roots).files ∧
      ∀ roots' : List Path, (∀ root, root ∈ roots' ↔ root ∈ roots) →
        (select files options roots').files.map Path.parts =
          (select files options roots).files.map Path.parts := by
  refine ⟨meets_select hroots, fun roots' hsame => ?_⟩
  exact (meets_select hroots).map_parts_eq
    (meets_select fun root hroot => hroots root ((hsame root).mp hroot)) hsame

/-! ### Ignore files in a directory and in one below it -/

/-- A directory with an ignore file of its own. -/
def innerDirectory : Node :=
  .directory [
    (".gitignore", .file (Text.Utf8.encode "skip/*  # generated")),
    ("old_test.py", .file (Text.Utf8.encode "")),
    ("skip_test.py", .file (Text.Utf8.encode "")),
    ("test_a.py", .file (Text.Utf8.encode ""))]

/-- A directory with an ignore file, with that one in it and with another one beside it. -/
def outerDirectory : Node :=
  .directory [
    (".gitignore", .file (Text.Utf8.encode "old*\n[")),
    ("inner", innerDirectory),
    ("old_test.py", .file (Text.Utf8.encode "")),
    ("other", .directory [("skip_test.py", .file (Text.Utf8.encode ""))])]

/-- A file system with these directories. -/
def nestedFiles : FileSystem where
  root := .directory [("outer", outerDirectory)]
  here := []

/-- The inner directory and the outer one. -/
def nestedRoots : List Path := [⟨"outer/inner"⟩, ⟨"outer"⟩]

lemma reachable_nestedRoots : ∀ root ∈ nestedRoots, Reachable nestedFiles root := by
  have hinner : Accessible ⟨"outer/inner"⟩ innerDirectory :=
    .directory rfl (fun _ => by decide +kernel) (by simp [Accessible.file])
  have hother : Accessible ⟨"outer/other"⟩
      (Node.directory [("skip_test.py", .file (Text.Utf8.encode ""))]) :=
    .directory rfl (fun _ => by decide +kernel) (by simp [Accessible.file])
  have hjoin : (⟨"outer"⟩ : Path).join "inner" = ⟨"outer/inner"⟩ ∧
      (⟨"outer"⟩ : Path).join "other" = ⟨"outer/other"⟩ := by decide +kernel
  have houter : Accessible ⟨"outer"⟩ outerDirectory :=
    .directory rfl (fun _ => by decide +kernel)
      (by simp [Accessible.file, hjoin.1, hjoin.2, hinner, hother])
  have hreach {root : Path} {top : Node} (hfind : nestedFiles.find root = .ok top)
      (haccessible : Accessible root top) : Reachable nestedFiles root := by
    intro other hother
    cases hfind.symm.trans hother
    exact haccessible
  have hfirst : Reachable nestedFiles ⟨"outer/inner"⟩ := hreach rfl hinner
  have hsecond : Reachable nestedFiles ⟨"outer"⟩ := hreach rfl houter
  simp [nestedRoots, hfirst, hsecond]

/-- The ignore file of the outer directory has no say where the inner one is the root, and that of
the inner directory has none beside it. -/
theorem select_meets_nested :
    (∀ root ∈ nestedRoots, Reachable nestedFiles root) ∧
      (select nestedFiles { readIgnoreFiles := true } nestedRoots).files =
        [⟨"outer/inner/old_test.py"⟩, ⟨"outer/inner/test_a.py"⟩, ⟨"outer/other/skip_test.py"⟩] ∧
      Meets nestedFiles { readIgnoreFiles := true } nestedRoots
        (select nestedFiles { readIgnoreFiles := true } nestedRoots).files ∧
      ∀ roots : List Path, (∀ root, root ∈ roots ↔ root ∈ nestedRoots) →
        (select nestedFiles { readIgnoreFiles := true } roots).files.map Path.parts =
          (select nestedFiles { readIgnoreFiles := true } nestedRoots).files.map Path.parts := by
  have hfound : (events nestedFiles { readIgnoreFiles := true } nestedRoots).filterMap
      Event.file? = [⟨"outer/inner/old_test.py"⟩, ⟨"outer/inner/test_a.py"⟩,
        ⟨"outer/inner/test_a.py"⟩, ⟨"outer/other/skip_test.py"⟩] := by decide +kernel
  refine ⟨reachable_nestedRoots, ?_, select_meets reachable_nestedRoots⟩
  rw [select, hfound, arranged, List.mergeSort_of_pairwise (by decide +kernel)]
  decide +kernel

end Selection

end LivingDocs
