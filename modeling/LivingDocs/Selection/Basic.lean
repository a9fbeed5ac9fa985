import LivingDocs.FileSystem.Basic
import LivingDocs.Glob.Matching
import LivingDocs.Selection.Name
import LivingDocs.Text.Lines

/-!
# The selection of files

Below each of some roots, all files are selected that are worth scanning. A name that a pattern
covers is left out, and with a directory all that is in it. Patterns come from the standard ones,
from the options, and from the ignore files in the directories between a root and the name. The
roots themselves are never left out. A directory whose path is too long cannot be looked at, nor an
ignore file; what has come of the first look at an ignore file holds for all roots after it.

## Main definitions

* `LivingDocs.Selection.Options`, `LivingDocs.Selection.Sieve` — what is asked for.
* `LivingDocs.Selection.Look`, `LivingDocs.Selection.ignored` — a first look at an ignore file, and
  what an ignore file excludes.
* `LivingDocs.Selection.visit` — what is met below a node.
* `LivingDocs.Selection.select` — the selected files, in the order of their paths.

## Main results

* `LivingDocs.Selection.ignored_eq_of_readable` — earlier looks at ignore files make no difference
  as long as all of them can be looked up.
* `LivingDocs.Selection.exists_same_distinct` — leaving out repetitions loses no path.
-/

set_option autoImplicit false

namespace LivingDocs

open FileSystem (Node)

namespace Selection

/-- What is asked for. -/
structure Options where
  /-- Patterns besides the standard ones. -/
  exclude : List String := []
  /-- Whether ignore files have a say. -/
  readIgnoreFiles : Bool := false
  /-- Whether files are selected that do not look like tests. -/
  nonTests : Bool := false
  /-- Whether files without an extension are selected. -/
  extensionless : Bool := false
  deriving DecidableEq, Repr

/-! ## Patterns -/

/-- What is worth telling about a selection. -/
inductive Notice where
  /-- A text is no pattern. -/
  | invalidPattern (text : String) (error : Glob.Error)
  /-- A path cannot be looked at. -/
  | inaccessible (path : Path) (fault : FileSystem.Fault)
  deriving DecidableEq, Repr

/-- The notice in words. -/
def Notice.message : Notice → String
  | invalidPattern text error => s!"Invalid exclusion pattern '{text}': {error.message}"
  | inaccessible path fault =>
    s!"Cannot access path: IO error for operation on {path.text}: {fault.message}"

/-- The patterns among some texts. -/
def patterns (texts : List String) : List Glob :=
  texts.filterMap fun text => (Glob.compile text).toOption

/-- The notice about a text that is no pattern. -/
def patternNotice? (text : String) : Option Notice :=
  match Glob.compile text with
  | .ok _ => none
  | .error error => some (.invalidPattern text error)

/-- The notices about the texts that are no patterns. -/
def patternNotices (texts : List String) : List Notice := texts.filterMap patternNotice?

/-- The name of an ignore file. -/
def ignoreFileName : String := ".gitignore"

/-- The content of the ignore file of a directory, if there is one. -/
def ignoreFile? (entries : List (String × Node)) : Option ByteArray :=
  (entries.lookup ignoreFileName).bind Node.content?

/-- Whether the ignore file of a directory can be looked up. -/
def isReadable (directory : Path) : Bool :=
  (FileSystem.spelled (directory.trimmed.join ignoreFileName)).isOk

/-- A first look at the ignore file of a directory. -/
structure Look where
  /-- What the path of the directory is about. -/
  parts : List Path.Part
  /-- Whether the ignore file could be looked up. -/
  readable : Bool
  deriving DecidableEq, Repr

/-- The look at the ignore file of a directory with the spelling that it has. -/
def look (directory : Path) : Look := ⟨directory.parts, isReadable directory⟩

/-- The earlier look at the ignore file of the same directory, if there was one. -/
def earlier? (known : List Look) (directory : Path) : Option Look :=
  let parts := directory.parts
  known.find? fun look => look.parts = parts

/-- What the ignore file of a directory excludes; it has to be text. Where the file has been looked
at for an earlier root, it counts whether it could be looked up then. -/
def ignored (known : List Look) (directory : Path) (entries : List (String × Node)) :
    List String :=
  match ignoreFile? entries with
  | none => []
  | some content =>
    if ((earlier? known directory).getD (look directory)).readable then
      match Text.Utf8.decode? content with
      | some text => exclusions (Text.lines text)
      | none => []
    else []

/-- **Earlier looks make no difference as long as every ignore file can be looked up.** -/
theorem ignored_eq_of_readable {known : List Look} {directory : Path}
    (hknown : ∀ look ∈ known, look.readable = true) (hhere : isReadable directory = true)
    (entries : List (String × Node)) :
    ignored known directory entries = ignored [] directory entries := by
  have hreadable : ((earlier? known directory).getD (look directory)).readable = true := by
    cases hearlier : earlier? known directory with
    | none => simp only [Option.getD_none, look, hhere]
    | some found =>
      rw [earlier?] at hearlier
      simp only [Option.getD_some, hknown found (List.mem_of_find?_eq_some hearlier)]
  have hfirst : ((earlier? [] directory).getD (look directory)).readable = true := by
    simp only [earlier?, List.find?_nil, Option.getD_none, look, hhere]
  unfold ignored
  rw [hreadable, hfirst]

/-- What lets names through: the options with their patterns. -/
structure Sieve where
  /-- Standard patterns and those of the options. -/
  base : List Glob
  readIgnoreFiles : Bool
  nonTests : Bool
  extensionless : Bool

/-- All patterns that exclude names everywhere. -/
def Options.baseTexts (options : Options) : List String := standardExclusions ++ options.exclude

/-- The sieve of some options. -/
def Options.sieve (options : Options) : Sieve where
  base := patterns options.baseTexts
  readIgnoreFiles := options.readIgnoreFiles
  nonTests := options.nonTests
  extensionless := options.extensionless

/-- **Whether a name is left out**, given the patterns of the ignore files that have a say. -/
def Sieve.excludes (sieve : Sieve) (levels : List (List Glob)) (name : String) : Bool :=
  Glob.anyCovers sieve.base name ||
    sieve.readIgnoreFiles && levels.any fun globs => Glob.anyCovers globs name

/-- Whether a file at that path is selected. -/
def Sieve.wants (sieve : Sieve) (path : Path) : Bool :=
  isWanted path.fileName sieve.nonTests sieve.extensionless

/-! ## The way through the tree -/

/-- What is met on the way. -/
inductive Event where
  /-- A file to scan. -/
  | found (file : Path)
  /-- A first look at the ignore file of a directory, with the notices about it. -/
  | consulted (look : Look) (notices : List Notice)
  /-- A path that cannot be looked at. -/
  | missed (path : Path) (fault : FileSystem.Fault)
  deriving DecidableEq, Repr

/-- The ignore file of a directory is looked at when some entry is not left out without it. -/
def consults (sieve : Sieve) (entries : List (String × Node)) : Bool :=
  sieve.readIgnoreFiles && entries.any fun entry => !Glob.anyCovers sieve.base entry.1

/-- What is met by looking at the ignore file of a directory, if there is one and if that has not
been done before. -/
def consultation (sieve : Sieve) (known : List Look) (directory : Path)
    (entries : List (String × Node)) : List Event :=
  if consults sieve entries && (ignoreFile? entries).isSome &&
      (earlier? known directory).isNone then
    [.consulted (look directory) (patternNotices (ignored known directory entries))]
  else []

mutual

/-- **What is met at a node and below it.** The levels are the patterns of the ignore files above,
nearest first. -/
def visit (sieve : Sieve) (known : List Look) (levels : List (List Glob)) (path : Path) :
    Node → List Event
  | .file _ => if sieve.wants path then [.found path] else []
  | .directory entries =>
    match FileSystem.spelled path with
    | .error fault => [.missed path fault]
    | .ok () =>
      consultation sieve known path entries ++
        visitEntries sieve known (patterns (ignored known path entries) :: levels) path entries

/-- What is met at the entries of a directory. -/
def visitEntries (sieve : Sieve) (known : List Look) (levels : List (List Glob)) (path : Path) :
    List (String × Node) → List Event
  | [] => []
  | (name, node) :: entries =>
    (if sieve.excludes levels name then []
      else visit sieve known levels (path.join name) node) ++
      visitEntries sieve known levels path entries

end

/-- What is met at a root and below it. -/
def visitRoot (files : FileSystem) (sieve : Sieve) (known : List Look) (root : Path) :
    List Event :=
  match files.find root with
  | .ok node => visit sieve known [] root node
  | .error fault => [.missed root fault]

/-- The first look at an ignore file. -/
def Event.look? : Event → Option Look
  | consulted look _ => some look
  | _ => none

/-- What is met below several roots, one after the other. -/
def visitRoots (files : FileSystem) (sieve : Sieve) (known : List Look) :
    List Path → List Event
  | [] => []
  | root :: roots =>
    let events := visitRoot files sieve known root
    events ++ visitRoots files sieve (known ++ events.filterMap Event.look?) roots

/-! ## The result -/

/-- The path of a file that is met. -/
def Event.file? : Event → Option Path
  | found file => some file
  | _ => none

/-- Whether a path cannot be looked at. -/
def Event.isMissed : Event → Bool
  | missed .. => true
  | _ => false

/-- The notices about what is met. -/
def Event.notices : Event → List Notice
  | found _ => []
  | consulted _ notices => notices
  | missed path fault => [.inaccessible path fault]

/-- The paths of a list that differ from the one before them; the first one follows on `last`. -/
def distinctAfter (last : Path) : List Path → List Path
  | [] => []
  | path :: paths =>
    if last.same path then distinctAfter last paths else path :: distinctAfter path paths

/-- The paths of an ordered list without repetitions; of several spellings the first one stays. -/
def distinct : List Path → List Path
  | [] => []
  | path :: paths => path :: distinctAfter path paths

/-- What stays after a path is the same as that path or one of the list, and each one of the list
is the same as one that stays. -/
theorem exists_same_distinctAfter (last : Path) (paths : List Path) {path : Path}
    (h : path ∈ paths) : ∃ kept ∈ last :: distinctAfter last paths, kept.parts = path.parts := by
  induction paths generalizing last with
  | nil => cases h
  | cons first rest ih =>
    rw [distinctAfter]
    split
    · next hsame =>
      have hparts : last.parts = first.parts := by simpa [Path.same] using hsame
      rcases List.mem_cons.mp h with rfl | hrest
      · exact ⟨last, List.mem_cons_self, hparts⟩
      · exact ih last hrest
    · rcases List.mem_cons.mp h with rfl | hrest
      · exact ⟨path, List.mem_cons_of_mem _ List.mem_cons_self, rfl⟩
      · obtain ⟨kept, hkept, hparts⟩ := ih first hrest
        exact ⟨kept, List.mem_cons_of_mem _ hkept, hparts⟩

/-- **Leaving out repetitions loses no path.** -/
theorem exists_same_distinct {paths : List Path} {path : Path} (h : path ∈ paths) :
    ∃ kept ∈ distinct paths, kept.parts = path.parts := by
  cases paths with
  | nil => cases h
  | cons first rest =>
    rcases List.mem_cons.mp h with rfl | hrest
    · exact ⟨path, List.mem_cons_self, rfl⟩
    · exact exists_same_distinctAfter first rest hrest

/-- The paths in their order, each once. -/
def arranged (paths : List Path) : List Path := distinct (paths.mergeSort Path.precedes)

end Selection

/-- **The selected files.** -/
structure Selection where
  /-- The files, in the order of their paths. -/
  files : List Path
  /-- The number of paths that cannot be looked at. -/
  skipped : Nat
  /-- What is worth telling, in the order of its discovery. -/
  notices : List Selection.Notice

namespace Selection

/-- What is met below all roots. -/
def events (files : FileSystem) (options : Options) (roots : List Path) : List Event :=
  visitRoots files options.sieve [] roots

/-- **Selects the files below some roots.** -/
def select (files : FileSystem) (options : Options) (roots : List Path) : Selection :=
  let events := events files options roots
  { files := arranged (events.filterMap Event.file?)
    skipped := events.countP Event.isMissed
    notices := patternNotices options.baseTexts ++ events.flatMap Event.notices }

end Selection

end LivingDocs
