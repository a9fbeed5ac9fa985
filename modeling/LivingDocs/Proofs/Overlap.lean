import LivingDocs.Proofs.Destination
import LivingDocs.Proofs.Partition
import LivingDocs.Proofs.WritePolicy
import Mathlib.Data.Finset.Card

/-!
# Roots that overlap

A file that lies below two of the roots is met twice, and repetitions are left out. They are told by
the parts of paths, so a file stays in the selection twice if it is met under paths with different
parts. That happens exactly if one root lies below the other one and its path does not lead on from
that of the other one: below `.` and `./tests` a test is scanned once, below `.` and `tests` twice.
Then it is counted twice, and so is every message about a malformed block in it.

## Main definitions

* `LivingDocs.Selection.SpelledAlike` — roots that overlap are spelled alike.
* `LivingDocs.Command.MalformedBlock`, `LivingDocs.Command.blocksIn` — malformed blocks with their
  addresses, and those of a file.
* `LivingDocs.Command.ScanRequest.ScansOnce` — each file is scanned once.

## Main results

* `LivingDocs.Selection.pairwise_destination_arranged_iff` — when no two paths that are arranged are
  bound for the same address.
* `LivingDocs.Command.errors_eq_of_aggregate` — the messages about several files, block by block.
* `LivingDocs.Command.scansOnce_iff_spelledAlike` — when each file is scanned once.
-/

set_option autoImplicit false

namespace LivingDocs

open FileSystem Std

/-! ## Paths that are bound for the same file -/

namespace Selection

/-- **No two paths are bound for the same address.** -/
def Apart (here : Address) (paths : List Path) : Prop :=
  (paths.map fun path => path.destination here).Nodup

/-- **When no two paths that are arranged are bound for the same address**: when paths for the same
address have the same parts.

**Proof sketch.** Paths that are arranged have different parts, and each path has the parts of one
that is arranged. -/
lemma pairwise_destination_arranged_iff (here : Address) (paths : List Path) :
    Apart here (arranged paths) ↔ ∀ a ∈ paths, ∀ b ∈ paths,
      a.destination here = b.destination here → a.parts = b.parts := by
  constructor
  · intro happart a ha b hb hsame
    have hkept : ∀ {path : Path}, path ∈ paths →
        ∃ kept ∈ arranged paths, kept.parts = path.parts := fun hpath =>
      exists_same_distinct ((List.mergeSort_perm _ Path.precedes).mem_iff.mpr hpath)
    obtain ⟨a', ha', hparts⟩ := hkept ha
    obtain ⟨b', hb', hparts'⟩ := hkept hb
    have hdestination : a'.destination here = b'.destination here := by
      rw [Path.destination, hparts, Path.destination, hparts']
      exact hsame
    rw [← hparts, ← hparts', List.inj_on_of_nodup_map happart ha' hb' hdestination]
  · intro h
    have hascending := List.pairwise_map.mp (ascending_arranged paths)
    refine List.pairwise_map.mpr (hascending.imp_of_mem fun {a b} ha hb hlt hsame => ?_)
    rw [h a (mem_of_mem_arranged ha) b (mem_of_mem_arranged hb) hsame, ReflOrd.compare_self] at hlt
    cases hlt

/-- **Roots that overlap are spelled alike**: where a file is met below one of them and below
another one further down, the path of the second root is about the same as the path of the first
one and the names between them. -/
def SpelledAlike (files : FileSystem) (options : Options) (roots : List Path) : Prop :=
  ∀ upper ∈ roots, ∀ lower ∈ roots, ∀ (between names : Address) (content : ByteArray),
    lower.destination files.here = upper.destination files.here ++ between →
    files.root.get? (lower.destination files.here ++ names) = some (.file content) →
    .found (upper.below (between ++ names)) ∈ events files options roots →
    .found (lower.below names) ∈ events files options roots →
    lower.parts = upper.parts ++ between.map .named

section SpelledAlike

variable {files : FileSystem} {options : Options} {roots : List Path}

/-- What is met is bound for a file, to which names lead from one of the roots. -/
lemma exists_root_of_found {file : Path}
    (h : .found file ∈ events files options roots) : ∃ root ∈ roots, ∃ names content,
      files.root.get? (root.destination files.here ++ names) = some (.file content) ∧
        file = root.below names := by
  obtain ⟨root, hroot, place, names, content, hreach, hget, hfile, -⟩ :=
    exists_root_of_found_mem_visitRoots h
  refine ⟨root, hroot, names, content, ?_, hfile⟩
  rw [← address_of_reach hreach, Node.get?_append, (within_of_reach hreach).get?_address]
  exact hget

/-- Of two ways to the same file, one is that of a root that is spelled as the other one says. -/
lemma SpelledAlike.parts_eq (h : SpelledAlike files options roots) {upper lower : Path}
    (hupper : upper ∈ roots) (hlower : lower ∈ roots) {between names : Address}
    {content : ByteArray}
    (hbetween : lower.destination files.here = upper.destination files.here ++ between)
    (hget : files.root.get? (lower.destination files.here ++ names) = some (.file content))
    (hfirst : .found (upper.below (between ++ names)) ∈ events files options roots)
    (hsecond : .found (lower.below names) ∈ events files options roots) :
    (upper.below (between ++ names)).parts = (lower.below names).parts := by
  have hparts := h upper hupper lower hlower between names content hbetween hget hfirst hsecond
  have hnames := (files.ordered.of_get? hget).2
  rw [hbetween, List.append_assoc] at hnames
  have hboth : ∀ name ∈ between ++ names, EntryName name := fun name hname =>
    hnames name (List.mem_append_right _ hname)
  rw [Path.parts_below upper hboth, Path.parts_below lower fun name hname =>
    hboth name (List.mem_append_right _ hname), hparts, List.map_append, List.append_assoc]

/-- **No two selected paths are bound for the same file exactly if the roots are spelled alike.**

**Proof sketch.** Two ways to a file, each from a root, have the same names at their ends, so one of
the roots lies below the other one. Names that lead on add the same parts to both paths. -/
lemma apart_select_iff :
    Apart files.here (select files options roots).files ↔ SpelledAlike files options roots := by
  rw [select, pairwise_destination_arranged_iff]
  simp only [mem_filterMap_file?]
  constructor
  · intro h upper _ lower _ between names content hbetween hget hfirst hsecond
    have hnames := (files.ordered.of_get? hget).2
    rw [hbetween, List.append_assoc] at hnames
    have hboth : ∀ name ∈ between ++ names, EntryName name := fun name hname =>
      hnames name (List.mem_append_right _ hname)
    have hlast : ∀ name ∈ names, EntryName name := fun name hname =>
      hboth name (List.mem_append_right _ hname)
    have hparts := h _ hfirst _ hsecond (by
      rw [Path.destination_below upper hboth, Path.destination_below lower hlast, hbetween,
        List.append_assoc])
    rw [Path.parts_below upper hboth, Path.parts_below lower hlast, List.map_append,
      ← List.append_assoc] at hparts
    exact (List.append_cancel_right hparts).symm
  · intro h a ha b hb hsame
    obtain ⟨first, hroot, names, content, hget, rfl⟩ := exists_root_of_found ha
    obtain ⟨second, hroot', names', content', hget', rfl⟩ := exists_root_of_found hb
    have hnames := (files.ordered.of_get? hget).2
    have hnames' := (files.ordered.of_get? hget').2
    rw [Path.destination_below first fun name hname => hnames name (List.mem_append_right _ hname),
      Path.destination_below second fun name hname =>
        hnames' name (List.mem_append_right _ hname)] at hsame
    rcases List.append_eq_append_iff.mp hsame with ⟨between, hbelow, rfl⟩ | ⟨between, hbelow, rfl⟩
    · exact h.parts_eq hroot hroot' hbelow hget' ha hb
    · exact (h.parts_eq hroot' hroot hbelow hget hb ha).symm

end SpelledAlike

end Selection

/-! ## Messages, block by block -/

namespace Command

/-- **A malformed block**: the address of its file, its line, and what is wrong with it. -/
structure MalformedBlock where
  address : Address
  number : Nat
  error : Block.Error

namespace MalformedBlock

/-- The message about a malformed block. -/
def message (block : MalformedBlock) : String :=
  Corpus.errorMessage (absolute block.address) block.number block.error

/-- **A malformed block of a file system**: it stands in the file at its address. -/
def StandsIn (block : MalformedBlock) (files : FileSystem) (grammar : Block.Grammar) : Prop :=
  ∃ content, files.root.get? block.address = some (.file content) ∧
    (block.number, block.error) ∈
      Block.faults grammar 1 (Text.lines (Text.Utf8.decodeLossy content))

end MalformedBlock

/-- The malformed blocks of the file at an address, in the order of their lines. -/
def blocksIn (files : FileSystem) (grammar : Block.Grammar) (address : Address) :
    List MalformedBlock :=
  ((files.root.get? address).bind Node.content?).elim [] fun content =>
    (Block.faults grammar 1 (Text.lines (Text.Utf8.decodeLossy content))).map fun fault =>
      ⟨address, fault.1, fault.2⟩

section Blocks

variable {files : FileSystem} {grammar : Block.Grammar}

/-- The malformed blocks of a file are those that stand in it. -/
lemma mem_blocksIn {address : Address} {block : MalformedBlock} :
    block ∈ blocksIn files grammar address ↔
      block.address = address ∧ block.StandsIn files grammar := by
  obtain ⟨blockAddress, number, error⟩ := block
  rw [blocksIn, MalformedBlock.StandsIn]
  constructor
  · intro h
    cases hget : files.root.get? address with
    | none => simp [hget] at h
    | some node =>
      cases node with
      | directory entries => simp [hget, Node.content?] at h
      | file content =>
        simp only [hget, Option.bind_some, Node.content?, Option.elim_some, List.mem_map,
          MalformedBlock.mk.injEq, Prod.exists] at h
        obtain ⟨number, error, hfault, rfl, rfl, rfl⟩ := h
        exact ⟨rfl, content, hget, hfault⟩
  · rintro ⟨rfl, content, hget, hfault⟩
    simp only [hget, Option.bind_some, Node.content?, Option.elim_some, List.mem_map]
    exact ⟨_, hfault, rfl⟩

/-- The malformed blocks of a file stand at different lines. -/
lemma nodup_number_blocksIn (address : Address) :
    ((blocksIn files grammar address).map MalformedBlock.number).Nodup := by
  rw [blocksIn]
  cases (files.root.get? address).bind Node.content? with
  | none => exact List.nodup_nil
  | some content =>
    have hnumber : ∀ {step : Block.Step} {fault : Nat × Block.Error}, step.fault? = some fault →
        fault.1 = step.number := by
      intro step fault h
      rw [Block.Step.fault?] at h
      split at h
      · cases h
      · cases h
        rfl
    rw [Option.elim_some, List.map_map]
    refine List.pairwise_map.mpr (List.pairwise_filterMap.mpr ?_)
    refine (Block.pairwise_number_steps grammar 1 _).imp ?_
    intro a b hlt fault hfault fault' hfault' heq
    have hfirst := hnumber hfault
    have hsecond := hnumber hfault'
    simp only [Function.comp_apply] at heq
    omega

/-- The messages about a file are those about its malformed blocks. -/
lemma errors_eq_of_fileCorpus {path : Path} {corpus : Corpus}
    (h : fileCorpus files grammar path = .ok corpus) :
    corpus.errors =
      (blocksIn files grammar (path.destination files.here)).map MalformedBlock.message := by
  obtain ⟨content, hread, rfl⟩ := map_eq_ok_iff.mp h
  obtain ⟨place, hreach, hnode⟩ := readFile_eq_ok_iff.mp hread
  have hcanonical : files.canonical path = .ok (absolute place.address) := by
    rw [canonical, locate, hreach]
    rfl
  have hget : files.root.get? place.address = some (.file content) := by
    rw [(within_of_reach hreach).get?_address, hnode]
  rw [Corpus.errors_ofLines, hcanonical, ← address_of_reach hreach, blocksIn, hget, Corpus.messages,
    Option.bind_some, Node.content?, Option.elim_some, List.map_map]
  rfl

/-- **The messages about several files**, block by block. -/
lemma errors_eq_of_aggregate {paths : List Path} {corpus : Corpus}
    (h : aggregate files grammar paths = .ok corpus) :
    corpus.errors = (paths.flatMap fun path =>
      blocksIn files grammar (path.destination files.here)).map MalformedBlock.message := by
  rw [aggregate_eq] at h
  obtain ⟨corpora, hread, rfl⟩ := map_eq_ok_iff.mp h
  rw [Corpus.errors_mergeAll]
  clear h
  induction paths generalizing corpora with
  | nil =>
    cases hread
    rfl
  | cons path paths ih =>
    rw [List.mapM_cons, bind_eq_ok_iff] at hread
    obtain ⟨corpus, hcorpus, hread⟩ := hread
    obtain ⟨rest, hrest, hread⟩ := bind_eq_ok_iff.mp hread
    cases hread
    rw [List.map_cons, List.flatten_cons, ih rest hrest, errors_eq_of_fileCorpus hcorpus,
      List.flatMap_cons, List.map_append]

/-- Files at different addresses have different malformed blocks. -/
lemma nodup_blocks {paths : List Path} (happart : Selection.Apart files.here paths) :
    ((paths.flatMap fun path => blocksIn files grammar (path.destination files.here)).map
      fun block => (block.address, block.number)).Nodup := by
  rw [List.map_flatMap, List.nodup_flatMap]
  refine ⟨fun path _ => ?_, (List.pairwise_map.mp happart).imp fun {a b} hne => ?_⟩
  · refine List.Nodup.of_map Prod.snd ?_
    rw [List.map_map]
    exact nodup_number_blocksIn _
  · intro key hkey hkey'
    obtain ⟨block, hblock, rfl⟩ := List.mem_map.mp hkey
    obtain ⟨block', hblock', heq⟩ := List.mem_map.mp hkey'
    rw [← (mem_blocksIn.mp hblock).1, ← (mem_blocksIn.mp hblock').1] at hne
    exact hne (congrArg Prod.fst heq).symm

end Blocks

/-! ## The scan -/

/-- **Each file is scanned once**, with a configuration that has been loaded: no two selected paths
are bound for the same file, so that the scan counts different files, and has one message for each
malformed block of the files that it selects. -/
structure ScanRequest.ScansOnce (request : ScanRequest) (files : FileSystem) (config : Config) :
    Prop where
  apart : Selection.Apart files.here (request.selected files config)
  counted : ∀ loaded result last, Config.load files ⟨"."⟩ = .ok loaded → loaded.config = config →
    (scan request).Ends { files } result last → ∃ summary, result.summary = .scan summary ∧
      summary.filesScanned =
        ((request.selected files config).map fun path => path.destination files.here).toFinset.card
  reported : ∀ loaded result last, Config.load files ⟨"."⟩ = .ok loaded → loaded.config = config →
    (scan request).Ends { files } result last → ∃ blocks : List MalformedBlock,
      result.problems = blocks.map MalformedBlock.message ∧
      (blocks.map fun block => (block.address, block.number)).Nodup ∧
      ∀ block, block ∈ blocks ↔ block.StandsIn files (request.grammar config) ∧
        ∃ path ∈ request.selected files config, path.destination files.here = block.address

/-- What a scan that does not break off tells about the files that it selects. -/
lemma summary_of_ends_scan {request : ScanRequest} {files : FileSystem} {loaded : Config.Loaded}
    {result : Result} {last : Session} (hload : Config.load files ⟨"."⟩ = .ok loaded)
    (h : (scan request).Ends { files } result last) :
    ∃ summary corpus, result.summary = .scan summary ∧
      summary.filesScanned = (request.selected files loaded.config).length ∧
      request.corpus files loaded.config = .ok corpus ∧ result.problems = corpus.errors := by
  obtain ⟨loaded', hload', -, hends⟩ := ends_scan.mp h
  cases hload.symm.trans hload'
  obtain ⟨corpus, hcorpus, ⟨-, -, rfl⟩ | ⟨hnil, written, -, rfl⟩⟩ := ends_scanSelected.mp hends
  · exact ⟨_, corpus, rfl, rfl, hcorpus, rfl⟩
  · exact ⟨_, corpus, rfl, rfl, hcorpus, hnil.symm⟩

/-- **When each file is scanned once**: exactly when roots that overlap in a file are spelled alike,
so that the path of the lower one leads on from the path of the upper one. -/
theorem scansOnce_iff_spelledAlike (files : FileSystem) (request : ScanRequest) (config : Config) :
    request.ScansOnce files config ↔
      Selection.SpelledAlike files (selectionOptions (request.amend config)) request.paths := by
  rw [← Selection.apart_select_iff]
  constructor
  · intro h
    exact h.apart
  · intro (happart : Selection.Apart files.here (request.selected files config))
    refine ⟨happart, ?_, ?_⟩
    · rintro loaded result last hload rfl hends
      obtain ⟨summary, corpus, hsummary, hcount, -, -⟩ := summary_of_ends_scan hload hends
      refine ⟨summary, hsummary, ?_⟩
      rw [hcount, List.toFinset_card_of_nodup happart, List.length_map]
    · rintro loaded result last hload rfl hends
      obtain ⟨summary, corpus, -, -, hcorpus, hproblems⟩ := summary_of_ends_scan hload hends
      refine ⟨_, hproblems.trans (errors_eq_of_aggregate hcorpus), nodup_blocks happart, ?_⟩
      intro block
      rw [List.mem_flatMap]
      simp only [mem_blocksIn]
      constructor
      · rintro ⟨path, hpath, haddress, hstands⟩
        exact ⟨hstands, path, hpath, haddress.symm⟩
      · rintro ⟨hstands, path, hpath, haddress⟩
        exact ⟨path, hpath, haddress.symm, hstands⟩

/-! ### A directory and one below it -/

/-- A file system with a malformed block in a test. -/
def overlapFiles : FileSystem where
  root := .directory [("tests", .directory [
    ("test_a.py", .file (Text.Utf8.encode "# aerial:variable Means"))])]
  here := []

/-- A scan of some roots. -/
def scanRoots (roots : List Path) : ScanRequest := ⟨roots, none, [], false, false, false, false⟩

/-- The working directory and the directory of the tests, as it is met from there. -/
lemma spelledAlike_overlapFiles (options : Selection.Options) :
    Selection.SpelledAlike overlapFiles options [⟨"."⟩, ⟨"./tests"⟩] := by
  have htop : (⟨"."⟩ : Path).destination overlapFiles.here = [] := by decide
  have htests : (⟨"./tests"⟩ : Path).destination overlapFiles.here = ["tests"] := by decide
  intro upper hupper lower hlower between names content hbetween _ _ _
  simp only [List.mem_cons, List.not_mem_nil, or_false] at hupper hlower
  rcases hupper with rfl | rfl <;> rcases hlower with rfl | rfl <;>
    simp only [htop, htests, List.nil_append, List.cons_append, List.cons.injEq, true_and,
      reduceCtorEq, List.nil_eq] at hbetween
  · subst hbetween
    simp
  · subst hbetween
    decide
  · subst hbetween
    simp

/-- Below the working directory and the directory of the tests, as it is met from there, each file
is scanned once. -/
theorem scansOnce_iff_spelledAlike_tests :
    ((scanRoots [⟨"."⟩, ⟨"./tests"⟩]).ScansOnce overlapFiles .default ↔
        Selection.SpelledAlike overlapFiles
          (selectionOptions ((scanRoots [⟨"."⟩, ⟨"./tests"⟩]).amend .default))
          [⟨"."⟩, ⟨"./tests"⟩]) ∧
      (scanRoots [⟨"."⟩, ⟨"./tests"⟩]).ScansOnce overlapFiles .default := by
  have hiff := scansOnce_iff_spelledAlike overlapFiles (scanRoots [⟨"."⟩, ⟨"./tests"⟩]) .default
  exact ⟨hiff, hiff.mpr (spelledAlike_overlapFiles _)⟩

/-- **With the directory of the tests spelled without a dot, a test is scanned twice**: it is
selected under two paths for the same file, and the message about its malformed block is told
twice. -/
theorem not_scansOnce_overlap :
    (scanRoots [⟨"."⟩, ⟨"tests"⟩]).selected overlapFiles .default =
        [⟨"./tests/test_a.py"⟩, ⟨"tests/test_a.py"⟩] ∧
      overlapFiles.locate ⟨"./tests/test_a.py"⟩ = .ok ["tests", "test_a.py"] ∧
      overlapFiles.locate ⟨"tests/test_a.py"⟩ = .ok ["tests", "test_a.py"] ∧
      ((scanRoots [⟨"."⟩, ⟨"tests"⟩]).corpus overlapFiles .default).map Corpus.errors =
        .ok (List.replicate 2
          "/tests/test_a.py at line 1: List after [aerial:variable] has no items!") ∧
      ¬ (scanRoots [⟨"."⟩, ⟨"tests"⟩]).ScansOnce overlapFiles .default := by
  have hfound : (Selection.events overlapFiles
      (selectionOptions ((scanRoots [⟨"."⟩, ⟨"tests"⟩]).amend .default))
      [⟨"."⟩, ⟨"tests"⟩]).filterMap Selection.Event.file? =
        [⟨"./tests/test_a.py"⟩, ⟨"tests/test_a.py"⟩] := by decide +kernel
  have hselected : (scanRoots [⟨"."⟩, ⟨"tests"⟩]).selected overlapFiles .default =
      [⟨"./tests/test_a.py"⟩, ⟨"tests/test_a.py"⟩] := by
    rw [ScanRequest.selected, Selection.select, show (scanRoots [⟨"."⟩, ⟨"tests"⟩]).paths =
      [⟨"."⟩, ⟨"tests"⟩] from rfl, hfound, Selection.arranged,
      List.mergeSort_of_pairwise (by decide +kernel)]
    decide +kernel
  refine ⟨hselected, by decide +kernel, by decide +kernel, ?_, fun honce => ?_⟩
  · change (aggregate overlapFiles _
      ((scanRoots [⟨"."⟩, ⟨"tests"⟩]).selected overlapFiles .default)).map Corpus.errors = _
    rw [hselected]
    decide +kernel
  · have happart := honce.apart
    rw [hselected] at happart
    exact absurd happart (by rw [Selection.Apart]; decide +kernel)

end Command

end LivingDocs
