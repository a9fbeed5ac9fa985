import LivingDocs.Proofs.ArtifactText
import LivingDocs.Proofs.CollationOutcome
import LivingDocs.Proofs.Disk
import LivingDocs.Proofs.KeywordLines
import LivingDocs.Proofs.Session

/-!
# What a scan finds

The corpus of a scan depends on the file system only. Each entity in it is stamped with its file,
and its line is one of the lines of that file; a file has no more lines than octets, so the line
can be kept on file as long as the sizes of files fit in 64 bits.

## Main definitions

* `LivingDocs.Command.fileCorpus`, `LivingDocs.Command.aggregate` — the corpus of a file and of
  several files.
* `LivingDocs.FileSystem.Sized` — sizes of files that fit in 64 bits.
* `LivingDocs.Corpus.Located` — every entity has a file and a line that can be kept.

## Main results

* `LivingDocs.Text.length_lines_decodeLossy_le` — a file has no more lines than octets.
* `LivingDocs.Command.ends_scanFiles` — what scanning several files ends with.
* `LivingDocs.Command.located_of_aggregate` — every entity that is found has a file and a line.
-/

set_option autoImplicit false

namespace LivingDocs

/-! ## Lines and octets -/

/-- What grows by one at most with each element grows by the length of the list at most. -/
lemma measure_foldl_le {α β : Type} (f : β → α → β) (measure : β → Nat)
    (h : ∀ b a, measure (f b a) ≤ measure b + 1) (xs : List α) (start : β) :
    measure (xs.foldl f start) ≤ measure start + xs.length := by
  induction xs generalizing start with
  | nil => exact Nat.le_refl _
  | cons x xs ih =>
    have hstep := h start x
    have hrest := ih (f start x)
    rw [List.foldl_cons, List.length_cons]
    omega

namespace Text

/-- One octet adds one character at most. -/
lemma Utf8.Decoder.length_finish_push (decoder : Utf8.Decoder) (octet : UInt8) :
    (decoder.push octet).finish.length ≤ decoder.finish.length + 1 := by
  have hstart : ∀ (decoded : List Char) (n : Nat),
      (start decoded n).finish.length ≤ decoded.length + 1 := by
    intro decoded n
    unfold start
    split <;> simp [finish]
  obtain ⟨decoded, pending⟩ := decoder
  cases pending with
  | none => simpa [push, finish] using hstart decoded octet.toNat
  | some pending =>
    unfold push
    dsimp only
    split_ifs
    · simp [finish]
    · simp [finish]
    · simpa [finish] using hstart (Utf8.replacement :: decoded) octet.toNat

/-- One character adds one line at most. -/
lemma LineCutter.length_finish_push (cutter : LineCutter) (c : Char) :
    (cutter.push c).finish.length ≤ cutter.finish.length + 1 := by
  have hfinish : ∀ cutter : LineCutter, cutter.finish.length =
      cutter.finished.length + if cutter.current.isEmpty then 0 else 1 := by
    intro cutter
    unfold finish
    split_ifs <;> simp
  rw [hfinish, hfinish, push]
  split_ifs <;> simp_all

/-- **A file has no more lines than octets.** -/
theorem length_lines_decodeLossy_le (octets : ByteArray) :
    (lines (Utf8.decodeLossy octets)).length ≤ octets.size := by
  have hchars : (Utf8.decodeLossy octets).toList.length ≤ octets.data.toList.length := by
    rw [Utf8.decodeLossy, String.toList_ofList]
    simpa [Utf8.Decoder.finish] using measure_foldl_le Utf8.Decoder.push (·.finish.length)
      Utf8.Decoder.length_finish_push octets.data.toList ⟨[], none⟩
  have hlines : (lines (Utf8.decodeLossy octets)).length ≤
      (Utf8.decodeLossy octets).toList.length := by
    rw [lines, List.length_map]
    simpa [LineCutter.finish] using measure_foldl_le LineCutter.push (·.finish.length)
      LineCutter.length_finish_push (Utf8.decodeLossy octets).toList ⟨[], []⟩
  exact hlines.trans hchars

end Text

/-- **Sizes of files fit in 64 bits**, as in any file system that can be kept. So does then the
number of every line, which is what an artifact asks of it. -/
def FileSystem.Sized (files : FileSystem) : Prop :=
  ∀ address content, files.root.get? address = some (.file content) →
    content.size ≤ Location.maxLine

/-! ## Entities with a place -/

namespace Corpus

/-- What was found in a file is stamped with it and stands at one of its lines. -/
lemma location_of_holds_ofLines {grammar : Block.Grammar} {file : String} {lines : List String}
    {x : Entity} (h : (ofLines grammar file lines).Holds x) :
    x.location.file = some file ∧ x.location.line ≤ lines.length := by
  obtain ⟨entity, hentity, rfl⟩ := holds_ofLines_iff.mp h
  obtain ⟨step, hstep, hfound⟩ := List.mem_filterMap.mp hentity
  obtain ⟨i, hi, hnumber, hresult⟩ := Block.exists_read_of_mem_steps hstep
  obtain ⟨j, hnumber', consumed, -, hread⟩ := Block.exists_read_of_entity? hstep hfound
  rw [Entity.location_stamp, Block.location_of_read hread]
  exact ⟨rfl, show 1 + j ≤ lines.length by omega⟩

/-- **Every entity has a file and a line that can be kept on file.** -/
def Located (corpus : Corpus) : Prop :=
  ∀ x, corpus.Holds x → x.location.file ≠ none ∧ x.location.line ≤ Location.maxLine

/-- The lines of a corpus in which every entity has its place can be kept on file. -/
lemma Located.numbered {corpus : Corpus} (h : corpus.Located) :
    (Collation.Sources.ofCorpus corpus).Numbered where
  components c hc := (h (.ofComponent c) hc).2
  crosscuts c hc := (h (.ofCrosscut c) hc).2
  journeys j hj := (h (.ofJourney j) hj).2
  examples e he := (h (.ofExample e) he).2
  vars v hv := (h (.ofVariable v) hv).2

end Corpus

/-! ## The corpus of several files -/

namespace Command

/-- The corpus of a file, whose entities are stamped with its absolute path. -/
def fileCorpus (files : FileSystem) (grammar : Block.Grammar) (path : Path) :
    Except FileSystem.Fault Corpus :=
  (files.readFile path).map fun content =>
    Corpus.ofLines grammar (match files.canonical path with
      | .ok absolute => absolute
      | .error _ => path.text) (Text.lines (Text.Utf8.decodeLossy content))

/-- **The corpus of several files.** -/
def aggregate (files : FileSystem) (grammar : Block.Grammar) (paths : List Path) :
    Except FileSystem.Fault Corpus :=
  paths.foldlM (fun corpus path => (fileCorpus files grammar path).map corpus.merge) ∅

/-- Scanning a file ends with its corpus. -/
lemma ends_scanFile {grammar : Block.Grammar} {path : Path} {session last : Session}
    {corpus : Corpus} : (scanFile grammar path).Ends session corpus last ↔
      fileCorpus session.files grammar path = .ok corpus ∧ last = session := by
  simp only [scanFile, fileCorpus, Action.ends_bind, Action.ends_readFile, Action.ends_files,
    Action.ends_pure, map_eq_ok_iff]
  constructor
  · rintro ⟨content, _, ⟨hread, rfl⟩, _, _, ⟨rfl, rfl⟩, rfl, rfl⟩
    exact ⟨⟨content, hread, rfl⟩, rfl⟩
  · rintro ⟨⟨content, hread, rfl⟩, rfl⟩
    exact ⟨content, last, ⟨hread, rfl⟩, last.files, last, ⟨rfl, rfl⟩, rfl, rfl⟩

/-- **Scanning several files ends with the corpus of all of them** and changes nothing. -/
lemma ends_scanFiles {grammar : Block.Grammar} {paths : List Path} {session last : Session}
    {corpus : Corpus} : (scanFiles grammar paths).Ends session corpus last ↔
      aggregate session.files grammar paths = .ok corpus ∧ last = session := by
  rw [scanFiles, aggregate]
  generalize (∅ : Corpus) = start
  induction paths generalizing start with
  | nil =>
    rw [List.foldlM_nil, List.foldlM_nil, Action.ends_pure]
    simp [pure, Except.pure, eq_comm]
  | cons path paths ih =>
    simp only [List.foldlM_cons, Action.ends_bind, ends_scanFile, Action.ends_pure, bind_eq_ok_iff,
      map_eq_ok_iff]
    constructor
    · rintro ⟨_, _, ⟨found, _, ⟨hfound, rfl⟩, rfl, rfl⟩, hrest⟩
      obtain ⟨hrest, rfl⟩ := (ih _).mp hrest
      exact ⟨⟨_, ⟨found, hfound, rfl⟩, hrest⟩, rfl⟩
    · rintro ⟨⟨_, ⟨found, hfound, rfl⟩, hrest⟩, rfl⟩
      exact ⟨_, last, ⟨found, last, ⟨hfound, rfl⟩, rfl, rfl⟩, (ih _).mpr ⟨hrest, rfl⟩⟩

/-- Every entity of a file has its place. -/
lemma located_of_fileCorpus {files : FileSystem} (hsized : files.Sized) {grammar : Block.Grammar}
    {path : Path} {corpus : Corpus} (h : fileCorpus files grammar path = .ok corpus) :
    corpus.Located := by
  obtain ⟨content, hread, rfl⟩ := map_eq_ok_iff.mp h
  obtain ⟨place, hreach, hnode⟩ := FileSystem.readFile_eq_ok_iff.mp hread
  have hfile := (FileSystem.within_of_reach hreach).get?_address
  rw [hnode] at hfile
  intro x hx
  obtain ⟨hstamp, hline⟩ := Corpus.location_of_holds_ofLines hx
  refine ⟨by simp [hstamp], hline.trans ?_⟩
  exact (Text.length_lines_decodeLossy_le content).trans (hsized _ _ hfile)

/-- **Every entity that is found in several files has its place.**

**Proof sketch.** Induction on the files, with the corpus so far: each file adds entities that have
their place, and a union holds nothing else. -/
theorem located_of_aggregate {files : FileSystem} (hsized : files.Sized) {grammar : Block.Grammar}
    {paths : List Path} {corpus : Corpus} (h : aggregate files grammar paths = .ok corpus) :
    corpus.Located := by
  have hfold : ∀ (paths : List Path) (start : Corpus), start.Located →
      paths.foldlM (fun corpus path => (fileCorpus files grammar path).map corpus.merge) start =
        .ok corpus → corpus.Located := by
    intro paths
    induction paths with
    | nil =>
      intro start hstart hok
      cases hok
      exact hstart
    | cons path paths ih =>
      intro start hstart hok
      rw [List.foldlM_cons, bind_eq_ok_iff] at hok
      obtain ⟨next, hnext, hok⟩ := hok
      obtain ⟨found, hfound, rfl⟩ := map_eq_ok_iff.mp hnext
      refine ih _ (fun x hx => ?_) hok
      rcases Corpus.holds_merge.mp hx with hx | hx
      · exact hstart x hx
      · exact located_of_fileCorpus hsized hfound x hx
  exact hfold paths ∅ (fun x hx => absurd hx (Corpus.not_holds_empty x)) h

end Command

end LivingDocs
