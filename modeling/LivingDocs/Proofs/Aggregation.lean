import LivingDocs.Proofs.Scanned

/-!
# Merging corpora in any grouping

The corpora of several files can be merged by many hands at once: each of them merges some that
stand side by side, perhaps starting from the corpus without entities, and their results are merged
in turn. A corpus is determined by what it holds and by its messages, so such a grouping makes no
difference. The order of the files decides about the order of the messages and about nothing else.

## Main definitions

* `LivingDocs.Corpus.SameEntities` — two corpora have the same entities, kind by kind.
* `LivingDocs.Corpus.Grouping` — a way to merge corpora two by two.
* `LivingDocs.Corpus.mergeAll` — corpora merged from left to right.
* `LivingDocs.Command.MergedAlike` — the files of a scan can be grouped and ordered at will.

## Main results

* `LivingDocs.Corpus.ext_holds` — corpora with the same content are equal.
* `LivingDocs.Corpus.Grouping.merged_eq` — all groupings lead to the same corpus.
* `LivingDocs.Command.aggregate_eq` — a scan merges the corpora of its files.
* `LivingDocs.Command.merging_laws` — the laws of merging, and what they mean for a scan.
-/

set_option autoImplicit false

namespace LivingDocs

namespace Corpus

/-! ## The content of a corpus -/

/-- **Two corpora have the same entities**, kind by kind. -/
structure SameEntities (a b : Corpus) : Prop where
  components : a.components = b.components
  examples : a.examples = b.examples
  vars : a.vars = b.vars
  crosscuts : a.crosscuts = b.crosscuts
  journeys : a.journeys = b.journeys

/-- Corpora that hold the same have the same entities. -/
lemma sameEntities_of_holds {a b : Corpus} (h : ∀ x, a.Holds x ↔ b.Holds x) :
    a.SameEntities b where
  components := OrderedSet.ext_mem fun c => h (.ofComponent c)
  examples := OrderedSet.ext_mem fun e => h (.ofExample e)
  vars := OrderedSet.ext_mem fun v => h (.ofVariable v)
  crosscuts := OrderedSet.ext_mem fun c => h (.ofCrosscut c)
  journeys := OrderedSet.ext_mem fun j => h (.ofJourney j)

/-- **Corpora with the same content are equal.** -/
theorem ext_holds {a b : Corpus} (h : ∀ x, a.Holds x ↔ b.Holds x)
    (herrors : a.errors = b.errors) : a = b := by
  obtain ⟨hcomponents, hexamples, hvars, hcrosscuts, hjourneys⟩ := sameEntities_of_holds h
  cases a
  cases b
  simp_all

@[simp] lemma errors_empty : (∅ : Corpus).errors = [] := rfl

@[simp] lemma errors_merge (a b : Corpus) : (a.merge b).errors = a.errors ++ b.errors := rfl

/-! ## The laws of merging -/

/-- **Merging is associative.** -/
theorem merge_assoc (a b c : Corpus) : (a.merge b).merge c = a.merge (b.merge c) :=
  ext_holds (fun x => by simp only [holds_merge, or_assoc])
    (by simp only [errors_merge, List.append_assoc])

@[simp] theorem empty_merge (c : Corpus) : merge ∅ c = c :=
  ext_holds (fun x => by simp) (by simp)

@[simp] theorem merge_empty (c : Corpus) : c.merge ∅ = c :=
  ext_holds (fun x => by simp) (by simp)

/-- **The order of two corpora does not matter for their entities.** -/
theorem merge_comm (a b : Corpus) : (a.merge b).SameEntities (b.merge a) :=
  sameEntities_of_holds fun x => by simp only [holds_merge, or_comm]

/-- **A corpus that is merged with itself stays as it is** exactly if it has no messages: entities
are kept once, but messages are repeated. -/
theorem merge_self_iff (c : Corpus) : c.merge c = c ↔ c.errors = [] := by
  constructor
  · intro h
    have hlength := congrArg (fun d : Corpus => d.errors.length) h
    simp only [errors_merge, List.length_append] at hlength
    exact List.length_eq_zero_iff.mp (by omega)
  · intro h
    exact ext_holds (fun x => by simp) (by simp [h])

/-! ## Many corpora -/

/-- Corpora merged from left to right. -/
def mergeAll (corpora : List Corpus) : Corpus := corpora.foldl merge ∅

/-- What is merged behind a corpus can be merged before. -/
lemma foldl_merge (start : Corpus) (corpora : List Corpus) :
    corpora.foldl merge start = start.merge (mergeAll corpora) := by
  induction corpora generalizing start with
  | nil => exact (merge_empty start).symm
  | cons c corpora ih =>
    rw [mergeAll, List.foldl_cons, List.foldl_cons, empty_merge, ih, ih c, merge_assoc]

@[simp] lemma mergeAll_nil : mergeAll [] = ∅ := rfl

@[simp] lemma mergeAll_cons (c : Corpus) (corpora : List Corpus) :
    mergeAll (c :: corpora) = c.merge (mergeAll corpora) := by
  rw [mergeAll, List.foldl_cons, empty_merge, foldl_merge]

/-- Corpora are merged in two parts. -/
lemma mergeAll_append (front back : List Corpus) :
    mergeAll (front ++ back) = (mergeAll front).merge (mergeAll back) := by
  rw [mergeAll, List.foldl_append, foldl_merge]
  rfl

/-- What is merged holds what one of the corpora does. -/
lemma holds_mergeAll {corpora : List Corpus} {x : Entity} :
    (mergeAll corpora).Holds x ↔ ∃ c ∈ corpora, c.Holds x := by
  induction corpora with
  | nil => simp
  | cons c corpora ih => simp [ih]

/-- The messages of the corpora stand one block after the other. -/
lemma errors_mergeAll (corpora : List Corpus) :
    (mergeAll corpora).errors = (corpora.map errors).flatten := by
  induction corpora with
  | nil => rfl
  | cons c corpora ih => simp [ih]

/-- **The order of corpora does not matter for their entities.** -/
lemma sameEntities_mergeAll {corpora corpora' : List Corpus} (h : corpora'.Perm corpora) :
    (mergeAll corpora').SameEntities (mergeAll corpora) :=
  sameEntities_of_holds fun x => by simp only [holds_mergeAll, h.mem_iff]

/-- **A way to merge corpora**: two by two, in any grouping, with the corpus without entities
wherever a group starts or is empty. -/
inductive Grouping where
  /-- The corpus without entities. -/
  | nothing
  | one (corpus : Corpus)
  /-- What has come of a group, merged with what has come of the group behind it. -/
  | both (front back : Grouping)

namespace Grouping

/-- The corpora that are merged, in order. -/
def corpora : Grouping → List Corpus
  | nothing => []
  | one corpus => [corpus]
  | both front back => front.corpora ++ back.corpora

/-- What has come of a group. -/
def merged : Grouping → Corpus
  | nothing => ∅
  | one corpus => corpus
  | both front back => front.merged.merge back.merged

/-- **All groupings lead to the same corpus**, the one that is merged from left to right. -/
theorem merged_eq (grouping : Grouping) : grouping.merged = mergeAll grouping.corpora := by
  induction grouping with
  | nothing => rfl
  | one corpus => simp [merged, corpora]
  | both front back ihfront ihback => rw [merged, corpora, mergeAll_append, ihfront, ihback]

end Grouping

end Corpus

/-! ## The files of a scan -/

namespace Command

open Corpus

/-- **A scan merges the corpora of its files**, and fails as the first file does that cannot be
read. -/
theorem aggregate_eq (files : FileSystem) (grammar : Block.Grammar) (paths : List Path) :
    aggregate files grammar paths = (paths.mapM (fileCorpus files grammar)).map mergeAll := by
  have hfold : ∀ (paths : List Path) (start : Corpus),
      paths.foldlM (fun corpus path => (fileCorpus files grammar path).map corpus.merge) start =
        (paths.mapM (fileCorpus files grammar)).map fun corpora =>
          start.merge (mergeAll corpora) := by
    intro paths
    induction paths with
    | nil =>
      intro start
      rw [List.foldlM_nil, List.mapM_nil]
      simp [pure, Except.pure, Except.map]
    | cons path paths ih =>
      intro start
      rw [List.foldlM_cons, List.mapM_cons]
      cases fileCorpus files grammar path with
      | error fault => rfl
      | ok corpus =>
        refine (ih (start.merge corpus)).trans ?_
        cases paths.mapM (fileCorpus files grammar) with
        | error fault => rfl
        | ok corpora =>
          simp [Except.map, bind, Except.bind, pure, Except.pure, merge_assoc]
  rw [aggregate, hfold]
  simp

/-- **The files of a scan can be grouped and ordered at will**, given their corpora in order. -/
structure MergedAlike (files : FileSystem) (grammar : Block.Grammar) (paths : List Path)
    (corpora : List Corpus) : Prop where
  /-- A scan ends with the corpora merged from left to right, and changes nothing. -/
  scanned : ∀ session : Session, session.files = files →
    (scanFiles grammar paths).Ends session (mergeAll corpora) session
  /-- Each grouping of them leads to the same corpus. -/
  grouped : ∀ grouping : Grouping, grouping.corpora = corpora →
    grouping.merged = mergeAll corpora
  /-- The messages are those about the single files, in the order of the files. -/
  errors : (mergeAll corpora).errors = (corpora.map Corpus.errors).flatten
  /-- In another order, the files lead to the same entities, and each of them to its own block of
  messages. -/
  ordered : ∀ paths' : List Path, paths'.Perm paths →
    ∃ corpora', paths'.mapM (fileCorpus files grammar) = .ok corpora' ∧ corpora'.Perm corpora ∧
      (mergeAll corpora').SameEntities (mergeAll corpora) ∧
      (mergeAll corpora').errors = (corpora'.map Corpus.errors).flatten

/-- **The laws of merging, and what they mean for a scan.** Merging is associative and has the
corpus without entities as its neutral element. The order of two corpora does not matter for their
entities, and a corpus absorbs itself exactly if it has no messages. Hence, whenever all files can
be read, they can be grouped and ordered at will. -/
theorem merging_laws :
    (∀ a b c : Corpus, (a.merge b).merge c = a.merge (b.merge c)) ∧
    (∀ c : Corpus, Corpus.merge ∅ c = c ∧ c.merge ∅ = c) ∧
    (∀ a b : Corpus, (a.merge b).SameEntities (b.merge a)) ∧
    (∀ c : Corpus, c.merge c = c ↔ c.errors = []) ∧
    ∀ (files : FileSystem) (grammar : Block.Grammar) (paths : List Path) (corpora : List Corpus),
      paths.mapM (fileCorpus files grammar) = .ok corpora →
        MergedAlike files grammar paths corpora := by
  refine ⟨merge_assoc, fun c => ⟨empty_merge c, merge_empty c⟩, merge_comm, merge_self_iff, ?_⟩
  intro files grammar paths corpora hread
  refine ⟨fun session hsession => ?_, fun grouping hgrouping => ?_, errors_mergeAll corpora, ?_⟩
  · rw [ends_scanFiles, hsession, aggregate_eq, hread]
    exact ⟨rfl, rfl⟩
  · rw [grouping.merged_eq, hgrouping]
  · intro paths' hperm
    obtain ⟨corpora', hread', hcorpora⟩ := exists_mapM_ok_of_perm hperm hread
    exact ⟨corpora', hread', hcorpora, sameEntities_mergeAll hcorpora, errors_mergeAll corpora'⟩

/-! ### Two files -/

/-- A file with a crosscut, and one with the same crosscut and a variable without values. -/
def auditFiles : FileSystem where
  root := .directory [
    ("test_a.py", .file (Text.Utf8.encode "# aerial:cross-cut Audit log")),
    ("test_b.py", .file (Text.Utf8.encode "# aerial:cross-cut Audit log\n# aerial:variable Means"))]
  here := []

/-- The corpora of the two files. -/
def auditCorpora : List Corpus :=
  [ofLines (.standard "aerial") "/test_a.py" ["# aerial:cross-cut Audit log"],
    ofLines (.standard "aerial") "/test_b.py"
      ["# aerial:cross-cut Audit log", "# aerial:variable Means"]]

/-- Both files can be read, so they can be grouped and ordered at will. -/
theorem merging_laws_audit :
    [⟨"test_a.py"⟩, ⟨"test_b.py"⟩].mapM (fileCorpus auditFiles (.standard "aerial")) =
        .ok auditCorpora ∧
      MergedAlike auditFiles (.standard "aerial") [⟨"test_a.py"⟩, ⟨"test_b.py"⟩]
        auditCorpora := by
  have hread : [⟨"test_a.py"⟩, ⟨"test_b.py"⟩].mapM (fileCorpus auditFiles (.standard "aerial")) =
      .ok auditCorpora := by
    decide +kernel
  exact ⟨hread, merging_laws.2.2.2.2 _ _ _ _ hread⟩

end Command

end LivingDocs
