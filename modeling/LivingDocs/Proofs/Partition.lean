import LivingDocs.Proofs.KeywordLines
import LivingDocs.Proofs.Ordered

/-!
# The lines of a file, step by step

The steps through a file partition its lines, whatever the grammar. Each step starts where the one
before it has ended, the first one at the first line, and the last one ends with the lines. A step
that has read something consumes one line at least and never more than there are; after a malformed
block the next line is tried. Nothing that was read gets lost, since the line of an entity tells it
apart from all others.

## Main definitions

* `LivingDocs.Block.Step.cursor`, `LivingDocs.Block.Step.next` — where a step starts, and where the
  one after it does.
* `LivingDocs.Block.cursors` — all positions on the way through a file.
* `LivingDocs.Corpus.Partitions` — what a run through a file has to do with the corpus of the file.

## Main results

* `LivingDocs.Block.cursors_eq` — the steps follow each other without a gap.
* `LivingDocs.Corpus.entityCount_ofLines` — each entity that was read is counted.
* `LivingDocs.Corpus.partitions_ofLines` — the run through a file partitions its lines.
-/

set_option autoImplicit false

namespace LivingDocs

namespace Block

/-- The position where a step starts, counted from zero. -/
def Step.cursor (step : Step) : Nat := step.number - 1

/-- **The position behind a step**: behind the lines that it has consumed, or behind its first line
if the block there is malformed. -/
def Step.next (step : Step) : Nat :=
  match step.result with
  | .ok reading => step.cursor + reading.consumed
  | .error _ => step.cursor + 1

/-- **All positions on the way through the lines**: the start, and then the position behind each
step. -/
def cursors (grammar : Grammar) (lines : List String) : List Nat :=
  0 :: (steps grammar 1 lines).map Step.next

variable {grammar : Grammar} {number : Nat} {line : String} {lines : List String}
  {reading : Reading} {step : Step}

/-! ## One step -/

/-- **What is read has one line at least.** -/
lemma one_le_consumed_of_read (h : read grammar number (line :: lines) = .ok reading) :
    1 ≤ reading.consumed := by
  rcases nothing_or_stands_of_read h with rfl | ⟨entity, n, rfl, -, -, -⟩
  · exact le_rfl
  · simp only
    omega

/-- A step goes on as many lines further as it passes over. -/
lemma next_eq_of_read (hnumber : 1 ≤ step.number)
    (h : step.result = read grammar step.number (line :: lines)) :
    step.next = step.number + step.further := by
  unfold Step.next Step.further Step.cursor
  cases hread : step.result with
  | error error =>
    simp only
    omega
  | ok reading =>
    have hconsumed := one_le_consumed_of_read (h ▸ hread)
    simp only
    omega

/-- A step does not pass over more lines than there are below its first one. -/
lemma further_le_of_read (h : step.result = read grammar number (line :: lines)) :
    step.further ≤ lines.length := by
  unfold Step.further
  split
  · next reading hok =>
    have hle := consumed_le_of_read (h ▸ hok)
    omega
  · exact Nat.zero_le _

/-! ## All steps -/

/-- **The steps follow each other without a gap**, from the number of the first line to the number
behind the last one.

**Proof sketch.** Induction along the steps. The first step starts at the first line, and it ends
where the steps through the rest start. -/
lemma cons_map_next_steps (grammar : Grammar) (lines : List String) (hnumber : 1 ≤ number) :
    (number - 1) :: (steps grammar number lines).map Step.next =
      (steps grammar number lines).map Step.cursor ++ [number - 1 + lines.length] := by
  fun_induction steps grammar number lines with
  | case1 number => simp
  | case2 number line lines step ih =>
    have hnext : step.next = number + 1 + step.further - 1 := by
      rw [next_eq_of_read hnumber rfl]
      simp only [step]
      omega
    have hfurther : step.further ≤ lines.length := further_le_of_read rfl
    have hend : number + 1 + step.further - 1 + (lines.drop step.further).length =
        number - 1 + (line :: lines).length := by
      rw [List.length_drop, List.length_cons]
      omega
    have hrest := ih (by omega)
    rw [hend, ← hnext] at hrest
    rw [List.map_cons, hrest, List.map_cons, List.cons_append]
    rfl

/-- **Each step starts where the one before it has ended**: the first one at the start, and behind
the last one the lines are at their end. -/
theorem cursors_eq (grammar : Grammar) (lines : List String) :
    cursors grammar lines = (steps grammar 1 lines).map Step.cursor ++ [lines.length] := by
  have h := cons_map_next_steps grammar lines (le_refl 1)
  rw [Nat.sub_self, Nat.zero_add] at h
  exact h

/-- **Later steps start further down.** -/
lemma pairwise_number_steps (grammar : Grammar) (number : Nat) (lines : List String) :
    (steps grammar number lines).Pairwise fun a b => a.number < b.number := by
  fun_induction steps grammar number lines with
  | case1 => exact .nil
  | case2 number line lines step ih =>
    refine List.pairwise_cons.mpr ⟨fun later hlater => ?_, ih⟩
    have hle := le_number_of_mem_steps hlater
    simp only [step] at hle ⊢
    omega

/-- Every step through a file starts at one of its lines and reads what stands there. -/
lemma readAt_cursor_of_mem_steps (h : step ∈ steps grammar 1 lines) :
    step.cursor < lines.length ∧ step.number = step.cursor + 1 ∧
      step.result = readAt grammar lines step.cursor := by
  obtain ⟨i, hi, hnumber, hresult⟩ := exists_read_of_mem_steps h
  have hcursor : step.cursor = i := by
    rw [Step.cursor, hnumber]
    omega
  rw [hcursor]
  refine ⟨hi, by omega, ?_⟩
  rw [hresult, readAt, Nat.add_comm]

/-- The positions on the way through a file go down it strictly. -/
lemma pairwise_cursors (grammar : Grammar) (lines : List String) :
    (cursors grammar lines).Pairwise (· < ·) := by
  rw [cursors_eq, List.pairwise_append]
  refine ⟨?_, List.pairwise_singleton _ _, ?_⟩
  · refine List.pairwise_map.mpr ((pairwise_number_steps grammar 1 lines).imp_of_mem ?_)
    intro a b ha hb hlt
    have hanumber := (readAt_cursor_of_mem_steps ha).2.1
    have hbnumber := (readAt_cursor_of_mem_steps hb).2.1
    omega
  · intro position hposition last hlast
    obtain ⟨step, hstep, rfl⟩ := List.mem_map.mp hposition
    obtain rfl := List.mem_singleton.mp hlast
    exact (readAt_cursor_of_mem_steps hstep).1

/-- **What a step has read has one line at least, and no more than there are.** -/
lemma consumed_of_mem_steps (h : step ∈ steps grammar 1 lines)
    (hread : step.result = .ok reading) :
    1 ≤ reading.consumed ∧ step.cursor + reading.consumed ≤ lines.length := by
  obtain ⟨hlt, -, hresult⟩ := readAt_cursor_of_mem_steps h
  rw [hread, readAt, List.drop_eq_getElem_cons hlt] at hresult
  have hpos := one_le_consumed_of_read hresult.symm
  have hle := consumed_le_of_read hresult.symm
  rw [List.length_drop] at hle
  omega

/-- **After a malformed block the very next line is tried**, if there is one. -/
lemma exists_step_of_next (h : step ∈ steps grammar 1 lines) (hnext : step.next < lines.length) :
    ∃ later ∈ steps grammar 1 lines, later.cursor = step.next := by
  have hmem : step.next ∈ cursors grammar lines :=
    List.mem_cons_of_mem 0 (List.mem_map_of_mem h)
  rw [cursors_eq, List.mem_append, List.mem_singleton] at hmem
  rcases hmem with hmem | hlast
  · exact List.mem_map.mp hmem
  · omega

/-- The entities of a text are read in the order of their lines. -/
lemma pairwise_entities (grammar : Grammar) (number : Nat) (lines : List String) :
    (entities grammar number lines).Pairwise fun a b => a.location.line < b.location.line := by
  refine List.pairwise_filterMap.mpr ((pairwise_number_steps grammar number lines).imp_of_mem ?_)
  intro a b ha hb hlt x hx y hy
  rw [location_of_entity? ha hx, location_of_entity? hb hy]
  exact hlt

end Block

namespace Corpus

open Block

/-! ## The number of entities -/

/-- **A new entity is counted.** -/
lemma entityCount_insert {corpus : Corpus} {x : Entity} (h : ¬ corpus.Holds x) :
    (corpus.insert x).entityCount = corpus.entityCount + 1 := by
  cases x <;>
    · simp only [entityCount, Corpus.insert, OrderedSet.size_insert_of_not_mem h]
      omega

/-- One step is counted if it has found an entity that is new. -/
lemma entityCount_record (corpus : Corpus) (file : String) (step : Step)
    (h : ∀ entity, step.entity? = some entity → ¬ corpus.Holds (entity.stamp file)) :
    (corpus.record file step).entityCount = corpus.entityCount + step.entity?.toList.length := by
  unfold record
  unfold Step.entity? at h ⊢
  split
  · next entity hok =>
    rw [hok] at h ⊢
    exact entityCount_insert (h entity rfl)
  · next hok =>
    rw [hok]
    rfl
  · next herror =>
    rw [herror]
    rfl

/-- **A run is counted by the entities that it has found**, if these are all new.

**Proof sketch.** Induction along the run. What the first step has found is new, and what the later
ones find is different from it and from all that was there. -/
lemma entityCount_foldl_record {file : String} (run : List Step) (corpus : Corpus)
    (hdistinct : ((run.filterMap Step.entity?).map (Entity.stamp · file)).Nodup)
    (hnew : ∀ x ∈ (run.filterMap Step.entity?).map (Entity.stamp · file), ¬ corpus.Holds x) :
    (run.foldl (record file) corpus).entityCount =
      corpus.entityCount + (run.filterMap Step.entity?).length := by
  induction run generalizing corpus with
  | nil => rfl
  | cons step run ih =>
    cases hstep : step.entity? with
    | none =>
      rw [List.filterMap_cons_none hstep] at hdistinct hnew ⊢
      have hcount := entityCount_record corpus file step
        (by simp [hstep])
      have hholds : ∀ x, (corpus.record file step).Holds x ↔ corpus.Holds x := by
        intro x
        simp [holds_record_iff, hstep]
      rw [List.foldl_cons, ih _ hdistinct fun x hx => (hholds x).not.mpr (hnew x hx), hcount, hstep]
      rfl
    | some entity =>
      rw [List.filterMap_cons_some hstep, List.map_cons] at hdistinct hnew
      obtain ⟨hfirst, hrest⟩ := List.nodup_cons.mp hdistinct
      have hcount := entityCount_record corpus file step (by
        intro found hfound
        obtain rfl : entity = found := Option.some.inj (hstep.symm.trans hfound)
        exact hnew _ List.mem_cons_self)
      have hholds : ∀ x, (corpus.record file step).Holds x ↔
          x = entity.stamp file ∨ corpus.Holds x := by
        intro x
        simp [holds_record_iff, hstep]
      rw [List.foldl_cons, ih _ hrest, hcount, hstep, List.filterMap_cons_some hstep]
      · simp only [Option.toList_some, List.length_cons, List.length_nil]
        omega
      · intro x hx hheld
        rcases (hholds x).mp hheld with rfl | hheld
        · exact hfirst hx
        · exact hnew x (List.mem_cons_of_mem _ hx) hheld

/-- **Each entity that was read is counted**: no two of them are the same, since they are declared
at different lines. -/
theorem entityCount_ofLines (grammar : Grammar) (file : String) (lines : List String) :
    (ofLines grammar file lines).entityCount = (entities grammar 1 lines).length := by
  have hdistinct : ((entities grammar 1 lines).map (Entity.stamp · file)).Nodup := by
    refine List.pairwise_map.mpr ((pairwise_entities grammar 1 lines).imp ?_)
    intro a b hlt heq
    have hline := congrArg (fun x => x.location.line) heq
    simp only [Entity.location_stamp, Location.stamp] at hline
    omega
  rw [ofLines, entityCount_foldl_record _ _ hdistinct fun x _ => not_holds_empty x]
  exact Nat.zero_add _

/-! ## The partition -/

/-- **The run through a file partitions its lines**, with no loss and no duplication. -/
structure Partitions (grammar : Grammar) (file : String) (lines : List String) : Prop where
  /-- The cursor starts at the first line, each step starts where the one before it has ended, and
  the last one ends with the lines. -/
  gapless : cursors grammar lines = (steps grammar 1 lines).map Step.cursor ++ [lines.length]
  /-- The cursor only ever moves down. -/
  increasing : (cursors grammar lines).Pairwise (· < ·)
  /-- Each step reads what stands where it starts. -/
  reads : ∀ step ∈ steps grammar 1 lines, step.result = readAt grammar lines step.cursor
  /-- A step that succeeds consumes one line at least, and none beyond the end. -/
  consumed : ∀ step ∈ steps grammar 1 lines, ∀ reading, step.result = .ok reading →
    1 ≤ reading.consumed ∧ step.cursor + reading.consumed ≤ lines.length
  /-- The corpus has one entity for each step that has found one. -/
  count : (ofLines grammar file lines).entityCount =
    ((steps grammar 1 lines).filter fun step => step.entity?.isSome).length
  /-- The entities of the corpus are those that were found, stamped with the file. -/
  entities : ∀ x, (ofLines grammar file lines).Holds x ↔
    ∃ step ∈ steps grammar 1 lines, ∃ consumed entity,
      readAt grammar lines step.cursor = .ok ⟨consumed, some entity⟩ ∧ x = entity.stamp file
  /-- An entity that was found is declared at the line where its step starts. -/
  places : ∀ step ∈ steps grammar 1 lines, ∀ entity, step.entity? = some entity →
    (entity.stamp file).location = ⟨some file, step.cursor + 1⟩
  /-- There is one message for each step that fails, about the line where it starts. -/
  errors : (ofLines grammar file lines).errors =
    (steps grammar 1 lines).filterMap fun step =>
      (Collation.failure? step.result).map (errorMessage file (step.cursor + 1))
  /-- The messages are in the order of their lines. -/
  ordered : ((steps grammar 1 lines).filter fun step => !step.result.isOk).Pairwise
    fun a b => a.cursor < b.cursor
  /-- A step that fails is followed by one at the very next line, if there is a next line. -/
  resumes : ∀ step ∈ steps grammar 1 lines, ∀ error, step.result = .error error →
    step.next = step.cursor + 1 ∧ (step.cursor + 1 < lines.length →
      ∃ later ∈ steps grammar 1 lines, later.cursor = step.cursor + 1)

/-- A file has one message for each step through it that fails. -/
lemma errors_ofLines_eq_filterMap (grammar : Grammar) (file : String) (lines : List String) :
    (ofLines grammar file lines).errors =
      (steps grammar 1 lines).filterMap fun step =>
        (Collation.failure? step.result).map (errorMessage file (step.cursor + 1)) := by
  rw [errors_ofLines, messages, faults, List.map_filterMap]
  refine List.filterMap_congr ?_
  intro step hstep
  rw [← (readAt_cursor_of_mem_steps hstep).2.1, Step.fault?]
  cases step.result <;> rfl

/-- The steps that have found an entity are as many as the entities. -/
lemma length_filter_entity? (run : List Step) :
    (run.filter fun step => step.entity?.isSome).length = (run.filterMap Step.entity?).length := by
  induction run with
  | nil => rfl
  | cons step run ih => cases hstep : step.entity? <;> simp [hstep, ih]

/-- **The run through a file partitions its lines**, whatever the grammar.

**Proof sketch.** A block ends with the lines or before, so the steps follow each other down to the
end. Each entity has the line of its step, so that no two of them are the same. -/
theorem partitions_ofLines (grammar : Grammar) (file : String) (lines : List String) :
    Partitions grammar file lines where
  gapless := cursors_eq grammar lines
  increasing := pairwise_cursors grammar lines
  reads := fun _ hstep => (readAt_cursor_of_mem_steps hstep).2.2
  consumed := fun _ hstep _ hread => consumed_of_mem_steps hstep hread
  count := by
    rw [entityCount_ofLines, entities, length_filter_entity?]
  entities := by
    intro x
    rw [holds_ofLines_iff_step]
    refine exists_congr fun step => and_congr_right fun hstep => ?_
    rw [← (readAt_cursor_of_mem_steps hstep).2.2]
    constructor
    · rintro ⟨entity, hentity, hx⟩
      obtain ⟨-, -, consumed, hresult, -⟩ := exists_read_of_entity? hstep hentity
      exact ⟨consumed, entity, hresult, hx⟩
    · rintro ⟨consumed, entity, hresult, hx⟩
      exact ⟨entity, by rw [Step.entity?, hresult], hx⟩
  places := by
    intro step hstep entity hentity
    rw [Entity.location_stamp, location_of_entity? hstep hentity,
      (readAt_cursor_of_mem_steps hstep).2.1]
    rfl
  errors := errors_ofLines_eq_filterMap grammar file lines
  ordered := by
    have hcursors := pairwise_cursors grammar lines
    rw [cursors_eq, List.pairwise_append] at hcursors
    exact (List.pairwise_map.mp hcursors.1).sublist List.filter_sublist
  resumes := by
    intro step hstep error herror
    have hnext : step.next = step.cursor + 1 := by rw [Step.next, herror]
    refine ⟨hnext, fun hlt => ?_⟩
    rw [← hnext] at hlt ⊢
    exact exists_step_of_next hstep hlt

end Corpus

end LivingDocs
