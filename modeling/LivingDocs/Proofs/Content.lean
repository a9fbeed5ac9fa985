import LivingDocs.Corpus
import LivingDocs.Proofs.Run

/-!
# The content of a corpus

What a corpus of one file holds is what the steps through the file have found: the entities of all
blocks that were read, stamped with the file, and one message for each malformed block. A message
tells the line it is about.

## Main definitions

* `LivingDocs.Corpus.Holds` — an entity is in the set of its kind.
* `LivingDocs.Corpus.messages` — the messages about malformed blocks of a file.

## Main results

* `LivingDocs.Corpus.holds_ofLines_iff`, `LivingDocs.Corpus.errors_ofLines` — the content of the
  corpus of a file.
* `LivingDocs.Corpus.errorMessage_number_inj` — a message tells the line it is about.
-/

set_option autoImplicit false

namespace LivingDocs.Corpus

open Block

/-- **An entity is in the set of its kind.** -/
def Holds (corpus : Corpus) : Entity → Prop
  | .ofComponent c => c ∈ corpus.components
  | .ofExample e => e ∈ corpus.examples
  | .ofVariable v => v ∈ corpus.vars
  | .ofCrosscut c => c ∈ corpus.crosscuts
  | .ofJourney j => j ∈ corpus.journeys

@[simp] lemma not_holds_empty (x : Entity) : ¬ Holds ∅ x := by
  cases x <;> exact OrderedSet.not_mem_empty _

@[simp] lemma holds_insert {corpus : Corpus} {entity x : Entity} :
    (corpus.insert entity).Holds x ↔ x = entity ∨ corpus.Holds x := by
  cases entity <;> cases x <;> simp [Corpus.insert, Holds]

@[simp] lemma holds_report {corpus : Corpus} {message : String} {x : Entity} :
    (corpus.report message).Holds x ↔ corpus.Holds x := by
  cases x <;> rfl

/-- A union of corpora holds what one of them does. -/
@[simp] lemma holds_merge {a b : Corpus} {x : Entity} :
    (a.merge b).Holds x ↔ a.Holds x ∨ b.Holds x := by
  cases x <;> exact OrderedSet.mem_union

@[simp] lemma errors_insert (corpus : Corpus) (entity : Entity) :
    (corpus.insert entity).errors = corpus.errors := by
  cases entity <;> rfl

@[simp] lemma errors_report (corpus : Corpus) (message : String) :
    (corpus.report message).errors = corpus.errors ++ [message] := rfl

/-- The messages about malformed blocks of a file. -/
def messages (file : String) (faults : List (Nat × Block.Error)) : List String :=
  faults.map fun f => errorMessage file f.1 f.2

/-! ## The corpus of a file -/

section OfLines

variable {file : String} {corpus : Corpus} {x : Entity}

/-- One step adds the entity of the block that it has read. -/
lemma holds_record_iff {step : Step} :
    (corpus.record file step).Holds x ↔
      (∃ entity, step.entity? = some entity ∧ x = entity.stamp file) ∨ corpus.Holds x := by
  unfold record Step.entity?
  split
  · next h => simp [h]
  · next h => simp [h]
  · next h => simp [h]

/-- One step adds the message about the malformed block that it has met. -/
lemma errors_record (step : Step) :
    (corpus.record file step).errors =
      corpus.errors ++ (step.fault?.map fun f => errorMessage file f.1 f.2).toList := by
  unfold record Step.fault?
  split
  · next h => simp [h]
  · next h => simp [h]
  · next h => simp [h]

/-- **A corpus of a file holds the entities of all blocks that were read**, stamped with the
file. -/
theorem holds_ofLines_iff {grammar : Grammar} {lines : List String} :
    (ofLines grammar file lines).Holds x ↔
      ∃ entity ∈ entities grammar 1 lines, x = entity.stamp file := by
  have hfold : ∀ (run : List Step) (corpus : Corpus), (run.foldl (record file) corpus).Holds x ↔
      (∃ entity ∈ run.filterMap Step.entity?, x = entity.stamp file) ∨ corpus.Holds x := by
    intro run
    induction run with
    | nil => simp
    | cons step run ih =>
      intro corpus
      rw [List.foldl_cons, ih, holds_record_iff, List.filterMap_cons]
      cases step.entity? with
      | none => simp
      | some entity => simp [or_left_comm, or_assoc]
  rw [ofLines, hfold, or_iff_left (not_holds_empty x)]
  rfl

/-- **A corpus of a file has one message for each malformed block**, in the order of lines. -/
theorem errors_ofLines (grammar : Grammar) (file : String) (lines : List String) :
    (ofLines grammar file lines).errors = messages file (faults grammar 1 lines) := by
  have hfold : ∀ (run : List Step) (corpus : Corpus), (run.foldl (record file) corpus).errors =
      corpus.errors ++ messages file (run.filterMap Step.fault?) := by
    intro run
    induction run with
    | nil => simp [messages]
    | cons step run ih =>
      intro corpus
      rw [List.foldl_cons, ih, errors_record, List.filterMap_cons, List.append_assoc]
      cases step.fault? <;> simp [messages]
  rw [ofLines, hfold]
  rfl

end OfLines

/-! ## Messages -/

/-- A number can be read off its digits and the colon behind them. -/
lemma eq_of_repr_append_colon {a b : Nat} {s t : List Char}
    (h : (Nat.repr a).toList ++ ':' :: s = (Nat.repr b).toList ++ ':' :: t) : a = b := by
  have hdigits : ∀ n : Nat, ∀ c ∈ Nat.toDigits 10 n, (c != ':') = true := by
    intro n c hc
    have hdigit := Nat.isDigit_of_mem_toDigits (by decide) (by decide) hc
    rw [bne_iff_ne]
    rintro rfl
    exact absurd hdigit (by decide)
  -- the digits end where the first colon stands
  have htake : ∀ (n : Nat) (rest : List Char),
      (Nat.toDigits 10 n ++ ':' :: rest).takeWhile (· != ':') = Nat.toDigits 10 n := by
    intro n rest
    rw [List.takeWhile_append_of_pos (hdigits n)]
    simp
  rw [Nat.toList_repr, Nat.toList_repr] at h
  have hlist : Nat.toDigits 10 a = Nat.toDigits 10 b := by rw [← htake a s, h, htake b t]
  calc a = Nat.ofDigitChars 10 (Nat.toDigits 10 a) 0 :=
        (Nat.ofDigitChars_toDigits (by decide) (by decide)).symm
    _ = Nat.ofDigitChars 10 (Nat.toDigits 10 b) 0 := by rw [hlist]
    _ = b := Nat.ofDigitChars_toDigits (by decide) (by decide)

/-- **A message tells the line it is about.** -/
theorem errorMessage_number_inj {file : String} {a b : Nat} {e f : Block.Error}
    (h : errorMessage file a e = errorMessage file b f) : a = b := by
  have hlist := congrArg String.toList h
  simp only [errorMessage, toString, String.toList_append, List.append_assoc] at hlist
  exact eq_of_repr_append_colon (List.append_cancel_left (List.append_cancel_left hlist))

end LivingDocs.Corpus
