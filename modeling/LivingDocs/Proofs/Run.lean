import LivingDocs.Block.Reader
import Mathlib.Tactic.Lemma

/-!
# A run through a text

The steps through a text partition its lines. Each step starts at a line of its own and reads what
stands there; the lines that it passes over are not started at by any step, and every line is
started at or passed over.

## Main definitions

* `LivingDocs.Block.Step.PassesOver` — a line that a step takes up beyond its first.
* `LivingDocs.Block.entities`, `LivingDocs.Block.faults` — what a run has read, and the malformed
  blocks that it has met.

## Main results

* `LivingDocs.Block.exists_read_of_mem_steps` — what a step reads.
* `LivingDocs.Block.exists_start_or_passesOver` — no line is left out.
* `LivingDocs.Block.not_passesOver_of_mem_steps` — no line is taken up twice.
-/

set_option autoImplicit false

namespace LivingDocs.Block

variable {grammar : Grammar} {number : Nat} {lines : List String} {step other : Step}

/-- The step takes up the line with the given number and does not start there. -/
def Step.PassesOver (step : Step) (number : Nat) : Prop :=
  step.number < number ∧ number ≤ step.number + step.further

/-- The entity of the block that a step has read. -/
def Step.entity? (step : Step) : Option Entity :=
  match step.result with
  | .ok reading => reading.entity
  | .error _ => none

/-- **The entities of a text**, in the order of their blocks. -/
def entities (grammar : Grammar) (number : Nat) (lines : List String) : List Entity :=
  (steps grammar number lines).filterMap Step.entity?

/-- The malformed block that a step has met, with the number of its line. -/
def Step.fault? (step : Step) : Option (Nat × Error) :=
  match step.result with
  | .ok _ => none
  | .error error => some (step.number, error)

/-- **The malformed blocks of a text**, with the numbers of their lines, in order. -/
def faults (grammar : Grammar) (number : Nat) (lines : List String) : List (Nat × Error) :=
  (steps grammar number lines).filterMap Step.fault?

/-- **A step reads what stands where it starts**, and it starts at one of the lines.

**Proof sketch.** Induction along the steps. The first step starts at the first line, and a step of
the rest starts at a line of the rest, which is a line behind all those passed over. -/
theorem exists_read_of_mem_steps (h : step ∈ steps grammar number lines) :
    ∃ i < lines.length, step.number = number + i ∧
      step.result = read grammar (number + i) (lines.drop i) := by
  fun_induction steps grammar number lines with
  | case1 => cases h
  | case2 number line lines first ih =>
    rcases List.mem_cons.mp h with rfl | h
    · exact ⟨0, by simp, rfl, rfl⟩
    · obtain ⟨i, hi, hnumber, hresult⟩ := ih h
      rw [List.length_drop] at hi
      refine ⟨1 + first.further + i, by simp only [List.length_cons]; omega, by omega, ?_⟩
      rw [hresult, List.drop_drop, Nat.add_assoc number, Nat.add_assoc number,
        show 1 + first.further + i = first.further + i + 1 by omega, List.drop_succ_cons]

/-- No step starts before the first line. -/
lemma le_number_of_mem_steps (h : step ∈ steps grammar number lines) : number ≤ step.number := by
  obtain ⟨i, -, hnumber, -⟩ := exists_read_of_mem_steps h
  omega

/-- **No line is left out**: each is started at or passed over. -/
theorem exists_start_or_passesOver (i : Nat) (hi : i < lines.length) :
    (∃ step ∈ steps grammar number lines, step.number = number + i) ∨
      ∃ step ∈ steps grammar number lines, step.PassesOver (number + i) := by
  fun_induction steps grammar number lines generalizing i with
  | case1 => cases hi
  | case2 number line lines first ih =>
    have hfirst : first.number = number := rfl
    rcases Nat.eq_zero_or_pos i with rfl | hpos
    · exact .inl ⟨first, List.mem_cons_self, rfl⟩
    by_cases hover : i ≤ first.further
    · exact .inr ⟨first, List.mem_cons_self, by omega, by omega⟩
    -- the line is one of those that the later steps go through
    obtain ⟨j, rfl⟩ : ∃ j, i = 1 + first.further + j := ⟨i - 1 - first.further, by omega⟩
    have hj : j < (lines.drop first.further).length := by
      rw [List.length_drop]
      simp only [List.length_cons] at hi
      omega
    rw [show number + (1 + first.further + j) = number + 1 + first.further + j by omega]
    rcases ih j hj with ⟨step, hmem, hstart⟩ | ⟨step, hmem, hover⟩
    · exact .inl ⟨step, List.mem_cons_of_mem first hmem, hstart⟩
    · exact .inr ⟨step, List.mem_cons_of_mem first hmem, hover⟩

/-- **No line is taken up twice**: where a step starts, no step passes over. -/
theorem not_passesOver_of_mem_steps (h : step ∈ steps grammar number lines)
    (hother : other ∈ steps grammar number lines) : ¬ other.PassesOver step.number := by
  rintro ⟨hlt, hle⟩
  fun_induction steps grammar number lines with
  | case1 => cases h
  | case2 number line lines first ih =>
    have hfirst : first.number = number := rfl
    rcases List.mem_cons.mp h with rfl | h <;> rcases List.mem_cons.mp hother with rfl | hother
    · omega
    · have hlater := le_number_of_mem_steps hother
      omega
    · have hlater := le_number_of_mem_steps h
      omega
    · exact ih h hother

end LivingDocs.Block
