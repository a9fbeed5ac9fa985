import LivingDocs.Proofs.BlockShape
import LivingDocs.Proofs.Content

/-!
# What becomes of a line with a block keyword

A line with a block keyword declares something or is reported, unless a block above it has absorbed
it. An example absorbs the line below its keyword line as its name, whatever stands on it. Any
other line that is absorbed mentions a word that introduces a part of a block, or a bullet.

## Main definitions

* `LivingDocs.Corpus.Accounts` — lines that a corpus tells something about.
* `LivingDocs.Corpus.Absorbed` — lines that belong to a block further up.

## Main results

* `LivingDocs.Corpus.accounts_iff_not_absorbed` — a keyword line is accounted for exactly if no
  block has absorbed it.
* `LivingDocs.Corpus.not_accounts_crosscut_below_example` — not every keyword line is accounted for.
-/

set_option autoImplicit false

namespace LivingDocs

namespace Block

variable {grammar : Grammar} {number consumed : Nat} {entity : Entity} {line : String}
  {lines : List String} {step : Step}

/-- What was read is declared at the line where reading started. -/
lemma location_of_read (h : read grammar number lines = .ok ⟨consumed, some entity⟩) :
    entity.location = .unstamped number := by
  cases lines with
  | nil => cases h
  | cons line lines =>
    rcases nothing_or_stands_of_read h with hnothing | ⟨_, _, heq, hlocation, -, -⟩
    · cases hnothing
    · cases heq
      exact hlocation

/-- What a step has found was read where the step starts. -/
lemma exists_read_of_entity? (h : step ∈ steps grammar number lines)
    (hentity : step.entity? = some entity) :
    ∃ i, step.number = number + i ∧ ∃ consumed, step.result = .ok ⟨consumed, some entity⟩ ∧
      read grammar (number + i) (lines.drop i) = .ok ⟨consumed, some entity⟩ := by
  obtain ⟨i, -, hnumber, hresult⟩ := exists_read_of_mem_steps h
  unfold Step.entity? at hentity
  split at hentity
  · next reading hok =>
    obtain ⟨consumed, found⟩ := reading
    obtain rfl : found = some entity := hentity
    exact ⟨i, hnumber, consumed, hok, hresult ▸ hok⟩
  · cases hentity

/-- **What a step has found is declared where the step starts.** -/
lemma location_of_entity? (h : step ∈ steps grammar number lines)
    (hentity : step.entity? = some entity) : entity.location = .unstamped step.number := by
  obtain ⟨i, hnumber, consumed, -, hread⟩ := exists_read_of_entity? h hentity
  rw [location_of_read hread, hnumber]

/-- A step that starts at a keyword line has found something there, good or bad. -/
lemma entity?_or_fault?_of_keyword {i : Nat} (h : step ∈ steps grammar number lines)
    (hnumber : step.number = number + i) (hline : lines[i]? = some line)
    (hkeyword : grammar.match? line ≠ none) :
    (∃ entity, step.entity? = some entity) ∨ ∃ error, step.fault? = some (number + i, error) := by
  obtain ⟨j, hj, hstart, hresult⟩ := exists_read_of_mem_steps h
  obtain rfl : j = i := by omega
  have hget : lines[j] = line := Option.some.inj ((List.getElem?_eq_getElem hj).symm.trans hline)
  rw [List.drop_eq_getElem_cons hj, hget] at hresult
  cases hread : step.result with
  | error error =>
    right
    exact ⟨error, by rw [Step.fault?, hread, hnumber]⟩
  | ok reading =>
    left
    obtain ⟨entity, _, rfl, -, -, -⟩ := read_shape hkeyword (hresult ▸ hread)
    exact ⟨entity, by rw [Step.entity?, hread]⟩

/-- **A step passes over the lines of a block that it has read**: the line of an example's name, and
lines that continue the block. -/
lemma exists_entity?_of_passesOver {i : Nat} (h : step ∈ steps grammar number lines)
    (hover : step.PassesOver (number + i)) :
    ∃ j consumed entity, step.number = number + j ∧ step.entity? = some entity ∧
      read grammar (number + j) (lines.drop j) = .ok ⟨consumed, some entity⟩ ∧
      j < i ∧ i < j + consumed ∧
      (i = j + entity.nameLines ∨ ∃ line, lines[i]? = some line ∧ grammar.Continues line) := by
  obtain ⟨j, hj, hnumber, hresult⟩ := exists_read_of_mem_steps h
  obtain ⟨hlt, hle⟩ := hover
  unfold Step.further at hle
  split at hle
  · next reading hok =>
    have hread : read grammar (number + j) (lines.drop j) = .ok reading := hresult ▸ hok
    rw [List.drop_eq_getElem_cons hj] at hread
    rcases nothing_or_stands_of_read hread with rfl | ⟨entity, n, rfl, -, hname, hcontinued⟩
    · simp only [Reading.nothing] at hle
      omega
    simp only at hle
    refine ⟨j, _, entity, hnumber, by rw [Step.entity?, hok], hresult ▸ hok, by omega, by omega, ?_⟩
    -- the lines of the block are those of the name and then those that continue it
    by_cases hline : i ≤ j + entity.nameLines
    · left
      have hone : entity.nameLines ≤ 1 := by cases entity <;> simp [Entity.nameLines]
      omega
    · right
      obtain ⟨line, hget, hcontinues⟩ :=
        hcontinued.getElem? (show i - (j + 1 + entity.nameLines) < n by omega)
      rw [List.drop_drop, List.getElem?_drop] at hget
      exact ⟨line, by rw [← hget]; congr 1; omega, hcontinues⟩
  · omega

end Block

namespace Corpus

open Block

/-- **A line that a corpus tells something about**: an entity is declared there, or a message is
about it. -/
def Accounts (corpus : Corpus) (file : String) (number : Nat) : Prop :=
  (∃ entity, corpus.Holds entity ∧ entity.location = ⟨some file, number⟩) ∨
    ∃ error, errorMessage file number error ∈ corpus.errors

/-- **A line that a block further up has absorbed**, at a position counted from zero: what the
block declares is in the corpus, and the line is the one of its name or continues it. -/
def Absorbed (grammar : Grammar) (file : String) (lines : List String) (i : Nat) : Prop :=
  ∃ j consumed entity, readAt grammar lines j = .ok ⟨consumed, some entity⟩ ∧
    (ofLines grammar file lines).Holds (entity.stamp file) ∧ j < i ∧ i < j + consumed ∧
    (i = j + entity.nameLines ∨ ∃ line, lines[i]? = some line ∧ grammar.Continues line)

variable {grammar : Grammar} {file : String} {lines : List String} {i : Nat}

/-- A corpus holds what the steps through its file have found. -/
lemma holds_ofLines_iff_step {x : Entity} : (ofLines grammar file lines).Holds x ↔
    ∃ step ∈ steps grammar 1 lines, ∃ entity, step.entity? = some entity ∧
      x = entity.stamp file := by
  rw [holds_ofLines_iff]
  simp only [entities, List.mem_filterMap]
  constructor
  · rintro ⟨entity, ⟨step, hmem, hentity⟩, hx⟩
    exact ⟨step, hmem, entity, hentity, hx⟩
  · rintro ⟨step, hmem, entity, hentity, hx⟩
    exact ⟨entity, ⟨step, hmem, hentity⟩, hx⟩

/-- A line that is accounted for is one where a step starts. -/
lemma exists_step_of_accounts (h : (ofLines grammar file lines).Accounts file (1 + i)) :
    ∃ step ∈ steps grammar 1 lines, step.number = 1 + i := by
  rcases h with ⟨x, hx, hlocation⟩ | ⟨error, herror⟩
  · obtain ⟨step, hmem, entity, hentity, rfl⟩ := holds_ofLines_iff_step.mp hx
    refine ⟨step, hmem, ?_⟩
    rw [Entity.location_stamp, location_of_entity? hmem hentity] at hlocation
    exact congrArg Location.line hlocation
  · rw [errors_ofLines] at herror
    obtain ⟨⟨number, fault⟩, hfault, hmessage⟩ := List.mem_map.mp herror
    obtain ⟨step, hmem, hstep⟩ := List.mem_filterMap.mp hfault
    refine ⟨step, hmem, ?_⟩
    have hnumber : number = step.number := by
      unfold Step.fault? at hstep
      split at hstep
      · cases hstep
      · cases hstep
        rfl
    rw [← hnumber]
    exact errorMessage_number_inj hmessage

/-- A keyword line where a step starts is accounted for. -/
lemma accounts_of_step {step : Step} {line : String} (hmem : step ∈ steps grammar 1 lines)
    (hnumber : step.number = 1 + i) (hline : lines[i]? = some line)
    (hkeyword : grammar.match? line ≠ none) :
    (ofLines grammar file lines).Accounts file (1 + i) := by
  rcases entity?_or_fault?_of_keyword hmem hnumber hline hkeyword with
    ⟨entity, hentity⟩ | ⟨error, herror⟩
  · left
    refine ⟨entity.stamp file, holds_ofLines_iff_step.mpr ⟨step, hmem, entity, hentity, rfl⟩, ?_⟩
    rw [Entity.location_stamp, location_of_entity? hmem hentity, hnumber]
    rfl
  · right
    refine ⟨error, ?_⟩
    rw [errors_ofLines]
    exact List.mem_map.mpr ⟨_, List.mem_filterMap.mpr ⟨step, hmem, herror⟩, rfl⟩

/-- A line is absorbed exactly if some step passes over it. -/
lemma absorbed_iff_passesOver :
    Absorbed grammar file lines i ↔ ∃ step ∈ steps grammar 1 lines, step.PassesOver (1 + i) := by
  constructor
  · rintro ⟨j, consumed, entity, hread, hholds, hlt, hle, -⟩
    obtain ⟨step, hmem, found, hfound, hstamp⟩ := holds_ofLines_iff_step.mp hholds
    obtain ⟨k, hnumber, taken, hresult, hstep⟩ := exists_read_of_entity? hmem hfound
    -- the place of the entity tells which step has found it
    have hplace := congrArg (fun x => x.location.line) hstamp
    simp only [Entity.location_stamp, location_of_read hread, location_of_read hstep] at hplace
    simp only [Location.stamp, Location.unstamped] at hplace
    obtain rfl : k = j := by omega
    rw [readAt, Nat.add_comm, hstep] at hread
    cases hread
    refine ⟨step, hmem, by omega, ?_⟩
    simp only [Step.further, hresult]
    omega
  · rintro ⟨step, hmem, hover⟩
    obtain ⟨j, consumed, entity, -, hentity, hread, hlt, hle, hshape⟩ :=
      exists_entity?_of_passesOver hmem hover
    rw [Nat.add_comm] at hread
    exact ⟨j, consumed, entity, hread,
      holds_ofLines_iff_step.mpr ⟨step, hmem, entity, hentity, rfl⟩, hlt, hle, hshape⟩

/-- **A keyword line is accounted for exactly if no block further up has absorbed it.**

**Proof sketch.** Every line is started at or passed over by a step, and never both. A step that
starts at a keyword line finds an entity or a fault there; only the lines of a block that was read
are passed over. -/
theorem accounts_iff_not_absorbed (grammar : Grammar) (file : String) (lines : List String)
    (i : Nat) (line : String) (hline : lines[i]? = some line)
    (hkeyword : grammar.match? line ≠ none) :
    (ofLines grammar file lines).Accounts file (i + 1) ↔ ¬ Absorbed grammar file lines i := by
  rw [Nat.add_comm, absorbed_iff_passesOver]
  constructor
  · rintro haccounts ⟨other, hother, hover⟩
    obtain ⟨step, hmem, hnumber⟩ := exists_step_of_accounts haccounts
    rw [← hnumber] at hover
    exact not_passesOver_of_mem_steps hmem hother hover
  · intro hnot
    have hi : i < lines.length := (List.getElem?_eq_some_iff.mp hline).1
    rcases exists_start_or_passesOver i hi with ⟨step, hmem, hnumber⟩ | hover
    · exact accounts_of_step hmem hnumber hline hkeyword
    · exact absurd hover hnot

/-- An example without a name, and a crosscut directly below it. -/
def crosscutBelowExample : List String :=
  ["# aerial:example Login", "# aerial:cross-cut Audit log"]

/-- The example takes the keyword line of the crosscut for its name. -/
lemma ofLines_crosscutBelowExample :
    ofLines (.standard "aerial") "login" crosscutBelowExample =
      { components := ∅
        examples :=
          .ofList [⟨"aerial:cross-cut Audit log", "Login", ∅, ∅, .plain, ⟨some "login", 1⟩⟩]
        vars := ∅
        crosscuts := ∅
        journeys := ∅
        errors := [] } := by
  have hread : read (.standard "aerial") 1 crosscutBelowExample = .ok ⟨2, some (.ofExample
      ⟨"aerial:cross-cut Audit log", "Login", ∅, ∅, .plain, .unstamped 1⟩)⟩ := by
    decide +kernel
  rw [crosscutBelowExample] at hread ⊢
  rw [ofLines, steps, hread]
  simp only [Step.further, Nat.add_one_sub_one, List.drop_succ_cons, List.drop_nil, steps]
  rfl

/-- The line of the crosscut is accounted for unless the example has absorbed it. -/
theorem accounts_crosscutBelowExample_iff :
    crosscutBelowExample[1]? = some "# aerial:cross-cut Audit log" ∧
      (Grammar.standard "aerial").match? "# aerial:cross-cut Audit log" ≠ none ∧
      ((ofLines (.standard "aerial") "login" crosscutBelowExample).Accounts "login" 2 ↔
        ¬ Absorbed (.standard "aerial") "login" crosscutBelowExample 1) := by
  have hkeyword : (Grammar.standard "aerial").match? "# aerial:cross-cut Audit log" ≠ none := by
    decide +kernel
  exact ⟨rfl, hkeyword, accounts_iff_not_absorbed _ "login" crosscutBelowExample 1 _ rfl hkeyword⟩

/-- **Not every keyword line is accounted for**: the crosscut is neither declared nor reported. -/
theorem not_accounts_crosscut_below_example :
    crosscutBelowExample[1]? = some "# aerial:cross-cut Audit log" ∧
      (Grammar.standard "aerial").match? "# aerial:cross-cut Audit log" =
        some ("aerial:cross-cut", .ofCrosscut) ∧
      ¬ (ofLines (.standard "aerial") "login" crosscutBelowExample).Accounts "login" 2 := by
  refine ⟨rfl, by decide +kernel, ?_⟩
  rw [ofLines_crosscutBelowExample]
  rintro (⟨entity, hholds, hlocation⟩ | ⟨error, herror⟩)
  · cases entity with
    | ofExample e =>
      obtain rfl := List.mem_singleton.mp (OrderedSet.mem_ofList.mp hholds)
      exact absurd hlocation (by decide)
    | _ => cases hholds
  · cases herror

end Corpus

end LivingDocs
