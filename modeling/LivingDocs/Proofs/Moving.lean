import LivingDocs.Proofs.Content
import LivingDocs.Proofs.Ordered

/-!
# The same lines further down

What is read does not depend on the number of the first line, except that every place is counted
from there. So the run through lines that stand further down is the run through them, moved down.

## Main definitions

* `LivingDocs.Entity.moveDown`, `LivingDocs.Block.Step.moveDown` — with so many lines more above.
* `LivingDocs.Corpus.moveDown` — all entities of a corpus, with so many lines more above.

## Main results

* `LivingDocs.Block.steps_add` — the run through the same lines further down.
* `LivingDocs.Block.entities_add`, `LivingDocs.Block.faults_add` — what that run finds.
-/

set_option autoImplicit false

namespace LivingDocs

/-- The place with `k` lines more above it. -/
def Location.moveDown (k : Nat) (location : Location) : Location :=
  { location with line := location.line + k }

namespace Entity

/-- The entity with `k` lines more above it. -/
def moveDown (k : Nat) : Entity → Entity
  | ofComponent c => ofComponent { c with location := c.location.moveDown k }
  | ofExample e => ofExample { e with location := e.location.moveDown k }
  | ofVariable v => ofVariable { v with location := v.location.moveDown k }
  | ofCrosscut c => ofCrosscut { c with location := c.location.moveDown k }
  | ofJourney j => ofJourney { j with location := j.location.moveDown k }

/-- It does not matter whether the file or the line of an entity is settled first. -/
lemma stamp_moveDown (k : Nat) (entity : Entity) (file : String) :
    (entity.moveDown k).stamp file = (entity.stamp file).moveDown k := by
  cases entity <;> rfl

end Entity

namespace Block

variable {grammar : Grammar} {keyword line : String} {number : Nat} {lines : List String}

/-- What was read, with `k` lines more above it. -/
def Reading.moveDown (k : Nat) (reading : Reading) : Reading :=
  { reading with entity := reading.entity.map (Entity.moveDown k) }

/-- The step with `k` lines more above it. -/
def Step.moveDown (k : Nat) (step : Step) : Step where
  number := step.number + k
  result := step.result.map (Reading.moveDown k)

/-! ## One block -/

/-- A value that is changed at the end of a computation is changed at the end of its last part. -/
lemma bind_eq_map_bind {ε α β : Type} {x : Except ε α} {f g : α → Except ε β} {h : β → β}
    (hfg : ∀ a, f a = (g a).map h) : (x >>= f) = (x >>= g).map h := by
  cases x with
  | error e => rfl
  | ok a => exact hfg a

/-- An example further down. -/
lemma readExample_add (k : Nat) (kind : ExampleKind) :
    readExample grammar keyword kind (number + k) line lines =
      (readExample grammar keyword kind number line lines).map (Reading.moveDown k) := by
  refine bind_eq_map_bind ?_
  rintro ⟨indent, category⟩
  cases lines with
  | nil => rfl
  | cons nameLine lines =>
    refine bind_eq_map_bind fun name => ?_
    refine bind_eq_map_bind ?_
    rintro ⟨values, m⟩
    refine bind_eq_map_bind ?_
    rintro ⟨tags, n⟩
    rfl

/-- A component further down. -/
lemma readComponent_add (k : Nat) :
    readComponent grammar keyword (number + k) line lines =
      (readComponent grammar keyword number line lines).map (Reading.moveDown k) := by
  refine bind_eq_map_bind fun name => ?_
  cases lines with
  | nil => rfl
  | cons descLine lines =>
    refine bind_eq_map_bind fun desc => ?_
    refine bind_eq_map_bind ?_
    rintro ⟨tags, n⟩
    exact bind_eq_map_bind fun features => rfl

/-- **The block at the start of the same lines further down.** -/
theorem read_add (k : Nat) :
    read grammar (number + k) lines = (read grammar number lines).map (Reading.moveDown k) := by
  cases lines with
  | nil => rfl
  | cons line lines =>
    rw [read, read]
    split
    · rfl
    · exact readExample_add k _
    · exact readComponent_add k
    · refine bind_eq_map_bind fun name => ?_
      exact bind_eq_map_bind fun values => rfl
    · exact bind_eq_map_bind fun name => rfl
    · refine bind_eq_map_bind fun name => ?_
      refine bind_eq_map_bind ?_
      rintro ⟨desc, n⟩
      rfl

/-! ## A run -/

/-- A step further down passes over as many lines. -/
lemma Step.further_moveDown (k : Nat) (step : Step) : (step.moveDown k).further = step.further := by
  obtain ⟨number, result⟩ := step
  cases result <;> rfl

/-- A step further down finds the same entity, moved down. -/
lemma Step.entity?_moveDown (k : Nat) (step : Step) :
    (step.moveDown k).entity? = step.entity?.map (Entity.moveDown k) := by
  obtain ⟨number, result⟩ := step
  cases result <;> rfl

/-- A step further down meets the same fault, moved down. -/
lemma Step.fault?_moveDown (k : Nat) (step : Step) :
    (step.moveDown k).fault? = step.fault?.map fun f => (f.1 + k, f.2) := by
  obtain ⟨number, result⟩ := step
  cases result <;> rfl

/-- **The run through the same lines further down** is the run through them, moved down. -/
theorem steps_add (grammar : Grammar) (number k : Nat) (lines : List String) :
    steps grammar (number + k) lines = (steps grammar number lines).map (Step.moveDown k) := by
  fun_induction steps grammar number lines with
  | case1 number => simp [steps]
  | case2 number line lines step ih =>
    have hstep : (⟨number + k, read grammar (number + k) (line :: lines)⟩ : Step) =
        step.moveDown k := by
      rw [read_add]
      rfl
    rw [steps, hstep, Step.further_moveDown, List.map_cons, ← ih]
    congr 2
    omega

/-- The entities of the same lines further down. -/
lemma entities_add (grammar : Grammar) (number k : Nat) (lines : List String) :
    entities grammar (number + k) lines =
      (entities grammar number lines).map (Entity.moveDown k) := by
  rw [entities, steps_add, List.filterMap_map, entities, List.map_filterMap]
  congr 1
  funext step
  exact Step.entity?_moveDown k step

/-- The malformed blocks of the same lines further down. -/
lemma faults_add (grammar : Grammar) (number k : Nat) (lines : List String) :
    faults grammar (number + k) lines =
      (faults grammar number lines).map fun f => (f.1 + k, f.2) := by
  rw [faults, steps_add, List.filterMap_map, faults, List.map_filterMap]
  congr 1
  funext step
  exact Step.fault?_moveDown k step

end Block

namespace Corpus

/-- **The corpus with `k` lines more above all its entities.** The messages are kept as they are. -/
def moveDown (k : Nat) (corpus : Corpus) : Corpus where
  components := corpus.components.image fun c => { c with location := c.location.moveDown k }
  examples := corpus.examples.image fun e => { e with location := e.location.moveDown k }
  vars := corpus.vars.image fun v => { v with location := v.location.moveDown k }
  crosscuts := corpus.crosscuts.image fun c => { c with location := c.location.moveDown k }
  journeys := corpus.journeys.image fun j => { j with location := j.location.moveDown k }
  errors := corpus.errors

/-- A corpus that is moved down holds what it held before, moved down. -/
lemma holds_moveDown_iff {k : Nat} {corpus : Corpus} {x : Entity} :
    (corpus.moveDown k).Holds x ↔ ∃ y, corpus.Holds y ∧ x = y.moveDown k := by
  constructor
  · intro h
    cases x with
    | ofComponent c =>
      obtain ⟨y, hy, rfl⟩ := OrderedSet.mem_image.mp h
      exact ⟨.ofComponent y, hy, rfl⟩
    | ofExample e =>
      obtain ⟨y, hy, rfl⟩ := OrderedSet.mem_image.mp h
      exact ⟨.ofExample y, hy, rfl⟩
    | ofVariable v =>
      obtain ⟨y, hy, rfl⟩ := OrderedSet.mem_image.mp h
      exact ⟨.ofVariable y, hy, rfl⟩
    | ofCrosscut c =>
      obtain ⟨y, hy, rfl⟩ := OrderedSet.mem_image.mp h
      exact ⟨.ofCrosscut y, hy, rfl⟩
    | ofJourney j =>
      obtain ⟨y, hy, rfl⟩ := OrderedSet.mem_image.mp h
      exact ⟨.ofJourney y, hy, rfl⟩
  · rintro ⟨y, hy, rfl⟩
    cases y <;> exact OrderedSet.mem_image.mpr ⟨_, hy, rfl⟩

end Corpus

end LivingDocs
