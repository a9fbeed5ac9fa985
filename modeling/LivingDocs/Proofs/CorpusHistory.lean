import LivingDocs.Proofs.Content
import LivingDocs.Proofs.EntityOrder
import LivingDocs.Proofs.Ordered
import Mathlib.Data.List.Induction
import Mathlib.Data.Set.Card
import Mathlib.Logic.Function.Basic

/-!
# Corpora over their whole history

Corpora are kept under names. In the course of time files are scanned into them, single entities are
inserted, one corpus is merged into another or into itself, and a corpus is emptied again. Whatever
has happened, each of them is at any time a set of what has come into it since it was last emptied:
the entities of each kind stand in strictly ascending order, and each of them is counted once.

## Main definitions

* `LivingDocs.Corpus.Operation` — what can be done to the corpora under their names.
* `LivingDocs.Corpus.after` — the corpora after a history of operations.
* `LivingDocs.Corpus.Received` — what has come into a corpus since it was last emptied.
* `LivingDocs.Corpus.Represents` — a corpus is a set of entities, each kind in its order.

## Main results

* `LivingDocs.Corpus.apply_of_ne`, `LivingDocs.Corpus.holds_apply_iff`,
  `LivingDocs.Corpus.received_concat_iff` — one operation.
* `LivingDocs.Corpus.holds_after_iff` — a whole history.
* `LivingDocs.Corpus.encard_holds` — a corpus counts the entities that it holds.
* `LivingDocs.Corpus.represents_after` — the orders of the entities are strict and total, and after
  any history each corpus is a set of what it has received.
-/

set_option autoImplicit false

namespace LivingDocs.Corpus

open Block (Grammar entities)

/-! ## Operations -/

/-- **What can be done to corpora that are kept under names.** -/
inductive Operation where
  /-- The corpus of a file is merged behind the one under the name. -/
  | scan (name : String) (grammar : Grammar) (file : String) (lines : List String)
  /-- The corpus of a file is merged in front of the one under the name. -/
  | scanBefore (name : String) (grammar : Grammar) (file : String) (lines : List String)
  /-- An entity is inserted as it is. -/
  | insert (name : String) (entity : Entity)
  /-- The corpus under another name, or under the same, is merged behind the one under the name. -/
  | merge (name source : String)
  /-- The corpus under the name is emptied. -/
  | clear (name : String)

/-- The corpora after one operation. -/
def Operation.apply (corpora : String → Corpus) : Operation → String → Corpus
  | scan name grammar file lines =>
    Function.update corpora name ((corpora name).merge (ofLines grammar file lines))
  | scanBefore name grammar file lines =>
    Function.update corpora name ((ofLines grammar file lines).merge (corpora name))
  | insert name entity => Function.update corpora name ((corpora name).insert entity)
  | merge name source => Function.update corpora name ((corpora name).merge (corpora source))
  | clear name => Function.update corpora name ∅

/-- **The corpora after a history of operations**; in the beginning all of them are empty. -/
def after (history : List Operation) : String → Corpus :=
  history.foldl Operation.apply fun _ => ∅

/-- **What has come into a corpus since it was last emptied**: it was scanned, inserted or merged
into it at some time, and the corpus has not been emptied later. What is merged is what the source
has received by then. -/
inductive Received : List Operation → String → Entity → Prop
  | scanned {before later : List Operation} {name : String} {grammar : Grammar} {file : String}
      {lines : List String} {entity : Entity} (hread : entity ∈ entities grammar 1 lines)
      (hlater : Operation.clear name ∉ later) :
      Received (before ++ .scan name grammar file lines :: later) name (entity.stamp file)
  | scannedBefore {before later : List Operation} {name : String} {grammar : Grammar}
      {file : String} {lines : List String} {entity : Entity}
      (hread : entity ∈ entities grammar 1 lines) (hlater : Operation.clear name ∉ later) :
      Received (before ++ .scanBefore name grammar file lines :: later) name (entity.stamp file)
  | inserted {before later : List Operation} {name : String} {entity : Entity}
      (hlater : Operation.clear name ∉ later) :
      Received (before ++ .insert name entity :: later) name entity
  | merged {before later : List Operation} {name source : String} {entity : Entity}
      (hsource : Received before source entity) (hlater : Operation.clear name ∉ later) :
      Received (before ++ .merge name source :: later) name entity

/-- **A corpus is a set of entities**, each kind in its order. -/
structure Represents (corpus : Corpus) (received : Entity → Prop) : Prop where
  components : Ascending corpus.components.toList
  examples : Ascending corpus.examples.toList
  vars : Ascending corpus.vars.toList
  crosscuts : Ascending corpus.crosscuts.toList
  journeys : Ascending corpus.journeys.toList
  /-- The sets of the five kinds have exactly the entities that were received. -/
  holds : ∀ x, corpus.Holds x ↔ received x
  /-- The count is the number of different entities that were received. -/
  count : {x | received x}.encard = corpus.entityCount

/-! ## One operation -/

/-- What an operation brings into the corpus under a name, given what the corpora hold before. -/
def Operation.Brings (held : String → Entity → Prop) : Operation → String → Entity → Prop
  | scan target grammar file lines, name, x =>
    name = target ∧ ∃ entity ∈ entities grammar 1 lines, x = entity.stamp file
  | scanBefore target grammar file lines, name, x =>
    name = target ∧ ∃ entity ∈ entities grammar 1 lines, x = entity.stamp file
  | insert target entity, name, x => name = target ∧ x = entity
  | merge target source, name, x => name = target ∧ held source x
  | clear _, _, _ => False

/-- The name of the corpus that an operation is about. -/
def Operation.target : Operation → String
  | scan name _ _ _ => name
  | scanBefore name _ _ _ => name
  | insert name _ => name
  | merge name _ => name
  | clear name => name

/-- **An operation leaves the corpora under all other names alone.** -/
lemma apply_of_ne {corpora : String → Corpus} {operation : Operation} {name : String}
    (h : name ≠ operation.target) : operation.apply corpora name = corpora name := by
  cases operation <;> exact Function.update_of_ne h _ _

/-- An operation brings nothing into the corpora under other names. -/
lemma not_brings_of_ne {held : String → Entity → Prop} {operation : Operation} {name : String}
    {x : Entity} (h : name ≠ operation.target) : ¬ operation.Brings held name x := by
  intro hbrings
  cases operation with
  | scan => exact h hbrings.1
  | scanBefore => exact h hbrings.1
  | insert => exact h hbrings.1
  | merge => exact h hbrings.1
  | clear => exact hbrings

/-- **After one operation** a corpus holds what the operation has brought into it, and what it held
before unless it has just been emptied. -/
lemma holds_apply_iff (corpora : String → Corpus) (operation : Operation) {name : String}
    {x : Entity} :
    (operation.apply corpora name).Holds x ↔
      operation.Brings (fun n => (corpora n).Holds) name x ∨
        (corpora name).Holds x ∧ operation ≠ .clear name := by
  by_cases hname : name = operation.target
  · subst hname
    cases operation with
    | scan name grammar file lines =>
      simp [Operation.apply, Operation.target, Operation.Brings, holds_ofLines_iff, or_comm]
    | scanBefore name grammar file lines =>
      simp [Operation.apply, Operation.target, Operation.Brings, holds_ofLines_iff]
    | insert name entity => simp [Operation.apply, Operation.target, Operation.Brings]
    | merge name source => simp [Operation.apply, Operation.target, Operation.Brings, or_comm]
    | clear name => simp [Operation.apply, Operation.target, Operation.Brings]
  · have hkept : operation ≠ .clear name := by
      rintro rfl
      exact hname rfl
    simp only [apply_of_ne hname, not_brings_of_ne hname, hkept, false_or, ne_eq,
      not_false_eq_true, and_true]

/-- What was received was brought by some operation, and has not been emptied out later. -/
lemma received_iff {history : List Operation} {name : String} {x : Entity} :
    Received history name x ↔
      ∃ before operation later, history = before ++ operation :: later ∧
        operation.Brings (Received before) name x ∧ Operation.clear name ∉ later := by
  constructor
  · rintro (⟨hread, hlater⟩ | ⟨hread, hlater⟩ | ⟨hlater⟩ | ⟨hsource, hlater⟩)
    · exact ⟨_, _, _, rfl, ⟨rfl, _, hread, rfl⟩, hlater⟩
    · exact ⟨_, _, _, rfl, ⟨rfl, _, hread, rfl⟩, hlater⟩
    · exact ⟨_, _, _, rfl, ⟨rfl, rfl⟩, hlater⟩
    · exact ⟨_, _, _, rfl, ⟨rfl, hsource⟩, hlater⟩
  · rintro ⟨before, operation, later, rfl, hbrings, hlater⟩
    cases operation with
    | scan target grammar file lines =>
      obtain ⟨rfl, entity, hread, rfl⟩ := hbrings
      exact .scanned hread hlater
    | scanBefore target grammar file lines =>
      obtain ⟨rfl, entity, hread, rfl⟩ := hbrings
      exact .scannedBefore hread hlater
    | insert target entity =>
      obtain ⟨rfl, rfl⟩ := hbrings
      exact .inserted hlater
    | merge target source =>
      obtain ⟨rfl, hsource⟩ := hbrings
      exact .merged hsource hlater
    | clear target => exact absurd hbrings id

/-- **With one more operation** a corpus has received what the operation has brought into it, and
what it had received before unless it has just been emptied.

**Proof sketch.** What was received was brought by the last operation, or by an earlier one and then
the last one is among the later ones that have not emptied the corpus. -/
lemma received_concat_iff {history : List Operation} {operation : Operation} {name : String}
    {x : Entity} :
    Received (history ++ [operation]) name x ↔
      operation.Brings (Received history) name x ∨
        Received history name x ∧ operation ≠ .clear name := by
  constructor
  · intro h
    obtain ⟨before, source, later, hsplit, hbrings, hlater⟩ := received_iff.mp h
    rcases List.eq_nil_or_concat later with rfl | ⟨later, last, rfl⟩
    · obtain ⟨rfl, hlast⟩ := List.append_inj' hsplit rfl
      obtain rfl := List.singleton_inj.mp hlast
      exact .inl hbrings
    · rw [List.concat_eq_append, ← List.cons_append, ← List.append_assoc] at hsplit
      obtain ⟨rfl, hlast⟩ := List.append_inj' hsplit rfl
      obtain rfl := List.singleton_inj.mp hlast
      rw [List.concat_eq_append, List.mem_append, not_or, List.mem_singleton] at hlater
      exact .inr ⟨received_iff.mpr ⟨before, source, later, rfl, hbrings, hlater.1⟩,
        Ne.symm hlater.2⟩
  · rintro (hbrings | ⟨hreceived, hkept⟩)
    · exact received_iff.mpr ⟨history, operation, [], rfl, hbrings, List.not_mem_nil⟩
    · obtain ⟨before, source, later, rfl, hbrings, hlater⟩ := received_iff.mp hreceived
      refine received_iff.mpr ⟨before, source, later ++ [operation], by simp, hbrings, ?_⟩
      rw [List.mem_append, not_or, List.mem_singleton]
      exact ⟨hlater, Ne.symm hkept⟩

/-! ## A whole history -/

/-- **After any history a corpus holds what it has received.**

**Proof sketch.** Induction on the history from the end. One more operation changes what the corpora
hold in the same way as what they have received. -/
lemma holds_after_iff (history : List Operation) {name : String} {x : Entity} :
    (after history name).Holds x ↔ Received history name x := by
  induction history using List.reverseRecOn generalizing name x with
  | nil =>
    have hnothing : ¬ Received [] name x := by
      rw [received_iff]
      rintro ⟨before, operation, later, hsplit, -⟩
      simp at hsplit
    exact iff_of_false (not_holds_empty x) hnothing
  | append_singleton history operation ih =>
    have hstep : after (history ++ [operation]) = operation.apply (after history) := by
      rw [after, List.foldl_append]
      rfl
    have hheld : (fun n => (after history n).Holds) = Received history := by
      funext n y
      exact propext ih
    rw [hstep, holds_apply_iff, received_concat_iff, hheld, ih]

/-! ## The number of entities -/

/-- The entities of a corpus, kind by kind. -/
def listed (corpus : Corpus) : List Entity :=
  corpus.components.toList.map .ofComponent ++ (corpus.examples.toList.map .ofExample ++
    (corpus.vars.toList.map .ofVariable ++ (corpus.crosscuts.toList.map .ofCrosscut ++
      corpus.journeys.toList.map .ofJourney)))

@[simp] lemma mem_listed {corpus : Corpus} {x : Entity} : x ∈ corpus.listed ↔ corpus.Holds x := by
  cases x <;> simp [listed, Holds, OrderedSet.mem_def]

/-- Each entity is listed once. -/
lemma nodup_listed (corpus : Corpus) : corpus.listed.Nodup := by
  have hkind : ∀ {α : Type} [Ord α] [Std.ReflOrd α] (s : OrderedSet α) (of : α → Entity),
      Function.Injective of → (s.toList.map of).Nodup :=
    fun s of hof => s.ascending.nodup.map hof
  -- entities of different kinds are different
  simp only [listed, List.nodup_append]
  refine ⟨hkind corpus.components _ fun _ _ => Entity.ofComponent.inj,
    ⟨hkind corpus.examples _ fun _ _ => Entity.ofExample.inj,
      ⟨hkind corpus.vars _ fun _ _ => Entity.ofVariable.inj,
        ⟨hkind corpus.crosscuts _ fun _ _ => Entity.ofCrosscut.inj,
          hkind corpus.journeys _ fun _ _ => Entity.ofJourney.inj, ?_⟩, ?_⟩, ?_⟩, ?_⟩
  all_goals simp [or_imp, forall_and]

/-- **A corpus counts the entities that it holds.** -/
lemma encard_holds (corpus : Corpus) : {x | corpus.Holds x}.encard = corpus.entityCount := by
  have hset : {x | corpus.Holds x} = (corpus.listed.toFinset : Set Entity) := by
    ext x
    simp
  have hlength : corpus.listed.length = corpus.entityCount := by
    simp only [listed, entityCount, OrderedSet.size, List.length_append, List.length_map]
    omega
  rw [hset, Set.encard_coe_eq_coe_finsetCard, List.toFinset_card_of_nodup (nodup_listed corpus),
    hlength]

/-- **Corpora over their whole history.** The orders of the five kinds of entities compare field by
field, are strict and total, and take no two entities for the same. After any history of operations,
each corpus has the entities of each kind in strictly ascending order, holds exactly what has come
into it since it was last emptied, and counts each of these entities once. -/
theorem represents_after :
    (StrictlyOrderedBy Component.key ∧ StrictlyOrderedBy Example.key ∧
      StrictlyOrderedBy Variable.key ∧ StrictlyOrderedBy Crosscut.key ∧
      StrictlyOrderedBy Journey.key) ∧
    ∀ (history : List Operation) (name : String),
      (after history name).Represents (Received history name) := by
  refine ⟨⟨Component.strictlyOrderedBy_key, Example.strictlyOrderedBy_key,
    Variable.strictlyOrderedBy_key, Crosscut.strictlyOrderedBy_key,
    Journey.strictlyOrderedBy_key⟩, fun history name => ?_⟩
  have hcount := encard_holds (after history name)
  simp only [holds_after_iff] at hcount
  exact ⟨OrderedSet.ascending _, OrderedSet.ascending _, OrderedSet.ascending _,
    OrderedSet.ascending _, OrderedSet.ascending _, fun x => holds_after_iff history, hcount⟩

end LivingDocs.Corpus
