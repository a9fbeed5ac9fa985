import LivingDocs.Collation.Basic
import Mathlib.Data.List.Induction
import Mathlib.Tactic.Lemma

/-!
# Groups of one name

Grouping examples by name is one pass that puts each example at the end of the group of its name.
What it yields needs no pass to be described: there is one group for each name, in the order in
which the names are first seen, and it holds the examples of that name in their order.

## Main definitions

* `LivingDocs.Collation.examplesNamed` — the examples of one name.
* `LivingDocs.Collation.firstSeenNames` — the names of examples, each where it is first seen.

## Main results

* `LivingDocs.Collation.groupByName_eq` — the groups are the examples of each name.
* `LivingDocs.Collation.nodup_firstSeenNames` — no name stands twice.
-/

set_option autoImplicit false

namespace LivingDocs.Collation

/-- The examples of one name, in order. -/
def examplesNamed (name : String) (examples : List Example) : List Example :=
  examples.filter fun e => e.name = name

/-- The names of examples, each once and where it is first seen. -/
def firstSeenNames (examples : List Example) : List String :=
  (examples.map Example.name).eraseDups

@[simp] lemma mem_examplesNamed {name : String} {examples : List Example} {e : Example} :
    e ∈ examplesNamed name examples ↔ e ∈ examples ∧ e.name = name := by
  simp [examplesNamed]

@[simp] lemma mem_firstSeenNames {name : String} {examples : List Example} :
    name ∈ firstSeenNames examples ↔ ∃ e ∈ examples, e.name = name := by
  simp [firstSeenNames]

/-- A name that is seen has examples. -/
lemma examplesNamed_ne_nil {name : String} {examples : List Example}
    (h : name ∈ firstSeenNames examples) : examplesNamed name examples ≠ [] := by
  obtain ⟨e, he, hname⟩ := mem_firstSeenNames.mp h
  exact List.ne_nil_of_mem (mem_examplesNamed.mpr ⟨he, hname⟩)

/-- One more name is first seen at the end, or it has been seen before. -/
lemma firstSeenNames_concat (examples : List Example) (e : Example) :
    firstSeenNames (examples ++ [e]) =
      if e.name ∈ firstSeenNames examples then firstSeenNames examples
      else firstSeenNames examples ++ [e.name] := by
  have hmem : e.name ∈ firstSeenNames examples ↔ e.name ∈ examples.map Example.name := by
    rw [firstSeenNames, List.mem_eraseDups]
  rw [if_congr hmem rfl rfl, firstSeenNames, firstSeenNames, List.map_append,
    List.eraseDups_append]
  split
  · next h =>
    have hold : [e.name].removeAll (examples.map Example.name) = [] :=
      List.filter_eq_nil_iff.mpr (by simpa using h)
    rw [List.map_singleton, hold, List.eraseDups_nil, List.append_nil]
  · next h =>
    have hnew : [e.name].removeAll (examples.map Example.name) = [e.name] :=
      List.filter_eq_self.mpr (by simpa using h)
    rw [List.map_singleton, hnew]
    rfl

/-- **No name stands twice** among the names that are seen. -/
theorem nodup_firstSeenNames (examples : List Example) : (firstSeenNames examples).Nodup := by
  induction examples using List.reverseRecOn with
  | nil => exact List.nodup_nil
  | append_singleton examples e ih =>
    rw [firstSeenNames_concat]
    split
    · exact ih
    · next h => exact List.nodup_append.mpr ⟨ih, by simp, by grind⟩

/-- One more example is put into the groups of those before it. -/
lemma groupByName_concat (examples : List Example) (e : Example) :
    groupByName (examples ++ [e]) = addToGroup e (groupByName examples) := by
  rw [groupByName, List.foldl_append]
  rfl

/-- Adding to groups whose names do not hold that of the example opens a new group. -/
lemma addToGroup_of_not_mem {e : Example} {names : List String} {members : String → List Example}
    (h : e.name ∉ names) :
    addToGroup e (names.map fun n => (n, members n)) =
      (names.map fun n => (n, members n)) ++ [(e.name, [e])] := by
  induction names with
  | nil => rfl
  | cons n names ih =>
    have hn : n ≠ e.name := fun heq => h (heq ▸ List.mem_cons_self)
    have hnames : e.name ∉ names := fun hmem => h (List.mem_cons_of_mem n hmem)
    rw [List.map_cons, addToGroup, if_neg hn, ih hnames, List.cons_append]

/-- Adding to groups of distinct names one of which is that of the example extends that group. -/
lemma addToGroup_of_mem {e : Example} {names : List String} {members : String → List Example}
    (hnodup : names.Nodup) (h : e.name ∈ names) :
    addToGroup e (names.map fun n => (n, members n)) =
      names.map fun n => (n, members n ++ if e.name = n then [e] else []) := by
  induction names with
  | nil => cases h
  | cons n names ih =>
    obtain ⟨hfresh, hnames⟩ := List.nodup_cons.mp hnodup
    rw [List.map_cons, List.map_cons, addToGroup]
    by_cases hn : n = e.name
    · -- the group of the example comes first, and no later group has its name
      subst hn
      rw [if_pos rfl, if_pos rfl]
      refine congrArg _ (List.map_congr_left fun m hm => ?_)
      have hne : e.name ≠ m := fun heq => hfresh (heq ▸ hm)
      rw [if_neg hne, List.append_nil]
    · have hmem : e.name ∈ names := by
        rcases List.mem_cons.mp h with heq | hmem
        · exact absurd heq.symm hn
        · exact hmem
      rw [if_neg hn, if_neg (Ne.symm hn), List.append_nil, ih hnames hmem]

/-- **The groups are the examples of each name**, in the order in which the names are first seen.

**Proof sketch.** Induction on the examples from the end. The last example extends the group of its
name if that name has been seen before, and is a new group at the end otherwise; both are what the
description by names says of the longer list. -/
theorem groupByName_eq (examples : List Example) :
    groupByName examples =
      (firstSeenNames examples).map fun name => (name, examplesNamed name examples) := by
  induction examples using List.reverseRecOn with
  | nil => rfl
  | append_singleton examples e ih =>
    have hnamed : ∀ name, examplesNamed name (examples ++ [e]) =
        examplesNamed name examples ++ if e.name = name then [e] else [] := by
      intro name
      rw [examplesNamed, List.filter_append]
      by_cases hn : e.name = name <;> simp [examplesNamed, hn]
    rw [groupByName_concat, ih, firstSeenNames_concat]
    simp only [hnamed]
    split
    · next h => exact addToGroup_of_mem (nodup_firstSeenNames examples) h
    · next h =>
      rw [addToGroup_of_not_mem h, List.map_append]
      congr 1
      · refine List.map_congr_left fun m hm => ?_
        have hne : e.name ≠ m := fun heq => h (heq ▸ hm)
        rw [if_neg hne, List.append_nil]
      · have hnil : examplesNamed e.name examples = [] := by
          refine List.filter_eq_nil_iff.mpr fun x hx => ?_
          have hne : x.name ≠ e.name := fun heq => h (mem_firstSeenNames.mpr ⟨x, hx, heq⟩)
          simpa using hne
        simp [hnil]

end LivingDocs.Collation
