import LivingDocs.Proofs.MergedGroup
import LivingDocs.Proofs.ReportLinks
import Mathlib.Algebra.Ring.Nat

/-!
# Every example stands somewhere

Examples of one name are put together, and what is put together is merged. On that way no example
gets lost and none is counted twice: the groups are the examples in another order, and the places in
a report are those of all examples, each under the name of its example.

## Main definitions

* `LivingDocs.Collation.Groups` — groups that hold each example once, under its name.
* `LivingDocs.Report.KeepsAll` — a report that has a place for each example, under its name.

## Main results

* `LivingDocs.Collation.pairwise_idxOf_firstSeenNames` — the names stand in the order in which they
  are first seen.
* `LivingDocs.Collation.flatMap_groupByName_perm` — the groups hold each example once.
* `LivingDocs.Collation.occurrences_kept` — neither grouping nor merging loses an example.
-/

set_option autoImplicit false

namespace LivingDocs

/-- **A report that has a place for each example.** -/
structure Report.KeepsAll (report : Report) (examples : List Example) : Prop where
  /-- There is one entry for each name, in the order in which the names are first seen. -/
  names : report.examples.map Report.ExampleEntry.name = Collation.firstSeenNames examples
  /-- The places of an entry are those of the examples of its name, in their order. -/
  places : ∀ entry ∈ report.examples, entry.places.map Report.Place.location =
    (Collation.examplesNamed entry.name examples).map Example.location
  /-- All entries taken together have as many places as there are examples. -/
  total : (report.examples.map fun entry => entry.places.length).sum = examples.length

namespace Collation

/-- **Groups that hold each example once**, under its name. -/
structure Groups (examples : List Example) (groups : List (String × List Example)) : Prop where
  /-- No two groups have the same name. -/
  distinct : (groups.map Prod.fst).Nodup
  /-- The names are those of the examples. -/
  names : ∀ name, name ∈ groups.map Prod.fst ↔ ∃ e ∈ examples, e.name = name
  /-- They stand in the order in which they are first seen. -/
  firstSeen : (groups.map Prod.fst).Pairwise fun a b =>
    (examples.map Example.name).idxOf a < (examples.map Example.name).idxOf b
  /-- A group holds the examples of its name, in their order. -/
  members : ∀ group ∈ groups, group.2 = examplesNamed group.1 examples
  /-- All groups taken together hold the examples, in some order. -/
  all : (groups.flatMap Prod.snd).Perm examples

/-! ## Groups -/

/-- **The names stand in the order in which they are first seen.**

**Proof sketch.** Induction on the examples from the end. One more example does not change where
an earlier name is first seen, and a new name is first seen behind all others. -/
lemma pairwise_idxOf_firstSeenNames (examples : List Example) :
    (firstSeenNames examples).Pairwise fun a b =>
      (examples.map Example.name).idxOf a < (examples.map Example.name).idxOf b := by
  induction examples using List.reverseRecOn with
  | nil => exact .nil
  | append_singleton examples e ih =>
    have hseen : ∀ name ∈ firstSeenNames examples,
        ((examples ++ [e]).map Example.name).idxOf name =
          (examples.map Example.name).idxOf name := by
      intro name hname
      rw [List.map_append]
      exact List.idxOf_append_of_mem (by simpa using hname)
    have hold : (firstSeenNames examples).Pairwise fun a b =>
        ((examples ++ [e]).map Example.name).idxOf a <
          ((examples ++ [e]).map Example.name).idxOf b :=
      ih.imp_of_mem fun {a b} ha hb hlt => by rwa [hseen a ha, hseen b hb]
    rw [firstSeenNames_concat]
    split
    · exact hold
    · next hnew =>
      refine List.pairwise_append.mpr ⟨hold, List.pairwise_singleton _ _, ?_⟩
      intro name hname last hlast
      obtain rfl := List.mem_singleton.mp hlast
      have hmem : name ∈ examples.map Example.name := by simpa using hname
      have hlt := List.idxOf_lt_length_of_mem hmem
      rw [hseen name hname, List.map_append, List.idxOf_append_of_notMem (by simpa using hnew)]
      omega

/-- One more example is one more in the groups. -/
lemma flatMap_addToGroup_perm (e : Example) (groups : List (String × List Example)) :
    ((addToGroup e groups).flatMap Prod.snd).Perm (groups.flatMap Prod.snd ++ [e]) := by
  induction groups with
  | nil => exact .refl _
  | cons group groups ih =>
    rw [addToGroup]
    split
    · -- the example goes to the end of the first group, in front of all others
      rw [List.flatMap_cons, List.flatMap_cons, List.append_assoc, List.append_assoc]
      exact List.perm_append_comm.append_left group.2
    · rw [List.flatMap_cons, List.flatMap_cons, List.append_assoc]
      exact ih.append_left group.2

/-- **The groups hold each example once.** -/
lemma flatMap_groupByName_perm (examples : List Example) :
    ((groupByName examples).flatMap Prod.snd).Perm examples := by
  induction examples using List.reverseRecOn with
  | nil => exact .refl _
  | append_singleton examples e ih =>
    rw [groupByName_concat]
    exact (flatMap_addToGroup_perm e _).trans (ih.append_right [e])

/-- Grouping by name holds each example once, under its name. -/
lemma groups_groupByName (examples : List Example) : Groups examples (groupByName examples) := by
  have hnames : (groupByName examples).map Prod.fst = firstSeenNames examples := by
    rw [groupByName_eq, List.map_map]
    exact List.map_id _
  refine ⟨?_, ?_, ?_, ?_, flatMap_groupByName_perm examples⟩
  · rw [hnames]
    exact nodup_firstSeenNames examples
  · intro name
    rw [hnames, mem_firstSeenNames]
  · rw [hnames]
    exact pairwise_idxOf_firstSeenNames examples
  · intro group hgroup
    rw [groupByName_eq] at hgroup
    obtain ⟨name, -, rfl⟩ := List.mem_map.mp hgroup
    rfl

/-- The examples of all names are all examples. -/
lemma sum_length_examplesNamed (examples : List Example) :
    ((firstSeenNames examples).map fun name => (examplesNamed name examples).length).sum =
      examples.length := by
  have hperm := flatMap_groupByName_perm examples
  rw [groupByName_eq, List.flatMap_map] at hperm
  rw [← hperm.length_eq, List.length_flatMap]

/-! ## Entries -/

section Entries

variable {lookups : Lookups} {examples : List Example} {entries : List Report.ExampleEntry}

/-- If all groups are merged, there is one entry for each name. -/
lemma names_of_mergedGroups (h : mergedGroups lookups examples = entries.map .ok) :
    entries.map Report.ExampleEntry.name = firstSeenNames examples := by
  have hnames := map_eq_map_of_ok h (k := id) fun name _ entry hmerge =>
    name_of_mergeExamples hmerge
  rwa [List.map_id] at hnames

/-- If all groups are merged, an entry has the places of the examples of its name. -/
lemma places_of_mergedGroups (h : mergedGroups lookups examples = entries.map .ok)
    {entry : Report.ExampleEntry} (hentry : entry ∈ entries) :
    entry.places.map Report.Place.location =
      (examplesNamed entry.name examples).map Example.location := by
  have hmem : .ok entry ∈ mergedGroups lookups examples := h ▸ List.mem_map_of_mem hentry
  obtain ⟨name, -, hmerge⟩ := List.mem_map.mp hmem
  rw [name_of_mergeExamples hmerge]
  exact map_location_places hmerge

end Entries

/-- A report of a collation has a place for each example.

**Proof sketch.** With a report, all groups were merged, so there is one entry for each group, with
the places of the group. The groups taken together are all examples. -/
lemma keepsAll_of_collate {app : String} {sources : Sources} {report : Report}
    (h : (collate app sources).result = .ok report) : report.KeepsAll sources.examples := by
  obtain ⟨vars, crosscuts, journeys, -, -, -, -, hfailures, rfl⟩ := (collate_eq_ok_iff app).mp h
  have hmerged := eq_map_ok_of_failures_nil hfailures
  have hnames := names_of_mergedGroups hmerged
  refine ⟨hnames, fun entry hentry => places_of_mergedGroups hmerged hentry, ?_⟩
  have hlengths : ∀ entry ∈ successes
      (mergedGroups (.ofEntries (successes (sources.components.map componentEntry)) journeys vars)
        sources.examples),
      entry.places.length = (examplesNamed entry.name sources.examples).length := by
    intro entry hentry
    have hplaces := congrArg List.length (places_of_mergedGroups hmerged hentry)
    rwa [List.length_map, List.length_map] at hplaces
  rw [List.map_congr_left hlengths, ← sum_length_examplesNamed, ← hnames, List.map_map]
  rfl

/-- **Neither grouping nor merging loses an example.** Grouping by name holds each example once, and
so does every report, which has the place of each example under its name. -/
theorem occurrences_kept :
    (∀ examples : List Example, Groups examples (groupByName examples)) ∧
    ∀ (app : String) (sources : Sources) (report : Report),
      (collate app sources).result = .ok report → report.KeepsAll sources.examples :=
  ⟨groups_groupByName, fun _ _ _ h => keepsAll_of_collate h⟩

/-- An example in two places, with another one between them: three places for two entries. -/
theorem occurrences_kept_sharedFeature :
    (collate "Travel" sharedFeature).result = .ok sharedFeatureReport ∧
      sharedFeatureReport.KeepsAll sharedFeature.examples :=
  ⟨rfl, occurrences_kept.2 "Travel" sharedFeature sharedFeatureReport rfl⟩

end Collation

end LivingDocs
