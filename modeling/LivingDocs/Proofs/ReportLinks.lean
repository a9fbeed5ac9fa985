import LivingDocs.Proofs.Collate

/-!
# A report has no dangling references

Every reference of an example in a report leads to an entry of the same report. A feature leads to
the last component that declares it, a journey to a journey that no feature of the same name hides,
and each value to a variable that can take it.

## Main definitions

* `LivingDocs.Report.Linked` — all references of a report lead somewhere.

## Main results

* `LivingDocs.Collation.linked_of_collate` — every report of a collation is linked.
-/

set_option autoImplicit false

namespace LivingDocs

open Collation

/-- **All references of a report lead somewhere**, and each example stands once and somewhere. -/
structure Report.Linked (report : Report) : Prop where
  /-- A feature is declared, and its component is the last one that declares it. -/
  features : ∀ e ∈ report.examples, ∀ component feature,
    e.category = .feature component feature →
      ∃ c, IsLast (fun c => feature ∈ c.features) report.components c ∧ c.name = component
  /-- A journey is in the report, and no component has a feature of that name. -/
  journeys : ∀ e ∈ report.examples, ∀ journey, e.category = .journey journey →
    (∃ j ∈ report.journeys, j.name = journey) ∧ ∀ c ∈ report.components, journey ∉ c.features
  /-- A variable that is bound is in the report and can take its value. -/
  bindings : ∀ e ∈ report.examples, ∀ name value, (name, value) ∈ e.bindings.toList →
    ∃ v ∈ report.vars, v.name = name ∧ value ∈ v.values
  /-- No two examples have the same name. -/
  names : (report.examples.map Report.ExampleEntry.name).Nodup
  /-- Each example stands somewhere. -/
  places : ∀ e ∈ report.examples, e.places ≠ []

namespace Collation

variable {lookups : Lookups} {examples : List Example} {entry : Report.ExampleEntry}

/-- A merged example comes from the group of its name. -/
lemma mem_successes_mergedGroups :
    entry ∈ successes (mergedGroups lookups examples) ↔
      ∃ name ∈ firstSeenNames examples,
        mergeExamples lookups name (examplesNamed name examples) = .ok entry :=
  mem_successes

/-- The names of merged examples are some of the names that are seen, in their order. -/
lemma names_successes_sublist (names : List String) (group : String → List Example) :
    ((successes (names.map fun name => mergeExamples lookups name (group name))).map
      Report.ExampleEntry.name).Sublist names := by
  induction names with
  | nil => exact List.Sublist.slnil
  | cons name names ih =>
    cases hmerge : mergeExamples lookups name (group name) with
    | error problem =>
      simp only [successes, List.map_cons, hmerge, Except.toOption, List.filterMap_cons]
      exact ih.cons name
    | ok entry =>
      simp only [successes, List.map_cons, hmerge, Except.toOption, List.filterMap_cons,
        name_of_mergeExamples hmerge]
      exact ih.cons_cons name

/-- A merged example has one place for each example of its group, so at least one. -/
lemma places_ne_nil_of_mergeExamples {name : String} {group : List Example} (hne : group ≠ [])
    (h : mergeExamples lookups name group = .ok entry) : entry.places ≠ [] := by
  obtain ⟨_, places, _, _, hplaces, _, rfl⟩ := mergeExamples_eq_ok_iff.mp h
  intro hnil
  have hmap := map_eq_of_mapM_ok hplaces
  rw [show places = [] from hnil, List.map_nil, List.map_eq_nil_iff] at hmap
  exact hne hmap

/-- **Every report of a collation is linked.**

**Proof sketch.** The lookups are built from the entries that stand in the report, so what a lookup
yields is in the report. An example of the report is a group that was merged: its category and its
values were found in the lookups, its name is one of the names seen, and its group is not empty. -/
theorem linked_of_collate (app : String) (sources : Sources) (report : Report)
    (h : (collate app sources).result = .ok report) : report.Linked := by
  obtain ⟨vars, crosscuts, journeys, -, -, -, -, -, rfl⟩ := (collate_eq_ok_iff app).mp h
  refine ⟨?_, ?_, ?_, ?_, ?_⟩
  · intro e he component feature hcategory
    obtain ⟨name, -, hmerge⟩ := mem_successes_mergedGroups.mp he
    obtain ⟨_, _, _, hfound, _, _, rfl⟩ := mergeExamples_eq_ok_iff.mp hmerge
    exact get?_ofFeatures_eq_some_iff.mp ((findCategory_sound hfound).1 _ _ hcategory)
  · intro e he journey hcategory
    obtain ⟨name, -, hmerge⟩ := mem_successes_mergedGroups.mp he
    obtain ⟨_, _, _, hfound, _, _, rfl⟩ := mergeExamples_eq_ok_iff.mp hmerge
    obtain ⟨hnone, hmem⟩ := (findCategory_sound hfound).2 _ hcategory
    exact ⟨mem_journeys_ofEntries.mp hmem, get?_ofFeatures_eq_none_iff.mp hnone⟩
  · intro e he name value hbound
    obtain ⟨_, -, hmerge⟩ := mem_successes_mergedGroups.mp he
    obtain ⟨_, _, _, _, _, hbindings, rfl⟩ := mergeExamples_eq_ok_iff.mp hmerge
    obtain ⟨-, hget⟩ := resolveValues_sound hbindings hbound
    obtain ⟨v, hlast, hname⟩ := get?_ofValues_eq_some_iff.mp hget
    exact ⟨v, hlast.mem, hname, hlast.holds⟩
  · exact (names_successes_sublist _ _).nodup (nodup_firstSeenNames sources.examples)
  · intro e he
    obtain ⟨name, hname, hmerge⟩ := mem_successes_mergedGroups.mp he
    exact places_ne_nil_of_mergeExamples (examplesNamed_ne_nil hname) hmerge

/-- Two components that declare one feature, a journey, and an example in two places. -/
def sharedFeature : Sources where
  components := [
    ⟨"Booking", "Book a flight", ∅, .ofList ["Search", "Pay"], ⟨some "booking", 1⟩⟩,
    ⟨"Billing", "Pay for it", ∅, .ofList ["Pay"], ⟨some "billing", 1⟩⟩]
  crosscuts := [⟨"Audit log", ⟨some "audit", 4⟩⟩]
  journeys := [⟨"Checkout", "", ⟨some "checkout", 1⟩⟩]
  examples := [
    ⟨"A cat pays", "Pay", .ofList ["Cash"], ∅, .plain, ⟨some "pay", 1⟩⟩,
    ⟨"A dog checks out", "Checkout", ∅, ∅, .todo, ⟨some "checkout", 3⟩⟩,
    ⟨"A cat pays", "Pay", ∅, .ofList ["cats"], .howTo, ⟨some "guide", 9⟩⟩]
  vars := [⟨"Means", .ofList ["Card", "Cash"], ⟨some "billing", 7⟩⟩]

/-- The report on them: the feature belongs to the later component. -/
def sharedFeatureReport : Report where
  app := "Travel"
  components := [
    ⟨"Booking", "Book a flight", [], ["Pay", "Search"], ⟨"booking", 1⟩⟩,
    ⟨"Billing", "Pay for it", [], ["Pay"], ⟨"billing", 1⟩⟩]
  examples := [
    ⟨.feature "Billing" "Pay", "A cat pays", .ofList [("Means", "Cash")], ["cats"], .howTo,
      [⟨"pay", 1⟩, ⟨"guide", 9⟩]⟩,
    ⟨.journey "Checkout", "A dog checks out", ∅, [], .todo, [⟨"checkout", 3⟩]⟩]
  crosscuts := [⟨"Audit log", ⟨"audit", 4⟩⟩]
  journeys := [⟨"Checkout", "", ⟨"checkout", 1⟩⟩]
  vars := [⟨"Means", ["Card", "Cash"], ⟨"billing", 7⟩⟩]

/-- The report on a feature of two components is linked. -/
theorem linked_sharedFeature :
    (collate "Travel" sharedFeature).result = .ok sharedFeatureReport ∧
      sharedFeatureReport.Linked :=
  ⟨rfl, linked_of_collate "Travel" sharedFeature sharedFeatureReport rfl⟩

end Collation

end LivingDocs
