import LivingDocs.Proofs.Groups
import LivingDocs.Proofs.Lookup
import LivingDocs.Proofs.Merging

/-!
# The shape of a collation

A collation either stops at an entity that is needed, or it goes through all components and all
groups of examples and then has a report exactly when nothing failed. Here this is said once, in
terms of the entries that stand in the report.

## Main definitions

* `LivingDocs.Collation.Lookups.ofEntries` — the lookups that the entries of a report give.
* `LivingDocs.Collation.mergedGroups` — what becomes of each group of examples.

## Main results

* `LivingDocs.Collation.collate_of_vars_error`, `LivingDocs.Collation.collate_of_crosscuts_error`,
  `LivingDocs.Collation.collate_of_journeys_error` — a collation that stops.
* `LivingDocs.Collation.collate_of_needed` — a collation that goes through.
* `LivingDocs.Collation.collate_eq_ok_iff` — when there is a report, and what stands in it.
-/

set_option autoImplicit false

namespace LivingDocs.Collation

/-! ## Lookups from entries -/

/-- The lookups that the entries of a report give. -/
def Lookups.ofEntries (components : List Report.ComponentEntry)
    (journeys : List Report.JourneyEntry) (vars : List Report.VariableEntry) : Lookups :=
  ⟨(ofFeatures components).index, OrderedSet.ofList (journeys.map Report.JourneyEntry.name),
    (ofValues vars).index⟩

section Entries

variable {components : List Report.ComponentEntry} {journeys : List Report.JourneyEntry}
  {vars : List Report.VariableEntry}

/-- The journeys of the lookups are the names of the journeys. -/
lemma mem_journeys_ofEntries {journey : String} :
    journey ∈ (Lookups.ofEntries components journeys vars).journeys ↔
      ∃ j ∈ journeys, j.name = journey := by
  rw [Lookups.ofEntries, OrderedSet.mem_ofList, List.mem_map]

/-- A category is resolved if a component declares it as a feature or a journey has its name. -/
lemma resolves_ofEntries_iff {category : String} :
    (Lookups.ofEntries components journeys vars).Resolves category ↔
      (∃ c ∈ components, category ∈ c.features) ∨ ∃ j ∈ journeys, j.name = category := by
  rw [Lookups.Resolves, mem_journeys_ofEntries]
  refine or_congr_left ?_
  rw [Lookups.ofEntries, ne_eq, get?_ofFeatures_eq_none_iff]
  simp

end Entries

/-! ## Entries from entities -/

/-- A component is left out, and noted as a problem, exactly when its file is not known. -/
lemma failure?_componentEntry (c : Component) :
    failure? (componentEntry c) =
      if c.location.file = none then some (.component c.location.line c.name) else none := by
  unfold componentEntry requirePlace
  cases c.location.file <;> simp [failure?]

/-- The entry of a component keeps its features. -/
lemma features_of_componentEntry {c : Component} {entry : Report.ComponentEntry}
    (h : componentEntry c = .ok entry) :
    c.location.file ≠ none ∧ entry.features = c.features.toList := by
  unfold componentEntry requirePlace at h
  cases hfile : c.location.file with
  | none => simp [hfile] at h
  | some file =>
    rw [hfile] at h
    cases h
    exact ⟨by simp, rfl⟩

/-- A component whose file is known has an entry. -/
lemma exists_componentEntry {c : Component} (h : c.location.file ≠ none) :
    ∃ entry, componentEntry c = .ok entry := by
  obtain ⟨file, hfile⟩ := Option.ne_none_iff_exists'.mp h
  exact ⟨_, by rw [componentEntry, requirePlace, hfile]⟩

/-- A feature is declared by an entry exactly when a component with a file declares it. -/
lemma exists_feature_iff {components : List Component} {feature : String} :
    (∃ entry ∈ successes (components.map componentEntry), feature ∈ entry.features) ↔
      ∃ c ∈ components, c.location.file ≠ none ∧ feature ∈ c.features := by
  constructor
  · rintro ⟨entry, hentry, hfeature⟩
    obtain ⟨c, hc, hok⟩ := mem_successes.mp hentry
    obtain ⟨hfile, hfeatures⟩ := features_of_componentEntry hok
    exact ⟨c, hc, hfile, OrderedSet.mem_def.mpr (hfeatures ▸ hfeature)⟩
  · rintro ⟨c, hc, hfile, hfeature⟩
    obtain ⟨entry, hok⟩ := exists_componentEntry hfile
    refine ⟨entry, mem_successes.mpr ⟨c, hc, hok⟩, ?_⟩
    rw [(features_of_componentEntry hok).2]
    exact OrderedSet.mem_def.mp hfeature

/-- A value is declared by an entry exactly when a variable declares it. -/
lemma exists_value_iff {sources : List Variable} {vars : List Report.VariableEntry}
    (h : sources.mapM variableEntry = .ok vars) {value : String} :
    (∃ entry ∈ vars, value ∈ entry.values) ↔ ∃ v ∈ sources, value ∈ v.values := by
  have hentry : ∀ {v entry}, variableEntry v = .ok entry → entry.values = v.values.toList := by
    intro v entry hok
    obtain ⟨place, -, rfl⟩ := map_eq_ok_iff.mp hok
    rfl
  constructor
  · rintro ⟨entry, hmem, hvalue⟩
    obtain ⟨v, hv, hok⟩ := (mem_of_mapM_ok h).mp hmem
    exact ⟨v, hv, OrderedSet.mem_def.mpr (hentry hok ▸ hvalue)⟩
  · rintro ⟨v, hv, hvalue⟩
    have hok : variableEntry v ∈ vars.map .ok := map_eq_of_mapM_ok h ▸ List.mem_map_of_mem hv
    obtain ⟨entry, hmem, hok⟩ := List.mem_map.mp hok
    refine ⟨entry, hmem, ?_⟩
    rw [hentry hok.symm]
    exact OrderedSet.mem_def.mp hvalue

/-- A journey entry of some name exists exactly when a journey of that name does. -/
lemma exists_journey_iff {sources : List Journey} {journeys : List Report.JourneyEntry}
    (h : sources.mapM journeyEntry = .ok journeys) {name : String} :
    (∃ entry ∈ journeys, entry.name = name) ↔ ∃ j ∈ sources, j.name = name := by
  have hentry : ∀ {j entry}, journeyEntry j = .ok entry → entry.name = j.name := by
    intro j entry hok
    obtain ⟨place, -, rfl⟩ := map_eq_ok_iff.mp hok
    rfl
  constructor
  · rintro ⟨entry, hmem, rfl⟩
    obtain ⟨j, hj, hok⟩ := (mem_of_mapM_ok h).mp hmem
    exact ⟨j, hj, (hentry hok).symm⟩
  · rintro ⟨j, hj, rfl⟩
    have hok : journeyEntry j ∈ journeys.map .ok := map_eq_of_mapM_ok h ▸ List.mem_map_of_mem hj
    obtain ⟨entry, hmem, hok⟩ := List.mem_map.mp hok
    exact ⟨entry, hmem, hentry hok.symm⟩

/-! ## Stopping or going through -/

/-- What becomes of each group of examples, in the order in which their names are first seen. -/
def mergedGroups (lookups : Lookups) (examples : List Example) :
    List (Except Problem Report.ExampleEntry) :=
  (firstSeenNames examples).map fun name =>
    mergeExamples lookups name (examplesNamed name examples)

section Shape

variable (app : String) {sources : Sources} {vars : List Report.VariableEntry}
  {crosscuts : List Report.CrosscutEntry} {journeys : List Report.JourneyEntry} {problem : Problem}

/-- A problem with the variables stops the collation. -/
lemma collate_of_vars_error (h : sources.vars.mapM variableEntry = .error problem) :
    (collate app sources).result = .error (.aborted problem) := by
  simp only [collate, h]
  rfl

/-- A problem with the crosscuts stops the collation once the variables are read. -/
lemma collate_of_crosscuts_error (hv : sources.vars.mapM variableEntry = .ok vars)
    (h : sources.crosscuts.mapM crosscutEntry = .error problem) :
    (collate app sources).result = .error (.aborted problem) := by
  simp only [collate, hv, h]
  rfl

/-- A problem with the journeys stops the collation once variables and crosscuts are read. -/
lemma collate_of_journeys_error (hv : sources.vars.mapM variableEntry = .ok vars)
    (hc : sources.crosscuts.mapM crosscutEntry = .ok crosscuts)
    (h : sources.journeys.mapM journeyEntry = .error problem) :
    (collate app sources).result = .error (.aborted problem) := by
  simp only [collate, hv, hc, h]
  rfl

/-- **A collation that does not stop** goes through all components and all groups of examples. It
has a report if none of them failed, and lists the failures otherwise. -/
theorem collate_of_needed (hv : sources.vars.mapM variableEntry = .ok vars)
    (hc : sources.crosscuts.mapM crosscutEntry = .ok crosscuts)
    (hj : sources.journeys.mapM journeyEntry = .ok journeys) :
    (collate app sources).result =
      let components := successes (sources.components.map componentEntry)
      let merged := mergedGroups (.ofEntries components journeys vars) sources.examples
      match failures (sources.components.map componentEntry) ++ failures merged with
      | [] => .ok ⟨app, components, successes merged, crosscuts, journeys, vars⟩
      | problems => .error (.problems problems) := by
  have hneeded : (do
      let vars ← sources.vars.mapM variableEntry
      let crosscuts ← sources.crosscuts.mapM crosscutEntry
      let journeys ← sources.journeys.mapM journeyEntry
      return (vars, crosscuts, journeys) : Except Problem _) = .ok (vars, crosscuts, journeys) := by
    rw [hv, hc, hj]
    rfl
  have hmerged : ∀ lookups, (groupByName sources.examples).map
      (fun group => mergeExamples lookups group.1 group.2) =
        mergedGroups lookups sources.examples := by
    intro lookups
    rw [groupByName_eq, List.map_map]
    rfl
  simp only [collate, hneeded, hmerged]
  change Outcome.result (match failures (sources.components.map componentEntry) ++
    failures (mergedGroups (.ofEntries _ journeys vars) sources.examples) with
    | [] => _
    | problems => _) = _
  split <;> rfl

/-- **There is a report exactly when no entity stops the collation and nothing fails on the way**;
its entries are those of the entities.

**Proof sketch.** An entity that is needed and has no file stops the collation, so a report tells
that all three runs over needed entities succeed. The rest is the collation that goes through. -/
theorem collate_eq_ok_iff {report : Report} :
    (collate app sources).result = .ok report ↔
      ∃ vars crosscuts journeys,
        sources.vars.mapM variableEntry = .ok vars ∧
        sources.crosscuts.mapM crosscutEntry = .ok crosscuts ∧
        sources.journeys.mapM journeyEntry = .ok journeys ∧
        let components := successes (sources.components.map componentEntry)
        let merged := mergedGroups (.ofEntries components journeys vars) sources.examples
        failures (sources.components.map componentEntry) = [] ∧ failures merged = [] ∧
          report = ⟨app, components, successes merged, crosscuts, journeys, vars⟩ := by
  constructor
  · intro h
    cases hv : sources.vars.mapM variableEntry with
    | error problem => simp [collate_of_vars_error app hv] at h
    | ok vars =>
      cases hc : sources.crosscuts.mapM crosscutEntry with
      | error problem => simp [collate_of_crosscuts_error app hv hc] at h
      | ok crosscuts =>
        cases hj : sources.journeys.mapM journeyEntry with
        | error problem => simp [collate_of_journeys_error app hv hc hj] at h
        | ok journeys =>
          refine ⟨vars, crosscuts, journeys, rfl, rfl, rfl, ?_⟩
          rw [collate_of_needed app hv hc hj] at h
          dsimp only at h ⊢
          split at h
          · next hnil =>
            obtain ⟨hcomponents, hmerged⟩ := List.append_eq_nil_iff.mp hnil
            cases h
            exact ⟨hcomponents, hmerged, rfl⟩
          · cases h
  · rintro ⟨vars, crosscuts, journeys, hv, hc, hj, hcomponents, hmerged, rfl⟩
    rw [collate_of_needed app hv hc hj]
    simp only [hcomponents, hmerged, List.append_nil]

end Shape

end LivingDocs.Collation
