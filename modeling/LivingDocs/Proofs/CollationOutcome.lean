import LivingDocs.Proofs.Collate

/-!
# When a collation fails, and how

The outcome of a collation, said without following it. There is a report exactly when the entities
are consistent. A variable, crosscut or journey without a file stops the collation, whatever else is
wrong; otherwise every component without a file and every group of examples that cannot be merged
is listed, the latter with the first of four reasons that applies.

## Main definitions

* `LivingDocs.Collation.Sources.NeededPlaced`, `LivingDocs.Collation.Sources.Consistent` — what a
  collation asks for.
* `LivingDocs.Collation.Sources.StopsAt` — what stops a collation.
* `LivingDocs.Collation.Sources.GroupFault` — why the examples of one name cannot be merged.

## Main results

* `LivingDocs.Collation.mergeExamples_eq_error_iff` — the faults of groups are exactly those.
* `LivingDocs.Collation.collate_outcome` — the outcome of a collation.
-/

set_option autoImplicit false

namespace LivingDocs.Collation

namespace Sources

/-- **The entities that a collation needs have files**: variables, crosscuts and journeys. -/
structure NeededPlaced (s : Sources) : Prop where
  vars : ∀ v ∈ s.vars, v.location.file ≠ none
  crosscuts : ∀ c ∈ s.crosscuts, c.location.file ≠ none
  journeys : ∀ j ∈ s.journeys, j.location.file ≠ none

/-- **Entities without any problem**: all have files, examples of one name are in one category,
which is a feature or a journey, and all values that examples make use of are declared. -/
structure Consistent (s : Sources) : Prop extends s.NeededPlaced where
  components : ∀ c ∈ s.components, c.location.file ≠ none
  examples : ∀ e ∈ s.examples, e.location.file ≠ none
  oneCategory : ∀ a ∈ s.examples, ∀ b ∈ s.examples, a.name = b.name → a.category = b.category
  resolved : ∀ e ∈ s.examples,
    (∃ c ∈ s.components, e.category ∈ c.features) ∨ ∃ j ∈ s.journeys, j.name = e.category
  declared : ∀ e ∈ s.examples, ∀ value ∈ e.values, ∃ v ∈ s.vars, value ∈ v.values

/-- **What stops a collation**: the first variable without a file, or else the first such crosscut,
or else the first such journey. -/
inductive StopsAt (s : Sources) : Problem → Prop
  | atVariable {v : Variable} (h : s.vars.find? (fun v => v.location.file.isNone) = some v) :
      StopsAt s (.missingFile .ofVariable v.name)
  | atCrosscut {c : Crosscut} (hvars : ∀ v ∈ s.vars, v.location.file ≠ none)
      (h : s.crosscuts.find? (fun c => c.location.file.isNone) = some c) :
      StopsAt s (.missingFile .ofCrosscut c.name)
  | atJourney {j : Journey} (hvars : ∀ v ∈ s.vars, v.location.file ≠ none)
      (hcrosscuts : ∀ c ∈ s.crosscuts, c.location.file ≠ none)
      (h : s.journeys.find? (fun j => j.location.file.isNone) = some j) :
      StopsAt s (.missingFile .ofJourney j.name)

/-- A category is a feature of a component that has a file, or a journey. -/
def Resolves (s : Sources) (category : String) : Prop :=
  (∃ c ∈ s.components, c.location.file ≠ none ∧ category ∈ c.features) ∨
    ∃ j ∈ s.journeys, j.name = category

/-- Some example has the name, and all that have it are in the category. -/
def InCategory (s : Sources) (name category : String) : Prop :=
  examplesNamed name s.examples ≠ [] ∧
    ∀ e ∈ examplesNamed name s.examples, e.category = category

/-- The values that examples of the name make use of and no variable declares. -/
def Undeclared (s : Sources) (name : String) : Set String :=
  {value | (∃ e ∈ examplesNamed name s.examples, value ∈ e.values) ∧
    ∀ v ∈ s.vars, value ∉ v.values}

/-- **Why the examples of one name cannot be merged.** Each reason applies only where those before
it do not. -/
inductive GroupFault (s : Sources) (name : String) : Problem → Prop
  /-- Two of the examples are in different categories. -/
  | multipleCategories {a b : Example} (ha : a ∈ examplesNamed name s.examples)
      (hb : b ∈ examplesNamed name s.examples) (h : a.category ≠ b.category) :
      GroupFault s name (.multipleCategories name)
  /-- Their category is neither a feature nor a journey. -/
  | unresolvedCategory {category : String} (hin : s.InCategory name category)
      (h : ¬ s.Resolves category) : GroupFault s name (.unresolvedCategory category name)
  /-- One of the examples has no file. -/
  | missingFile {category : String} (hin : s.InCategory name category)
      (hres : s.Resolves category) {e : Example} (he : e ∈ examplesNamed name s.examples)
      (h : e.location.file = none) : GroupFault s name (.missingFile .ofExample name)
  /-- A value is not declared; the least one in the order of texts is named. -/
  | unresolvedValue {category value : String} (hin : s.InCategory name category)
      (hres : s.Resolves category)
      (hplaced : ∀ e ∈ examplesNamed name s.examples, e.location.file ≠ none)
      (h : IsLeast (s.Undeclared name) value) : GroupFault s name (.unresolvedValue value)

/-- **What a collation that nothing stops has to list**: the components without a file, in order,
and then the faults of the groups, in the order in which their names are first seen. -/
def Lists (s : Sources) (problems : List Problem) : Prop :=
  ∃ fault : String → Option Problem,
    (∀ name ∈ firstSeenNames s.examples, ∀ problem,
      fault name = some problem ↔ s.GroupFault name problem) ∧
    problems = ((s.components.filter fun c => c.location.file.isNone).map fun c =>
      .component c.location.line c.name) ++ (firstSeenNames s.examples).filterMap fault

/-- **A group without any of these faults.** -/
structure GroupSound (s : Sources) (name : String) : Prop where
  category : ∃ category, s.InCategory name category ∧ s.Resolves category
  placed : ∀ e ∈ examplesNamed name s.examples, e.location.file ≠ none
  declared : ∀ value, value ∉ s.Undeclared name

end Sources

/-! ## Entities that need a file -/

section Placing

variable {α β : Type}

/-- A function that asks for the file of an entity and for nothing else. -/
def AsksForFile (subject : Subject) (name : α → String) (location : α → Location)
    (f : α → Except Problem β) : Prop :=
  ∀ x, ((location x).file ≠ none → ∃ y, f x = .ok y) ∧
    ((location x).file = none → f x = .error (.missingFile subject (name x)))

/-- Asking for the place of an entity asks for its file. -/
lemma asksForFile_requirePlace (subject : Subject) (name : α → String) (location : α → Location) :
    AsksForFile subject name location fun x => requirePlace subject (name x) (location x) :=
  fun _ => ⟨exists_requirePlace_iff.mpr, requirePlace_eq_error⟩

variable {subject : Subject} {name : α → String} {location : α → Location}
  {f : α → Except Problem β} {xs : List α}

/-- A change of the value asks for nothing more. -/
lemma AsksForFile.map {γ : Type} (hf : AsksForFile subject name location f) (g : α → β → γ) :
    AsksForFile subject name location fun x => (f x).map (g x) := by
  intro x
  constructor
  · intro h
    obtain ⟨y, hy⟩ := (hf x).1 h
    exact ⟨g x y, map_eq_ok_iff.mpr ⟨y, hy, rfl⟩⟩
  · intro h
    exact map_eq_error_iff.mpr ((hf x).2 h)

/-- Entities that all have files are all mapped. -/
lemma AsksForFile.exists_mapM_ok (hf : AsksForFile subject name location f)
    (h : ∀ x ∈ xs, (location x).file ≠ none) : ∃ ys, xs.mapM f = .ok ys :=
  LivingDocs.exists_mapM_ok fun x hx => (hf x).1 (h x hx)

/-- The first entity without a file is the problem. -/
lemma AsksForFile.mapM_error (hf : AsksForFile subject name location f) {x : α}
    (h : xs.find? (fun x => (location x).file.isNone) = some x) :
    xs.mapM f = .error (.missingFile subject (name x)) := by
  have hx : (location x).file = none := by simpa using List.find?_some h
  refine mapM_error_of_find? ?_ h ((hf x).2 hx)
  intro z hz
  exact (hf z).1 fun hfile => by simp [hfile] at hz

/-- Where not all entities have files there is a first one without. -/
lemma exists_find?_unplaced (h : ¬ ∀ x ∈ xs, (location x).file ≠ none) :
    ∃ x, xs.find? (fun x => (location x).file.isNone) = some x := by
  push Not at h
  obtain ⟨x, hx, hfile⟩ := h
  exact Option.isSome_iff_exists.mp (List.find?_isSome.mpr ⟨x, hx, by simp [hfile]⟩)

end Placing

/-- The entry of a variable asks for its file. -/
lemma asksForFile_variableEntry :
    AsksForFile .ofVariable Variable.name Variable.location variableEntry :=
  (asksForFile_requirePlace .ofVariable Variable.name Variable.location).map _

/-- The entry of a crosscut asks for its file. -/
lemma asksForFile_crosscutEntry :
    AsksForFile .ofCrosscut Crosscut.name Crosscut.location crosscutEntry :=
  (asksForFile_requirePlace .ofCrosscut Crosscut.name Crosscut.location).map _

/-- The entry of a journey asks for its file. -/
lemma asksForFile_journeyEntry :
    AsksForFile .ofJourney Journey.name Journey.location journeyEntry :=
  (asksForFile_requirePlace .ofJourney Journey.name Journey.location).map _

/-! ## Faults of groups -/

/-- **Lookups that say what the entities say**: the same categories are resolved, and the same
values are declared. -/
structure Lookups.Describes (lookups : Lookups) (s : Sources) : Prop where
  resolves : ∀ category, lookups.Resolves category ↔ s.Resolves category
  values : ∀ value, lookups.values.get? value = none ↔ ∀ v ∈ s.vars, value ∉ v.values

/-- The lookups of a collation say what its entities say. -/
lemma describes_ofEntries {sources : Sources} {vars : List Report.VariableEntry}
    {journeys : List Report.JourneyEntry} (hv : sources.vars.mapM variableEntry = .ok vars)
    (hj : sources.journeys.mapM journeyEntry = .ok journeys) :
    (Lookups.ofEntries (successes (sources.components.map componentEntry)) journeys
      vars).Describes sources where
  resolves category := by
    rw [resolves_ofEntries_iff, exists_feature_iff, exists_journey_iff hj]
    rfl
  values value := by
    have hdeclared : ¬ (∃ entry ∈ vars, value ∈ entry.values) ↔
        ¬ ∃ v ∈ sources.vars, value ∈ v.values := not_congr (exists_value_iff hv)
    push Not at hdeclared
    exact get?_ofValues_eq_none_iff.trans hdeclared

section Groups

variable {lookups : Lookups} {sources : Sources} {name : String} {problem : Problem}

/-- The undeclared values of a group are those among its values that the lookups do not know. -/
lemma mem_undeclared_iff (hd : lookups.Describes sources) {value : String} :
    value ∈ sources.Undeclared name ↔
      value ∈ OrderedSet.ofList ((examplesNamed name sources.examples).flatMap
        fun e => e.values.toList) ∧ (lookups.values.get? value).isNone = true := by
  rw [Option.isNone_iff_eq_none, hd.values, OrderedSet.mem_ofList, List.mem_flatMap]
  rfl

/-- The search for a value that the lookups do not know finds the least undeclared one. -/
lemma find?_gather_eq_some_iff (hd : lookups.Describes sources) {value : String} :
    (gather Example.values (examplesNamed name sources.examples)).find?
        (fun v => (lookups.values.get? v).isNone) = some value ↔
      IsLeast (sources.Undeclared name) value := by
  have hset : sources.Undeclared name = {value | _ ∧ _} := Set.ext fun _ => mem_undeclared_iff hd
  rw [hset]
  constructor
  · exact OrderedSet.isLeast_of_find?
  · intro hleast
    have ⟨hmem, hnone⟩ := hleast.1
    cases hfind : (gather Example.values (examplesNamed name sources.examples)).find?
        fun v => (lookups.values.get? v).isNone with
    | none => exact absurd hnone (List.find?_eq_none.mp hfind value hmem)
    | some found => rw [(OrderedSet.isLeast_of_find? hfind).unique hleast]

/-- **A fault of a group is what its merging fails with.** -/
lemma mergeExamples_of_groupFault (hd : lookups.Describes sources)
    (h : sources.GroupFault name problem) :
    mergeExamples lookups name (examplesNamed name sources.examples) = .error problem := by
  cases h with
  | multipleCategories ha hb h =>
    exact mergeExamples_of_category_error (findCategory_of_mixed ha hb h)
  | unresolvedCategory hin h =>
    have hres := mt (hd.resolves _).mp h
    exact mergeExamples_of_category_error (findCategory_of_unresolved hin.1 hin.2 hres)
  | missingFile hin hres he h =>
    obtain ⟨found, hfound⟩ := exists_findCategory hin.1 hin.2 ((hd.resolves _).mpr hres)
    have hunplaced : ¬ ∀ e ∈ examplesNamed name sources.examples, e.location.file ≠ none :=
      fun hplaced => hplaced _ he h
    obtain ⟨x, hx⟩ := exists_find?_unplaced hunplaced
    have hname : x.name = name := (mem_examplesNamed.mp (List.mem_of_find?_eq_some hx)).2
    have herror := (asksForFile_requirePlace .ofExample Example.name Example.location).mapM_error hx
    rw [hname] at herror
    exact mergeExamples_of_place_error hfound herror
  | unresolvedValue hin hres hplaced h =>
    obtain ⟨found, hfound⟩ := exists_findCategory hin.1 hin.2 ((hd.resolves _).mpr hres)
    obtain ⟨places, hplaces⟩ :=
      (asksForFile_requirePlace .ofExample Example.name Example.location).exists_mapM_ok hplaced
    exact mergeExamples_of_value_error hfound hplaces
      (resolveValues_error ((find?_gather_eq_some_iff hd).mpr h))

/-- A group without faults is merged. -/
lemma exists_mergeExamples (hd : lookups.Describes sources) (h : sources.GroupSound name) :
    ∃ entry, mergeExamples lookups name (examplesNamed name sources.examples) = .ok entry := by
  obtain ⟨⟨category, hin, hres⟩, hplaced, hdeclared⟩ := h
  obtain ⟨found, hfound⟩ := exists_findCategory hin.1 hin.2 ((hd.resolves _).mpr hres)
  obtain ⟨places, hplaces⟩ :=
    (asksForFile_requirePlace .ofExample Example.name Example.location).exists_mapM_ok hplaced
  have hvalues : ∀ v ∈ gather Example.values (examplesNamed name sources.examples),
      lookups.values.get? v ≠ none := by
    intro v hv hnone
    exact hdeclared v ⟨mem_gather.mp hv, (hd.values v).mp hnone⟩
  obtain ⟨bindings, hbindings⟩ := exists_resolveValues hvalues
  exact ⟨_, mergeExamples_eq_ok_iff.mpr
    ⟨found, places, bindings, hfound, hplaces, hbindings, rfl⟩⟩

/-- **A group has a fault or is sound.**

**Proof sketch.** The four questions are asked in order. The first that is answered badly is the
fault; a group for which all four are answered well is sound. -/
lemma groupFault_or_groupSound (hd : lookups.Describes sources)
    (hname : name ∈ firstSeenNames sources.examples) :
    (∃ problem, sources.GroupFault name problem) ∨ sources.GroupSound name := by
  have hne := examplesNamed_ne_nil hname
  obtain ⟨first, hfirst⟩ := List.exists_mem_of_ne_nil _ hne
  by_cases hin : sources.InCategory name first.category
  swap
  · have hmixed : ¬ ∀ e ∈ examplesNamed name sources.examples, e.category = first.category :=
      fun hall => hin ⟨hne, hall⟩
    push Not at hmixed
    obtain ⟨e, he, hcategory⟩ := hmixed
    exact .inl ⟨_, .multipleCategories he hfirst hcategory⟩
  by_cases hres : sources.Resolves first.category
  swap
  · exact .inl ⟨_, .unresolvedCategory hin hres⟩
  by_cases hplaced : ∀ e ∈ examplesNamed name sources.examples, e.location.file ≠ none
  swap
  · push Not at hplaced
    obtain ⟨e, he, hfile⟩ := hplaced
    exact .inl ⟨_, .missingFile hin hres he hfile⟩
  cases hfind : (gather Example.values (examplesNamed name sources.examples)).find?
      fun v => (lookups.values.get? v).isNone with
  | some value =>
    have hleast := (find?_gather_eq_some_iff hd).mp hfind
    exact .inl ⟨_, .unresolvedValue hin hres hplaced hleast⟩
  | none =>
    refine .inr ⟨⟨first.category, hin, hres⟩, hplaced, fun value hvalue => ?_⟩
    obtain ⟨hmem, hnone⟩ := (mem_undeclared_iff hd).mp hvalue
    exact List.find?_eq_none.mp hfind value (OrderedSet.mem_def.mp hmem) hnone

/-- **The faults of groups are exactly what merging fails with.** -/
theorem mergeExamples_eq_error_iff (hd : lookups.Describes sources)
    (hname : name ∈ firstSeenNames sources.examples) :
    mergeExamples lookups name (examplesNamed name sources.examples) = .error problem ↔
      sources.GroupFault name problem := by
  refine ⟨fun h => ?_, mergeExamples_of_groupFault hd⟩
  rcases groupFault_or_groupSound hd hname with ⟨other, hfault⟩ | hsound
  · rw [mergeExamples_of_groupFault hd hfault] at h
    cases h
    exact hfault
  · obtain ⟨entry, hok⟩ := exists_mergeExamples hd hsound
    rw [hok] at h
    cases h

/-- A group has no fault exactly when it is sound. -/
lemma not_groupFault_iff (hd : lookups.Describes sources)
    (hname : name ∈ firstSeenNames sources.examples) :
    (∀ problem, ¬ sources.GroupFault name problem) ↔ sources.GroupSound name := by
  constructor
  · intro h
    rcases groupFault_or_groupSound hd hname with ⟨problem, hfault⟩ | hsound
    · exact absurd hfault (h problem)
    · exact hsound
  · intro h problem hfault
    obtain ⟨entry, hok⟩ := exists_mergeExamples hd h
    rw [mergeExamples_of_groupFault hd hfault] at hok
    cases hok

end Groups

/-! ## The outcome -/

section Outcome

variable (app : String) {sources : Sources}

/-- **What stops a collation is its outcome.** -/
lemma collate_of_stopsAt {problem : Problem} (h : sources.StopsAt problem) :
    (collate app sources).result = .error (.aborted problem) := by
  cases h with
  | atVariable h =>
    exact collate_of_vars_error app (asksForFile_variableEntry.mapM_error h)
  | atCrosscut hvars h =>
    obtain ⟨vars, hv⟩ := asksForFile_variableEntry.exists_mapM_ok hvars
    exact collate_of_crosscuts_error app hv (asksForFile_crosscutEntry.mapM_error h)
  | atJourney hvars hcrosscuts h =>
    obtain ⟨vars, hv⟩ := asksForFile_variableEntry.exists_mapM_ok hvars
    obtain ⟨crosscuts, hc⟩ := asksForFile_crosscutEntry.exists_mapM_ok hcrosscuts
    exact collate_of_journeys_error app hv hc (asksForFile_journeyEntry.mapM_error h)

/-- A needed entity without a file stops the collation somewhere. -/
lemma exists_stopsAt (h : ¬ sources.NeededPlaced) : ∃ problem, sources.StopsAt problem := by
  by_cases hvars : ∀ v ∈ sources.vars, v.location.file ≠ none
  · by_cases hcrosscuts : ∀ c ∈ sources.crosscuts, c.location.file ≠ none
    · have hjourneys : ¬ ∀ j ∈ sources.journeys, j.location.file ≠ none :=
        fun hjourneys => h ⟨hvars, hcrosscuts, hjourneys⟩
      obtain ⟨j, hj⟩ := exists_find?_unplaced hjourneys
      exact ⟨_, .atJourney hvars hcrosscuts hj⟩
    · obtain ⟨c, hc⟩ := exists_find?_unplaced hcrosscuts
      exact ⟨_, .atCrosscut hvars hc⟩
  · obtain ⟨v, hv⟩ := exists_find?_unplaced hvars
    exact ⟨_, .atVariable hv⟩

/-- The components that are left out, in order. -/
lemma failures_componentEntry (components : List Component) :
    failures (components.map componentEntry) =
      (components.filter fun c => c.location.file.isNone).map fun c =>
        .component c.location.line c.name := by
  rw [failures_map]
  induction components with
  | nil => rfl
  | cons c components ih =>
    rw [List.filterMap_cons, failure?_componentEntry, List.filter_cons]
    cases hfile : c.location.file <;> simp [ih]

/-- Entities are consistent exactly when all that needs a file has one and each group is sound. -/
lemma consistent_iff :
    sources.Consistent ↔ sources.NeededPlaced ∧
      (∀ c ∈ sources.components, c.location.file ≠ none) ∧
      ∀ name ∈ firstSeenNames sources.examples, sources.GroupSound name := by
  constructor
  · intro h
    refine ⟨h.toNeededPlaced, h.components, fun name hname => ?_⟩
    obtain ⟨first, hfirst, rfl⟩ := mem_firstSeenNames.mp hname
    have hcategory : ∀ e ∈ examplesNamed first.name sources.examples,
        e.category = first.category := by
      intro e he
      obtain ⟨hmem, heq⟩ := mem_examplesNamed.mp he
      exact h.oneCategory e hmem first hfirst heq
    refine ⟨⟨first.category, ⟨examplesNamed_ne_nil hname, hcategory⟩, ?_⟩, ?_, ?_⟩
    · refine (h.resolved first hfirst).imp_left ?_
      rintro ⟨c, hc, hfeature⟩
      exact ⟨c, hc, h.components c hc, hfeature⟩
    · intro e he
      exact h.examples e (mem_examplesNamed.mp he).1
    · rintro value ⟨⟨e, he, hvalue⟩, hundeclared⟩
      obtain ⟨v, hv, hdeclared⟩ := h.declared e (mem_examplesNamed.mp he).1 value hvalue
      exact hundeclared v hv hdeclared
  · rintro ⟨hneeded, hcomponents, hsound⟩
    -- every example is one of the group of its own name
    have hself : ∀ e ∈ sources.examples, e ∈ examplesNamed e.name sources.examples :=
      fun e he => mem_examplesNamed.mpr ⟨he, rfl⟩
    have hgroup : ∀ e ∈ sources.examples, sources.GroupSound e.name :=
      fun e he => hsound e.name (mem_firstSeenNames.mpr ⟨e, he, rfl⟩)
    refine { hneeded with
      components := hcomponents
      examples := fun e he => (hgroup e he).placed e (hself e he)
      oneCategory := ?_
      resolved := ?_
      declared := ?_ }
    · intro a ha b hb hname
      obtain ⟨category, hin, -⟩ := (hgroup a ha).category
      have hb' : b ∈ examplesNamed a.name sources.examples :=
        mem_examplesNamed.mpr ⟨hb, hname.symm⟩
      exact (hin.2 a (hself a ha)).trans (hin.2 b hb').symm
    · intro e he
      obtain ⟨category, hin, hres⟩ := (hgroup e he).category
      rw [hin.2 e (hself e he)]
      refine hres.imp_left ?_
      rintro ⟨c, hc, -, hfeature⟩
      exact ⟨c, hc, hfeature⟩
    · intro e he value hvalue
      by_contra hundeclared
      push Not at hundeclared
      exact (hgroup e he).declared value ⟨⟨e, hself e he, hvalue⟩, hundeclared⟩

/-- There is nothing to list exactly when every component has a file and every group is sound. -/
lemma Sources.Lists.eq_nil_iff {lookups : Lookups} (hd : lookups.Describes sources)
    {problems : List Problem} (h : sources.Lists problems) :
    problems = [] ↔ (∀ c ∈ sources.components, c.location.file ≠ none) ∧
      ∀ name ∈ firstSeenNames sources.examples, sources.GroupSound name := by
  obtain ⟨fault, hfault, rfl⟩ := h
  rw [List.append_eq_nil_iff, List.map_eq_nil_iff, List.filter_eq_nil_iff,
    List.filterMap_eq_nil_iff]
  refine and_congr (by simp) (forall₂_congr fun name hname => ?_)
  rw [← not_groupFault_iff hd hname, Option.eq_none_iff_forall_ne_some]
  exact forall_congr' fun problem => not_congr (hfault name hname problem)

/-- The failures of components and groups are what there is to list. -/
lemma lists_failures {lookups : Lookups} (hd : lookups.Describes sources) :
    sources.Lists (failures (sources.components.map componentEntry) ++
      failures (mergedGroups lookups sources.examples)) := by
  refine ⟨fun name => failure? (mergeExamples lookups name (examplesNamed name sources.examples)),
    fun name hname problem => ?_, ?_⟩
  · rw [failure?_eq_some_iff]
    exact mergeExamples_eq_error_iff hd hname
  · rw [failures_componentEntry, mergedGroups, failures_map]

/-- **A collation that nothing stops** has a report if there is nothing to list, and lists what
there is otherwise. -/
lemma collate_of_neededPlaced (h : sources.NeededPlaced) :
    ∃ (lookups : Lookups) (problems : List Problem),
      lookups.Describes sources ∧ sources.Lists problems ∧
      ((∃ report, (collate app sources).result = .ok report) ↔ problems = []) ∧
      (problems ≠ [] → (collate app sources).result = .error (.problems problems)) := by
  obtain ⟨vars, hv⟩ := asksForFile_variableEntry.exists_mapM_ok h.vars
  obtain ⟨crosscuts, hc⟩ := asksForFile_crosscutEntry.exists_mapM_ok h.crosscuts
  obtain ⟨journeys, hj⟩ := asksForFile_journeyEntry.exists_mapM_ok h.journeys
  have hd := describes_ofEntries hv hj
  refine ⟨_, _, hd, lists_failures hd, ?_⟩
  rw [collate_of_needed app hv hc hj]
  dsimp only
  split
  · next hnil => simp [hnil]
  · next hcons => exact ⟨by simpa using hcons, fun _ => rfl⟩

/-- **The outcome of a collation.** There is a report exactly for consistent entities. A variable,
crosscut or journey without a file stops the collation, and its outcome is the first of them; all
else that is wrong is listed, components first.

**Proof sketch.** Where an entity that is needed has no file, the collation stops and the entities
are not consistent. Otherwise it lists its faults, and there are none of them exactly when every
component has a file and every group is sound. -/
theorem collate_outcome (app : String) (sources : Sources) :
    ((∃ report, (collate app sources).result = .ok report) ↔ sources.Consistent) ∧
    (¬ sources.NeededPlaced → ∃ problem, sources.StopsAt problem ∧
      (collate app sources).result = .error (.aborted problem)) ∧
    (sources.NeededPlaced → ¬ sources.Consistent → ∃ problems, sources.Lists problems ∧
      (collate app sources).result = .error (.problems problems)) := by
  by_cases hneeded : sources.NeededPlaced
  · obtain ⟨lookups, problems, hd, hlists, hok, hproblems⟩ := collate_of_neededPlaced app hneeded
    have hiff : (∃ report, (collate app sources).result = .ok report) ↔ sources.Consistent := by
      rw [hok, hlists.eq_nil_iff hd, consistent_iff, and_iff_right hneeded]
    refine ⟨hiff, fun h => absurd hneeded h, fun _ hbad => ⟨problems, hlists, hproblems ?_⟩⟩
    exact fun hnil => hbad (hiff.mp (hok.mpr hnil))
  · obtain ⟨problem, hstop⟩ := exists_stopsAt hneeded
    have hresult := collate_of_stopsAt app hstop
    refine ⟨⟨?_, fun h => absurd h.toNeededPlaced hneeded⟩,
      fun _ => ⟨problem, hstop, hresult⟩, fun h => absurd h hneeded⟩
    rintro ⟨report, hok⟩
    rw [hresult] at hok
    cases hok

end Outcome

end LivingDocs.Collation
