import LivingDocs.Proofs.CollationOutcome
import Mathlib.Data.List.Perm.Basic

/-!
# The order of the entities

A collation passes over its lists one after the other. A group of examples is put together in the
order of the examples, of two declarations the later one counts, and the first entity without a file
stops it. As long as no feature and no value is declared under two names, none of that shows in what
comes of it but as an order: a report has the same entries, and a list of problems the same
problems.

## Main definitions

* `LivingDocs.Report.SameButOrder` — reports with the same entries.
* `LivingDocs.Collation.Sources.Reorders` — the same entities in another order.
* `LivingDocs.Collation.Sources.Unambiguous` — each feature and each value has one owner.
* `LivingDocs.Collation.SameButOrder` — collations that come to the same.

## Main results

* `LivingDocs.Collation.ofEntries_eq_of_perm` — unambiguous declarations give the same lookups.
* `LivingDocs.Collation.sameMerged_of_perm` — a group is merged alike in any order.
* `LivingDocs.Collation.collate_reordered` — a collation comes to the same in any order.
-/

set_option autoImplicit false

namespace LivingDocs

/-! ## Reports with the same entries -/

namespace Report

/-- **The same example**, whose places may stand in another order. -/
structure ExampleEntry.SameButOrder (a b : ExampleEntry) : Prop where
  category : a.category = b.category
  name : a.name = b.name
  bindings : a.bindings = b.bindings
  tags : a.tags = b.tags
  kind : a.kind = b.kind
  places : a.places.Perm b.places

/-- **Reports with the same entries**, in any order. -/
structure SameButOrder (a b : Report) : Prop where
  app : a.app = b.app
  components : a.components.Perm b.components
  crosscuts : a.crosscuts.Perm b.crosscuts
  journeys : a.journeys.Perm b.journeys
  vars : a.vars.Perm b.vars
  /-- One by one, the examples are the same as those of the other report in some order. -/
  examples : ∃ reordered, a.examples.Perm reordered ∧
    List.Forall₂ ExampleEntry.SameButOrder reordered b.examples

end Report

namespace Collation

/-- **The same entities in another order.** -/
structure Sources.Reorders (s t : Sources) : Prop where
  components : s.components.Perm t.components
  crosscuts : s.crosscuts.Perm t.crosscuts
  journeys : s.journeys.Perm t.journeys
  examples : s.examples.Perm t.examples
  vars : s.vars.Perm t.vars

/-- **Each feature and each value has one owner**: components with a file that declare the same
feature have the same name, and so have variables that declare the same value. -/
structure Sources.Unambiguous (s : Sources) : Prop where
  features : ∀ c ∈ s.components, ∀ d ∈ s.components, c.location.file ≠ none →
    d.location.file ≠ none → ∀ feature ∈ c.features, feature ∈ d.features → c.name = d.name
  values : ∀ v ∈ s.vars, ∀ w ∈ s.vars, ∀ value ∈ v.values, value ∈ w.values → v.name = w.name

/-- **Collations that come to the same**: both have a report, and the entries are the same; or both
have been stopped; or both list problems, and these are the same. -/
inductive SameButOrder : Except Failure Report → Except Failure Report → Prop
  | reports {a b : Report} (h : a.SameButOrder b) : SameButOrder (.ok a) (.ok b)
  | aborted (problem problem' : Problem) :
      SameButOrder (.error (.aborted problem)) (.error (.aborted problem'))
  | problems {all all' : List Problem} (h : all.Perm all') :
      SameButOrder (.error (.problems all)) (.error (.problems all'))

/-! ## Lookups -/

section Declared

variable {α : Type} {items : α → List String} {name : α → String}

/-- **An item that has one owner belongs to it in any order of the entries.** -/
lemma get?_declared_of_perm {entries entries' : List α} (hperm : entries.Perm entries')
    {k : String}
    (hone : ∀ a ∈ entries, ∀ b ∈ entries, k ∈ items a → k ∈ items b → name a = name b) :
    (Lookup.ofDeclarations
      (entries.flatMap fun e => (items e).map fun item => (item, name e))).index.get? k =
    (Lookup.ofDeclarations
      (entries'.flatMap fun e => (items e).map fun item => (item, name e))).index.get? k := by
  cases hget : (Lookup.ofDeclarations
      (entries'.flatMap fun e => (items e).map fun item => (item, name e))).index.get? k with
  | none =>
    rw [get?_declared_eq_none_iff] at hget ⊢
    exact fun entry hentry => hget entry (hperm.mem_iff.mp hentry)
  | some owner =>
    obtain ⟨last', hlast', rfl⟩ := (get?_declared_eq_some_iff items name).mp hget
    have hmem := hperm.mem_iff.mpr hlast'.mem
    cases hfirst : (Lookup.ofDeclarations
        (entries.flatMap fun e => (items e).map fun item => (item, name e))).index.get? k with
    | none =>
      rw [get?_declared_eq_none_iff] at hfirst
      exact absurd hlast'.holds (hfirst last' hmem)
    | some owner =>
      obtain ⟨last, hlast, rfl⟩ := (get?_declared_eq_some_iff items name).mp hfirst
      rw [hone last hlast.mem last' hmem hlast.holds hlast'.holds]

end Declared

/-- The entry of a component keeps its name. -/
lemma name_of_componentEntry {c : Component} {entry : Report.ComponentEntry}
    (h : componentEntry c = .ok entry) : entry.name = c.name := by
  unfold componentEntry at h
  split at h
  · cases h
    rfl
  · cases h

/-- The entry of a variable keeps its name and its values. -/
lemma of_variableEntry {v : Variable} {entry : Report.VariableEntry}
    (h : variableEntry v = .ok entry) : entry.name = v.name ∧ entry.values = v.values.toList := by
  obtain ⟨place, -, rfl⟩ := map_eq_ok_iff.mp h
  exact ⟨rfl, rfl⟩

section Entries

variable {sources : Sources} {components components' : List Report.ComponentEntry}
  {journeys journeys' : List Report.JourneyEntry} {vars vars' : List Report.VariableEntry}

/-- **Unambiguous declarations give the same lookups in any order.** -/
lemma ofEntries_eq_of_perm (h : sources.Unambiguous)
    (hv : sources.vars.mapM variableEntry = .ok vars)
    (hcomponents : (successes (sources.components.map componentEntry)).Perm components')
    (hjourneys : journeys.Perm journeys') (hvars : vars.Perm vars') :
    Lookups.ofEntries (successes (sources.components.map componentEntry)) journeys vars =
      Lookups.ofEntries components' journeys' vars' := by
  have hfeatures : (ofFeatures (successes (sources.components.map componentEntry))).index =
      (ofFeatures components').index := by
    refine OrderedMap.ext_get? fun feature => get?_declared_of_perm hcomponents ?_
    intro a ha b hb hfa hfb
    obtain ⟨c, hc, hca⟩ := mem_successes.mp ha
    obtain ⟨d, hd, hdb⟩ := mem_successes.mp hb
    obtain ⟨hfile, hfeatures⟩ := features_of_componentEntry hca
    obtain ⟨hfile', hfeatures'⟩ := features_of_componentEntry hdb
    rw [name_of_componentEntry hca, name_of_componentEntry hdb]
    exact h.features c hc d hd hfile hfile' feature (OrderedSet.mem_def.mpr (hfeatures ▸ hfa))
      (OrderedSet.mem_def.mpr (hfeatures' ▸ hfb))
  have hvalues : (ofValues vars).index = (ofValues vars').index := by
    refine OrderedMap.ext_get? fun value => get?_declared_of_perm hvars ?_
    intro a ha b hb hva hvb
    obtain ⟨v, hv', hok⟩ := (mem_of_mapM_ok hv).mp ha
    obtain ⟨w, hw', hok'⟩ := (mem_of_mapM_ok hv).mp hb
    obtain ⟨hname, hvalues⟩ := of_variableEntry hok
    obtain ⟨hname', hvalues'⟩ := of_variableEntry hok'
    rw [hname, hname']
    exact h.values v hv' w hw' value (OrderedSet.mem_def.mpr (hvalues ▸ hva))
      (OrderedSet.mem_def.mpr (hvalues' ▸ hvb))
  have hnames : OrderedSet.ofList (journeys.map Report.JourneyEntry.name) =
      OrderedSet.ofList (journeys'.map Report.JourneyEntry.name) :=
    OrderedSet.ofList_congr fun _ => (hjourneys.map _).mem_iff
  rw [Lookups.ofEntries, Lookups.ofEntries, hfeatures, hvalues, hnames]

end Entries

/-! ## Groups -/

/-- **Merging comes to the same**: to the same example or to the same problem. -/
inductive SameMerged :
    Except Problem Report.ExampleEntry → Except Problem Report.ExampleEntry → Prop
  | entries {a b : Report.ExampleEntry} (h : a.SameButOrder b) : SameMerged (.ok a) (.ok b)
  | problem (problem : Problem) : SameMerged (.error problem) (.error problem)

section Groups

variable {lookups : Lookups} {name : String} {group group' : List Example}

/-- The places of a group are the same in any order; where one is missing, the name of the group
is all that is said about it. -/
lemma places_of_perm (hperm : group.Perm group') (hname : ∀ e ∈ group, e.name = name) :
    (∃ places places',
      group.mapM (fun e => requirePlace .ofExample e.name e.location) = .ok places ∧
      group'.mapM (fun e => requirePlace .ofExample e.name e.location) = .ok places' ∧
      places.Perm places') ∨
    group.mapM (fun e => requirePlace .ofExample e.name e.location) =
        .error (.missingFile .ofExample name) ∧
      group'.mapM (fun e => requirePlace .ofExample e.name e.location) =
        .error (.missingFile .ofExample name) := by
  have hasks := asksForFile_requirePlace .ofExample Example.name Example.location
  have hfails : ∀ {examples : List Example}, (∀ e ∈ examples, e.name = name) →
      (¬ ∀ e ∈ examples, e.location.file ≠ none) →
      examples.mapM (fun e => requirePlace .ofExample e.name e.location) =
        .error (.missingFile .ofExample name) := by
    intro examples hnames hmissing
    obtain ⟨e, he⟩ := exists_find?_unplaced hmissing
    rw [hasks.mapM_error he, hnames e (List.mem_of_find?_eq_some he)]
  by_cases hplaced : ∀ e ∈ group, e.location.file ≠ none
  · obtain ⟨places, hplaces⟩ := hasks.exists_mapM_ok hplaced
    obtain ⟨places', hplaces', hsame⟩ := exists_mapM_ok_of_perm hperm.symm hplaces
    exact .inl ⟨places, places', hplaces, hplaces', hsame.symm⟩
  · have hname' : ∀ e ∈ group', e.name = name := fun e he => hname e (hperm.mem_iff.mpr he)
    have hplaced' : ¬ ∀ e ∈ group', e.location.file ≠ none := fun hall =>
      hplaced fun e he => hall e (hperm.mem_iff.mp he)
    exact .inr ⟨hfails hname hplaced, hfails hname' hplaced'⟩

/-- **A group is merged alike in any order.**

**Proof sketch.** Category, values, tags and kind are taken from what is in the group, so they are
the same. Only the places are listed in the order of the group. -/
lemma sameMerged_of_perm (hperm : group.Perm group') (hname : ∀ e ∈ group, e.name = name) :
    SameMerged (mergeExamples lookups name group) (mergeExamples lookups name group') := by
  have hcategory := findCategory_congr lookups name fun _ => hperm.mem_iff
  have hvalues := gather_congr (fun _ => hperm.mem_iff) Example.values
  have hkind : ExampleKind.merge (group.map Example.kind) =
      ExampleKind.merge (group'.map Example.kind) :=
    ExampleKind.merge_congr fun _ => (hperm.map Example.kind).mem_iff
  cases hfound : findCategory lookups name group with
  | error problem =>
    rw [mergeExamples_of_category_error hfound,
      mergeExamples_of_category_error (hcategory.symm.trans hfound)]
    exact .problem problem
  | ok category =>
    have hfound' := hcategory.symm.trans hfound
    rcases places_of_perm hperm hname with ⟨places, places', hplaces, hplaces', hsame⟩ |
      ⟨hmissing, hmissing'⟩
    · cases hresolved : resolveValues lookups.values (gather Example.values group) with
      | error problem =>
        rw [mergeExamples_of_value_error hfound hplaces hresolved,
          mergeExamples_of_value_error hfound' hplaces' (hvalues ▸ hresolved)]
        exact .problem problem
      | ok bindings =>
        rw [mergeExamples_eq_ok_iff.mpr
            ⟨category, places, bindings, hfound, hplaces, hresolved, rfl⟩,
          mergeExamples_eq_ok_iff.mpr
            ⟨category, places', bindings, hfound', hplaces', hvalues ▸ hresolved, rfl⟩]
        have htags := gather_congr (fun _ => hperm.mem_iff) Example.tags
        exact .entries ⟨rfl, rfl, rfl, htags, hkind, hsame⟩
    · rw [mergeExamples_of_place_error hfound hmissing,
        mergeExamples_of_place_error hfound' hmissing']
      exact .problem _

/-- What comes of several groups is the same if it is for each of them. -/
lemma forall₂_successes {names : List String}
    {merge merge' : String → Except Problem Report.ExampleEntry}
    (h : ∀ name ∈ names, SameMerged (merge name) (merge' name)) :
    List.Forall₂ Report.ExampleEntry.SameButOrder (successes (names.map merge))
        (successes (names.map merge')) ∧
      failures (names.map merge) = failures (names.map merge') := by
  induction names with
  | nil => exact ⟨.nil, rfl⟩
  | cons name names ih =>
    obtain ⟨hname, hnames⟩ := List.forall_mem_cons.mp h
    obtain ⟨hsuccesses, hfailures⟩ := ih hnames
    rw [List.map_cons, List.map_cons]
    cases hfirst : merge name with
    | ok a =>
      cases hfirst' : merge' name with
      | error problem =>
        rw [hfirst, hfirst'] at hname
        cases hname
      | ok b =>
        rw [hfirst, hfirst'] at hname
        cases hname with
        | entries hsame => exact ⟨.cons hsame hsuccesses, hfailures⟩
    | error problem =>
      rw [hfirst] at hname
      cases hfirst' : merge' name with
      | ok b =>
        rw [hfirst'] at hname
        cases hname
      | error problem' =>
        rw [hfirst'] at hname
        cases hname
        exact ⟨hsuccesses, congrArg (problem :: ·) hfailures⟩

end Groups

/-- The names of examples are the same in any order. -/
lemma firstSeenNames_perm {examples examples' : List Example} (hperm : examples.Perm examples') :
    (firstSeenNames examples).Perm (firstSeenNames examples') := by
  refine (List.perm_ext_iff_of_nodup (nodup_firstSeenNames _) (nodup_firstSeenNames _)).mpr ?_
  intro name
  simp only [mem_firstSeenNames, hperm.mem_iff]

/-- **What becomes of the groups of examples is the same in any order.**

**Proof sketch.** The names are the same, up to their order. For each of them the group is the same
up to its order, and so is what it is merged to. -/
lemma mergedGroups_of_perm (lookups : Lookups) {examples examples' : List Example}
    (hperm : examples.Perm examples') :
    (∃ reordered, (successes (mergedGroups lookups examples)).Perm reordered ∧
      List.Forall₂ Report.ExampleEntry.SameButOrder reordered
        (successes (mergedGroups lookups examples'))) ∧
      (failures (mergedGroups lookups examples)).Perm
        (failures (mergedGroups lookups examples')) := by
  have hnames := firstSeenNames_perm hperm
  have hgroups : ∀ name ∈ firstSeenNames examples',
      SameMerged (mergeExamples lookups name (examplesNamed name examples))
        (mergeExamples lookups name (examplesNamed name examples')) := fun name _ =>
    sameMerged_of_perm (hperm.filter _) fun e he => (mem_examplesNamed.mp he).2
  obtain ⟨hsuccesses, hfailures⟩ := forall₂_successes hgroups
  have hmerged : (mergedGroups lookups examples).Perm ((firstSeenNames examples').map fun name =>
      mergeExamples lookups name (examplesNamed name examples)) := hnames.map _
  exact ⟨⟨_, hmerged.filterMap _, hsuccesses⟩, (hmerged.filterMap _).trans (.of_eq hfailures)⟩

/-! ## The collation -/

namespace Sources.Reorders

variable {s t : Sources}

lemma symm (h : s.Reorders t) : t.Reorders s :=
  ⟨h.components.symm, h.crosscuts.symm, h.journeys.symm, h.examples.symm, h.vars.symm⟩

/-- The same entities are needed and have files. -/
lemma neededPlaced (h : s.Reorders t) (hs : s.NeededPlaced) : t.NeededPlaced :=
  ⟨fun v hv => hs.vars v (h.vars.mem_iff.mpr hv),
    fun c hc => hs.crosscuts c (h.crosscuts.mem_iff.mpr hc),
    fun j hj => hs.journeys j (h.journeys.mem_iff.mpr hj)⟩

end Sources.Reorders

/-- A collation that goes through comes to a report if there are no failures, and to problems
otherwise. -/
lemma sameButOrder_match {problems problems' : List Problem} {a b : Report} :
    problems.Perm problems' → a.SameButOrder b →
    SameButOrder
      (match problems with
        | [] => .ok a
        | problems => .error (.problems problems))
      (match problems' with
        | [] => .ok b
        | problems => .error (.problems problems)) := by
  intro hproblems hreports
  cases problems with
  | nil =>
    cases hproblems.nil_eq
    exact .reports hreports
  | cons problem problems =>
    cases problems' with
    | nil => cases hproblems.eq_nil
    | cons problem' problems' => exact .problems hproblems

/-- **A collation comes to the same in any order of its entities**, as long as each feature and each
value has one owner.

**Proof sketch.** An entity that is needed and has no file stops the collation wherever it stands.
Otherwise the entries are the same up to their order, so the lookups are equal. Then components
without a file are the same up to their order, and so is what becomes of the groups. -/
theorem collate_reordered (app : String) {s t : Sources} (h : s.Reorders t)
    (hs : s.Unambiguous) : SameButOrder (collate app s).result (collate app t).result := by
  by_cases hplaced : s.NeededPlaced
  · obtain ⟨vars, hv⟩ := asksForFile_variableEntry.exists_mapM_ok hplaced.vars
    obtain ⟨crosscuts, hc⟩ := asksForFile_crosscutEntry.exists_mapM_ok hplaced.crosscuts
    obtain ⟨journeys, hj⟩ := asksForFile_journeyEntry.exists_mapM_ok hplaced.journeys
    obtain ⟨vars', hv', hvars⟩ := exists_mapM_ok_of_perm h.vars.symm hv
    obtain ⟨crosscuts', hc', hcrosscuts⟩ := exists_mapM_ok_of_perm h.crosscuts.symm hc
    obtain ⟨journeys', hj', hjourneys⟩ := exists_mapM_ok_of_perm h.journeys.symm hj
    have hresults := h.components.map componentEntry
    have hcomponents : (successes (s.components.map componentEntry)).Perm
        (successes (t.components.map componentEntry)) := hresults.filterMap _
    have hlookups := ofEntries_eq_of_perm hs hv hcomponents hjourneys.symm hvars.symm
    obtain ⟨hmerged, hfailures⟩ := mergedGroups_of_perm
      (.ofEntries (successes (t.components.map componentEntry)) journeys' vars') h.examples
    rw [collate_of_needed app hv hc hj, collate_of_needed app hv' hc' hj']
    dsimp only
    rw [hlookups]
    have hleftOut : (failures (s.components.map componentEntry)).Perm
        (failures (t.components.map componentEntry)) := hresults.filterMap _
    refine sameButOrder_match (hleftOut.append hfailures) ?_
    exact ⟨rfl, hcomponents, hcrosscuts.symm, hjourneys.symm, hvars.symm, hmerged⟩
  · have hplaced' : ¬ t.NeededPlaced := fun ht => hplaced (h.symm.neededPlaced ht)
    obtain ⟨problem, hstops⟩ := exists_stopsAt hplaced
    obtain ⟨problem', hstops'⟩ := exists_stopsAt hplaced'
    rw [collate_of_stopsAt app hstops, collate_of_stopsAt app hstops']
    exact .aborted problem problem'

/-! ### A feature that one component declares twice -/

/-- A component that is declared in two files with a feature in common, a component without a file
that claims the same feature, and an example in two places. -/
def splitComponent : Sources where
  components := [
    ⟨"Booking", "Book a flight", ∅, .ofList ["Pay", "Search"], ⟨some "booking", 1⟩⟩,
    ⟨"Billing", "", ∅, .ofList ["Pay"], ⟨none, 8⟩⟩,
    ⟨"Booking", "Pay for it", ∅, .ofList ["Pay"], ⟨some "billing", 1⟩⟩]
  crosscuts := []
  journeys := [⟨"Checkout", "", ⟨some "checkout", 1⟩⟩]
  examples := [
    ⟨"A cat pays", "Pay", .ofList ["Cash"], ∅, .plain, ⟨some "pay", 1⟩⟩,
    ⟨"A dog runs", "Run", ∅, ∅, .todo, ⟨some "run", 3⟩⟩,
    ⟨"A cat pays", "Pay", ∅, .ofList ["cats"], .howTo, ⟨some "guide", 9⟩⟩]
  vars := [⟨"Means", .ofList ["Card", "Cash"], ⟨some "billing", 7⟩⟩]

/-- The same with components and examples from the end. -/
def splitComponentReversed : Sources :=
  { splitComponent with
    components := splitComponent.components.reverse
    examples := splitComponent.examples.reverse }

/-- The problems of both orders: the component without a file and the example without a category. -/
theorem collate_reordered_splitComponent :
    splitComponent.Reorders splitComponentReversed ∧ splitComponent.Unambiguous ∧
      SameButOrder (collate "Travel" splitComponent).result
        (collate "Travel" splitComponentReversed).result := by
  have hreorders : splitComponent.Reorders splitComponentReversed :=
    ⟨(List.reverse_perm _).symm, .refl _, .refl _, (List.reverse_perm _).symm, .refl _⟩
  have hfeatures : ∀ c ∈ splitComponent.components, ∀ d ∈ splitComponent.components,
      c.location.file ≠ none → d.location.file ≠ none → ∀ feature ∈ c.features.toList,
        feature ∈ d.features.toList → c.name = d.name := by decide +kernel
  have hvalues : ∀ v ∈ splitComponent.vars, ∀ w ∈ splitComponent.vars, ∀ value ∈ v.values.toList,
      value ∈ w.values.toList → v.name = w.name := by decide +kernel
  have hunambiguous : splitComponent.Unambiguous := ⟨hfeatures, hvalues⟩
  exact ⟨hreorders, hunambiguous, collate_reordered "Travel" hreorders hunambiguous⟩

end Collation

end LivingDocs
