import LivingDocs.Proofs.Merging

/-!
# What is left of a group

The examples of one name become one entry of the report. Several of them may make use of values of
one variable, and then these values overwrite each other. Since the values of the whole group are
gathered before they are resolved, it is not their place in the group that decides which of them
stays: it is the greatest one. Nor do tags and kind depend on the order of the group or on
repetitions in it, and only the places tell of each example on its own.

## Main definitions

* `LivingDocs.Report.Place.location` — a place as the location of an entity.
* `LivingDocs.Collation.Combines` — what an entry has to do with a group of examples.

## Main results

* `LivingDocs.Collation.map_location_places` — the places of a group.
* `LivingDocs.Collation.get?_bindings_eq_some_iff` — the value that stays.
* `LivingDocs.Collation.combines_of_mergeExamples` — a merged entry combines its group.
-/

set_option autoImplicit false

namespace LivingDocs

/-! ## Places -/

/-- A place as the location of an entity whose file is known. -/
def Report.Place.location (place : Report.Place) : Location := ⟨some place.file, place.line⟩

namespace Collation

/-- The place of an entity is its location. -/
lemma location_of_requirePlace {subject : Subject} {name : String} {location : Location}
    {place : Report.Place} (h : requirePlace subject name location = .ok place) :
    place.location = location := by
  obtain ⟨file, line⟩ := location
  cases file with
  | none => cases h
  | some file =>
    cases h
    rfl

section Group

variable {lookups : Lookups} {name : String} {group : List Example} {entry : Report.ExampleEntry}

/-- **The places of a merged entry are those of its examples**, one by one. -/
lemma map_location_places (h : mergeExamples lookups name group = .ok entry) :
    entry.places.map Report.Place.location = group.map Example.location := by
  obtain ⟨_, places, _, _, hplaces, _, rfl⟩ := mergeExamples_eq_ok_iff.mp h
  exact map_eq_map_of_ok (map_eq_of_mapM_ok hplaces) fun e _ place hplace =>
    location_of_requirePlace hplace

/-! ## Values -/

/-- A variable is bound exactly if the group makes use of a value that belongs to it. -/
lemma get?_bindings_ne_none_iff (h : mergeExamples lookups name group = .ok entry)
    {owner : String} :
    entry.bindings.get? owner ≠ none ↔
      ∃ e ∈ group, ∃ value ∈ e.values, lookups.values.get? value = some owner := by
  obtain ⟨_, _, bindings, _, _, hbindings, rfl⟩ := mergeExamples_eq_ok_iff.mp h
  rw [get?_resolveValues hbindings, ne_eq, List.find?_eq_none]
  simp only [List.mem_reverse, mem_gather, decide_eq_true_eq]
  push Not
  constructor
  · rintro ⟨value, ⟨e, he, hvalue⟩, howner⟩
    exact ⟨e, he, value, hvalue, howner⟩
  · rintro ⟨e, he, value, hvalue, howner⟩
    exact ⟨value, ⟨e, he, hvalue⟩, howner⟩

/-- **The value that stays is the greatest one** that belongs to its variable.

**Proof sketch.** Values are bound in ascending order, so a variable is bound to the last of its
values in that order. -/
lemma get?_bindings_eq_some_iff (h : mergeExamples lookups name group = .ok entry)
    {owner value : String} :
    entry.bindings.get? owner = some value ↔
      IsGreatest {v | (∃ e ∈ group, v ∈ e.values) ∧ lookups.values.get? v = some owner} value := by
  obtain ⟨_, _, bindings, _, _, hbindings, rfl⟩ := mergeExamples_eq_ok_iff.mp h
  rw [get?_resolveValues hbindings, gather, OrderedSet.find?_reverse_eq_some_iff]
  have hvalues : {v | v ∈ OrderedSet.ofList (group.flatMap fun e => e.values.toList) ∧
        decide (lookups.values.get? v = some owner) = true} =
      {v | (∃ e ∈ group, v ∈ e.values) ∧ lookups.values.get? v = some owner} := by
    ext v
    simp only [Set.mem_ofPred_eq, OrderedSet.mem_ofList, List.mem_flatMap, decide_eq_true_eq]
    rfl
  rw [hvalues]

/-! ## The whole entry -/

/-- The elements of the sets of a group are listed in ascending order. -/
lemma pairwise_gather (field : Example → OrderedSet String) (group : List Example) :
    (gather field group).Pairwise (· < ·) :=
  (OrderedSet.ofList (group.flatMap fun e => (field e).toList)).ascending.imp fun hlt =>
    compare_lt_iff_lt.mp hlt

/-- **A group with the same examples is merged to the same entry**, except for its places, however
often and in whatever order the examples stand in it.

**Proof sketch.** Category, values, tags and kind are taken from what is in the group. Each of its
examples has a place, so the other group has its places as well. -/
lemma mergeExamples_of_mem_iff (h : mergeExamples lookups name group = .ok entry)
    {other : List Example} (hother : ∀ e, e ∈ other ↔ e ∈ group) :
    ∃ entry', mergeExamples lookups name other = .ok entry' ∧
      { entry' with places := entry.places } = entry := by
  obtain ⟨category, places, bindings, hcategory, hplaces, hbindings, rfl⟩ :=
    mergeExamples_eq_ok_iff.mp h
  have hplaced : ∀ e ∈ other, ∃ place,
      requirePlace .ofExample e.name e.location = .ok place := fun e he =>
    exists_ok_of_mapM_ok hplaces ((hother e).mp he)
  obtain ⟨places', hplaces'⟩ := exists_mapM_ok hplaced
  have hkinds : ExampleKind.merge (other.map Example.kind) =
      ExampleKind.merge (group.map Example.kind) :=
    ExampleKind.merge_congr fun kind => by simp only [List.mem_map, hother]
  refine ⟨_, mergeExamples_eq_ok_iff.mpr ⟨category, places', bindings, ?_, hplaces', ?_, rfl⟩, ?_⟩
  · rw [findCategory_congr lookups name hother, hcategory]
  · rw [gather_congr hother, hbindings]
  · rw [gather_congr hother, hkinds]

/-- **An entry combines a group of examples.** -/
structure Combines (lookups : Lookups) (name : String) (group : List Example)
    (entry : Report.ExampleEntry) : Prop where
  named : entry.name = name
  /-- A variable is bound exactly if some example makes use of a value that belongs to it. -/
  bound : ∀ owner, entry.bindings.get? owner ≠ none ↔
    ∃ e ∈ group, ∃ value ∈ e.values, lookups.values.get? value = some owner
  /-- It is bound to the greatest such value of the whole group. -/
  greatest : ∀ owner value, entry.bindings.get? owner = some value ↔
    IsGreatest {v | (∃ e ∈ group, v ∈ e.values) ∧ lookups.values.get? v = some owner} value
  /-- The tags are those of all examples. -/
  tags : ∀ tag, tag ∈ entry.tags ↔ ∃ e ∈ group, tag ∈ e.tags
  /-- Each tag is less than the ones behind it. -/
  tagOrder : entry.tags.Pairwise (· < ·)
  /-- What is still to be done prevails, then what instructs. -/
  kind : entry.kind =
    if ∃ e ∈ group, e.kind = .todo then .todo
    else if ∃ e ∈ group, e.kind = .howTo then .howTo else .plain
  /-- There is one place for each example, in their order. -/
  places : entry.places.map Report.Place.location = group.map Example.location
  /-- All but the places stays the same if the examples are reordered or repeated. -/
  unordered : ∀ other : List Example, (∀ e, e ∈ other ↔ e ∈ group) →
    ∃ entry', mergeExamples lookups name other = .ok entry' ∧
      { entry' with places := entry.places } = entry

/-- **A merged entry combines its group**, whatever it is resolved against. -/
theorem combines_of_mergeExamples (lookups : Lookups) (name : String) (group : List Example)
    (entry : Report.ExampleEntry) (h : mergeExamples lookups name group = .ok entry) :
    Combines lookups name group entry where
  named := name_of_mergeExamples h
  bound owner := get?_bindings_ne_none_iff h
  greatest owner value := get?_bindings_eq_some_iff h
  tags tag := by
    obtain ⟨_, _, _, _, _, _, rfl⟩ := mergeExamples_eq_ok_iff.mp h
    exact mem_gather
  tagOrder := by
    obtain ⟨_, _, _, _, _, _, rfl⟩ := mergeExamples_eq_ok_iff.mp h
    exact pairwise_gather Example.tags group
  kind := by
    obtain ⟨_, _, _, _, _, _, rfl⟩ := mergeExamples_eq_ok_iff.mp h
    simp [ExampleKind.merge_eq, ExampleKind.highest]
  places := map_location_places h
  unordered other hother := mergeExamples_of_mem_iff h hother

end Group

/-! ### Values that overwrite each other -/

/-- Two means of payment, a currency, and a feature to pay with them. -/
def paying : Lookups where
  features := .ofList [("Pay", "Billing")]
  journeys := ∅
  values := .ofList [("Card", "Means"), ("Cash", "Means"), ("Euro", "Currency")]

/-- An example in two places. The later one makes use of the lesser means of payment. -/
def payingGroup : List Example := [
  ⟨"A cat pays", "Pay", .ofList ["Cash"], .ofList ["cats"], .howTo, ⟨some "pay", 1⟩⟩,
  ⟨"A cat pays", "Pay", .ofList ["Euro", "Card"], .ofList ["cards", "cats"], .plain,
    ⟨some "guide", 9⟩⟩]

/-- What is left of the two. -/
def payingEntry : Report.ExampleEntry where
  category := .feature "Billing" "Pay"
  name := "A cat pays"
  bindings := .ofList [("Currency", "Euro"), ("Means", "Cash")]
  tags := ["cards", "cats"]
  kind := .howTo
  places := [⟨"pay", 1⟩, ⟨"guide", 9⟩]

/-- The greater means of payment stays, although it comes first. -/
theorem combines_payingEntry :
    mergeExamples paying "A cat pays" payingGroup = .ok payingEntry ∧
      Combines paying "A cat pays" payingGroup payingEntry :=
  ⟨rfl, combines_of_mergeExamples paying "A cat pays" payingGroup payingEntry rfl⟩

end Collation

end LivingDocs
