import LivingDocs.Collation.Basic
import LivingDocs.Proofs.Ordered
import LivingDocs.Proofs.Results

/-!
# Merging the examples of one name

The category of a group, its places and its values are looked at one after the other, and the
first of them that cannot be resolved is the problem of the group. Each of the three steps has its
own laws here: what it takes to succeed, what a success says, and which problem a failure is.

## Main definitions

* `LivingDocs.ExampleKind.highest` — the highest kind among several.
* `LivingDocs.Collation.Lookups.Resolves` — a category is a feature or a journey.

## Main results

* `LivingDocs.ExampleKind.merge_eq` — the kind of several examples.
* `LivingDocs.Collation.findCategory_of_mixed`, `LivingDocs.Collation.findCategory_of_unresolved`,
  `LivingDocs.Collation.exists_findCategory` — the category of a group.
* `LivingDocs.Collation.get?_resolveValues`, `LivingDocs.Collation.resolveValues_sound`,
  `LivingDocs.Collation.exists_resolveValues`, `LivingDocs.Collation.resolveValues_error` — the
  values of a group.
* `LivingDocs.Collation.mergeExamples_eq_ok_iff` — the three steps taken together.
-/

set_option autoImplicit false

namespace LivingDocs

/-! ## Kinds -/

namespace ExampleKind

/-- The highest kind among several: what is still to be done comes before what instructs, and that
before what just documents. -/
def highest (kinds : List ExampleKind) : ExampleKind :=
  if todo ∈ kinds then todo else if howTo ∈ kinds then howTo else plain

/-- The run over kinds keeps the highest one so far. -/
lemma foldl_max_eq (start : ExampleKind) (kinds : List ExampleKind) :
    kinds.foldl max start = highest (start :: kinds) := by
  induction kinds generalizing start with
  | nil => cases start <;> rfl
  | cons kind kinds ih =>
    have hmax : highest (max start kind :: kinds) = highest (start :: kind :: kinds) := by
      cases start <;> cases kind <;> simp [highest, max, rank]
    rw [List.foldl_cons, ih, hmax]

/-- **The kind of several examples is the highest among theirs.** -/
theorem merge_eq (kinds : List ExampleKind) : merge kinds = highest kinds := by
  rw [merge, foldl_max_eq]
  simp [highest]

/-- The kind of several examples depends only on which kinds there are. -/
lemma merge_congr {kinds kinds' : List ExampleKind} (h : ∀ kind, kind ∈ kinds ↔ kind ∈ kinds') :
    merge kinds = merge kinds' := by
  simp only [merge_eq, highest, h]

end ExampleKind

namespace Collation

open Std

/-! ## Places -/

section Places

variable {subject : Subject} {name : String} {location : Location}

/-- There is a place exactly when the file is known. -/
lemma exists_requirePlace_iff :
    (∃ place, requirePlace subject name location = .ok place) ↔ location.file ≠ none := by
  unfold requirePlace
  cases location.file <;> simp

/-- Without a file there is the problem of a missing file. -/
lemma requirePlace_eq_error (h : location.file = none) :
    requirePlace subject name location = .error (.missingFile subject name) := by
  rw [requirePlace, h]

end Places

/-! ## Categories -/

/-- **Whether a category is resolved**: it is a feature of a component, or a journey. -/
def Lookups.Resolves (lookups : Lookups) (category : String) : Prop :=
  lookups.features.get? category ≠ none ∨ category ∈ lookups.journeys

section Categories

variable {lookups : Lookups} {name category : String} {group : List Example}

/-- The examples of a group share a category exactly when it is the only one among theirs. -/
lemma categories_eq_singleton_iff (hne : group ≠ []) :
    (OrderedSet.ofList (group.map Example.category)).toList = [category] ↔
      ∀ e ∈ group, e.category = category := by
  simp only [OrderedSet.toList_eq_singleton_iff, OrderedSet.mem_ofList, List.mem_map]
  constructor
  · intro h e he
    exact (h e.category).mp ⟨e, he, rfl⟩
  · intro h x
    constructor
    · rintro ⟨e, he, rfl⟩
      exact h e he
    · rintro rfl
      obtain ⟨e, he⟩ := List.exists_mem_of_ne_nil group hne
      exact ⟨e, he, h e he⟩

/-- The category of a group depends only on which examples are in it. -/
lemma findCategory_congr {group' : List Example} (lookups : Lookups) (name : String)
    (h : ∀ e, e ∈ group ↔ e ∈ group') :
    findCategory lookups name group = findCategory lookups name group' := by
  have hcategories : OrderedSet.ofList (group.map Example.category) =
      OrderedSet.ofList (group'.map Example.category) :=
    OrderedSet.ofList_congr fun x => by simp only [List.mem_map, h]
  rw [findCategory, findCategory, hcategories]

/-- Two categories in one group are a problem of the group. -/
lemma findCategory_of_mixed {a b : Example} (ha : a ∈ group) (hb : b ∈ group)
    (h : a.category ≠ b.category) :
    findCategory lookups name group = .error (.multipleCategories name) := by
  unfold findCategory
  split
  · next category heq =>
    have hall := (categories_eq_singleton_iff (List.ne_nil_of_mem ha)).mp heq
    exact absurd ((hall a ha).trans (hall b hb).symm) h
  · rfl

/-- A shared category is looked up among the features first and among the journeys second. -/
lemma findCategory_of_shared (hne : group ≠ []) (h : ∀ e ∈ group, e.category = category) :
    findCategory lookups name group =
      match lookups.features.get? category with
      | some component => .ok (.feature component category)
      | none =>
        if category ∈ lookups.journeys.toList then .ok (.journey category)
        else .error (.unresolvedCategory category name) := by
  have hsingle := (categories_eq_singleton_iff hne).mpr h
  unfold findCategory
  split
  · next shared heq =>
    obtain rfl : category = shared := List.singleton_inj.mp (hsingle.symm.trans heq)
    rfl
  · next hnone => exact absurd hsingle (hnone category)

/-- A shared category that is not resolved is a problem of the group. -/
lemma findCategory_of_unresolved (hne : group ≠ []) (h : ∀ e ∈ group, e.category = category)
    (hres : ¬ lookups.Resolves category) :
    findCategory lookups name group = .error (.unresolvedCategory category name) := by
  obtain ⟨hfeature, hjourney⟩ := not_or.mp hres
  rw [findCategory_of_shared hne h, not_not.mp hfeature]
  exact if_neg hjourney

/-- A shared category that is resolved is found. -/
lemma exists_findCategory (hne : group ≠ []) (h : ∀ e ∈ group, e.category = category)
    (hres : lookups.Resolves category) : ∃ found, findCategory lookups name group = .ok found := by
  rw [findCategory_of_shared hne h]
  cases hfeature : lookups.features.get? category with
  | some component => exact ⟨_, rfl⟩
  | none =>
    have hjourney : category ∈ lookups.journeys.toList :=
      hres.resolve_left (not_not.mpr hfeature)
    exact ⟨.journey category, if_pos hjourney⟩

/-- **A category that is found is in the lookups**: a feature under its component, and a journey
only where no feature has that name.

**Proof sketch.** A category is only found for a group that shares one, and then the answer is read
off the order of the two searches. -/
lemma findCategory_sound {found : Report.Category}
    (h : findCategory lookups name group = .ok found) :
    (∀ component feature, found = .feature component feature →
      lookups.features.get? feature = some component) ∧
    (∀ journey, found = .journey journey →
      lookups.features.get? journey = none ∧ journey ∈ lookups.journeys) := by
  unfold findCategory at h
  split at h
  · split at h
    · next component hfeature =>
      cases h
      refine ⟨?_, by simp⟩
      rintro _ _ ⟨rfl, rfl⟩
      exact hfeature
    · next hnone =>
      split at h
      · next hjourney =>
        cases h
        refine ⟨by simp, ?_⟩
        rintro _ ⟨rfl⟩
        exact ⟨hnone, hjourney⟩
      · cases h
  · cases h

end Categories

/-! ## Values -/

/-- The elements of the sets of a group are those of the sets of its examples. -/
@[simp] lemma mem_gather {field : Example → OrderedSet String} {group : List Example} {x : String} :
    x ∈ gather field group ↔ ∃ e ∈ group, x ∈ field e := by
  rw [gather, ← OrderedSet.mem_def, OrderedSet.mem_ofList, List.mem_flatMap]
  rfl

/-- What the sets of a group hold depends only on which examples are in it. -/
lemma gather_congr {group group' : List Example} (h : ∀ e, e ∈ group ↔ e ∈ group')
    (field : Example → OrderedSet String) : gather field group = gather field group' :=
  congrArg OrderedSet.toList
    (OrderedSet.ofList_congr fun x => by simp only [List.mem_flatMap, h])

/-- Puts one value under the name of its variable. -/
def bindValue (index : OrderedMap String String) (bindings : OrderedMap String String)
    (value : String) : Except Problem (OrderedMap String String) :=
  match index.get? value with
  | some name => .ok (bindings.insert name value)
  | none => .error (.unresolvedValue value)

/-- Values are put one after the other. -/
lemma resolveValues_eq (index : OrderedMap String String) (values : List String) :
    resolveValues index values = values.foldlM (bindValue index) ∅ := rfl

section Values

variable {index : OrderedMap String String} {values : List String}

/-- One step of the run: a value whose variable is known is put under it. -/
lemma bindValue_of_get? {bindings : OrderedMap String String} {value name : String}
    (h : index.get? value = some name) :
    bindValue index bindings value = .ok (bindings.insert name value) := by
  rw [bindValue, h]

/-- After a run over values, a name is bound to the last value that belongs to it, or else to what
it was bound to before.

**Proof sketch.** Induction on the values. The first one is bound to its name, and the rest of the
run overwrites that binding exactly if a later value belongs to the same name. -/
lemma get?_foldlM_bindValue {start bindings : OrderedMap String String}
    (h : values.foldlM (bindValue index) start = .ok bindings) (name : String) :
    bindings.get? name =
      (values.reverse.find? fun v => decide (index.get? v = some name)).or (start.get? name) := by
  induction values generalizing start with
  | nil =>
    cases h
    rfl
  | cons v values ih =>
    rw [List.foldlM_cons, bind_eq_ok_iff] at h
    obtain ⟨next, hnext, h⟩ := h
    unfold bindValue at hnext
    split at hnext
    · next owner howner =>
      cases hnext
      rw [ih h, OrderedMap.get?_insert, List.reverse_cons, List.find?_append, Option.or_assoc]
      congr 1
      by_cases hname : name = owner
      · simp [hname, howner]
      · simp [hname, howner, Ne.symm hname]
    · cases hnext

/-- **A name is bound to the last value that belongs to it.** -/
theorem get?_resolveValues {bindings : OrderedMap String String}
    (h : resolveValues index values = .ok bindings) (name : String) :
    bindings.get? name =
      values.reverse.find? fun v => decide (index.get? v = some name) := by
  rw [resolveValues_eq] at h
  rw [get?_foldlM_bindValue h, OrderedMap.get?_empty, Option.or_none]

/-- **Every binding is a value under the name of its variable.** -/
theorem resolveValues_sound {bindings : OrderedMap String String}
    (h : resolveValues index values = .ok bindings) {name value : String}
    (hmem : (name, value) ∈ bindings.toList) : value ∈ values ∧ index.get? value = some name := by
  rw [OrderedMap.mem_toList_iff, get?_resolveValues h] at hmem
  exact ⟨List.mem_reverse.mp (List.mem_of_find?_eq_some hmem), by
    simpa using List.find?_some hmem⟩

/-- Values are resolved if each of them is declared. -/
lemma exists_resolveValues (h : ∀ v ∈ values, index.get? v ≠ none) :
    ∃ bindings, resolveValues index values = .ok bindings := by
  rw [resolveValues_eq]
  generalize (∅ : OrderedMap String String) = start
  induction values generalizing start with
  | nil => exact ⟨start, rfl⟩
  | cons v values ih =>
    obtain ⟨name, hname⟩ := Option.ne_none_iff_exists'.mp (h v List.mem_cons_self)
    rw [List.foldlM_cons, bindValue_of_get? hname]
    exact ih (fun w hw => h w (List.mem_cons_of_mem v hw)) (start.insert name v)

/-- **The first value that is not declared is the problem** of a run over values.

**Proof sketch.** Induction on the values, with any bindings to start from. The search and the run
pass over the same values, those that are declared, and stop at the same one. -/
lemma resolveValues_error {value : String}
    (h : values.find? (fun v => (index.get? v).isNone) = some value) :
    resolveValues index values = .error (.unresolvedValue value) := by
  rw [resolveValues_eq]
  generalize (∅ : OrderedMap String String) = start
  induction values generalizing start with
  | nil => cases h
  | cons v values ih =>
    rw [List.foldlM_cons]
    cases hv : index.get? v with
    | none =>
      rw [List.find?_cons_of_pos (by simp [hv])] at h
      cases h
      rw [bindValue, hv]
      rfl
    | some name =>
      rw [List.find?_cons_of_neg (by simp [hv])] at h
      rw [bindValue_of_get? hv]
      exact ih h (start.insert name v)

end Values

/-! ## All three steps -/

section Merge

variable {lookups : Lookups} {name : String} {group : List Example}

/-- **A group is merged exactly when each of the three steps succeeds.** -/
theorem mergeExamples_eq_ok_iff {entry : Report.ExampleEntry} :
    mergeExamples lookups name group = .ok entry ↔
      ∃ category places bindings,
        findCategory lookups name group = .ok category ∧
        group.mapM (fun e => requirePlace .ofExample e.name e.location) = .ok places ∧
        resolveValues lookups.values (gather Example.values group) = .ok bindings ∧
        entry = ⟨category, name, bindings, gather Example.tags group,
          ExampleKind.merge (group.map Example.kind), places⟩ := by
  simp only [mergeExamples, bind_eq_ok_iff]
  constructor
  · rintro ⟨category, hcategory, places, hplaces, bindings, hbindings, h⟩
    cases h
    exact ⟨category, places, bindings, hcategory, hplaces, hbindings, rfl⟩
  · rintro ⟨category, places, bindings, hcategory, hplaces, hbindings, rfl⟩
    exact ⟨category, hcategory, places, hplaces, bindings, hbindings, rfl⟩

/-- A merged example has the name of its group. -/
lemma name_of_mergeExamples {entry : Report.ExampleEntry}
    (h : mergeExamples lookups name group = .ok entry) : entry.name = name := by
  obtain ⟨_, _, _, _, _, _, rfl⟩ := mergeExamples_eq_ok_iff.mp h
  rfl

/-- The category is looked at first. -/
lemma mergeExamples_of_category_error {problem : Problem}
    (h : findCategory lookups name group = .error problem) :
    mergeExamples lookups name group = .error problem := by
  rw [mergeExamples, h]
  rfl

/-- The places are looked at once there is a category. -/
lemma mergeExamples_of_place_error {problem : Problem} {category : Report.Category}
    (hcategory : findCategory lookups name group = .ok category)
    (h : group.mapM (fun e => requirePlace .ofExample e.name e.location) = .error problem) :
    mergeExamples lookups name group = .error problem := by
  rw [mergeExamples, hcategory, h]
  rfl

/-- The values are looked at once there are a category and all places. -/
lemma mergeExamples_of_value_error {problem : Problem} {category : Report.Category}
    {places : List Report.Place} (hcategory : findCategory lookups name group = .ok category)
    (hplaces : group.mapM (fun e => requirePlace .ofExample e.name e.location) = .ok places)
    (h : resolveValues lookups.values (gather Example.values group) = .error problem) :
    mergeExamples lookups name group = .error problem := by
  rw [mergeExamples, hcategory, hplaces, h]
  rfl

end Merge

end Collation

end LivingDocs
