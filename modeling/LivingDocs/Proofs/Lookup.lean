import LivingDocs.Collation.Lookup
import Mathlib.Data.List.Induction
import Mathlib.Tactic.Lemma

/-!
# The last declaration counts

The lookup of declared items is built by one pass over the entries that declare them. Whatever the
pass has met before, an item belongs in the end to the last entry that declares it, and an item
that no entry declares belongs to none.

## Main definitions

* `LivingDocs.Collation.IsLast` — the last entry of a list that has some property.

## Main results

* `LivingDocs.Collation.get?_declared` — the lookup searches the entries from the end.
* `LivingDocs.Collation.get?_ofFeatures_eq_some_iff`,
  `LivingDocs.Collation.get?_ofFeatures_eq_none_iff` — what a feature belongs to.
* `LivingDocs.Collation.get?_ofValues_eq_some_iff`,
  `LivingDocs.Collation.get?_ofValues_eq_none_iff` — what a value belongs to.
-/

set_option autoImplicit false

namespace LivingDocs.Collation

open Std

section Declared

variable {α : Type}

/-- **The last entry of a list that has a property**: it has it, and no later entry does. -/
def IsLast (p : α → Prop) (entries : List α) (entry : α) : Prop :=
  ∃ before after, entries = before ++ entry :: after ∧ p entry ∧ ∀ other ∈ after, ¬ p other

/-- The last entry that has a property is one of the entries. -/
lemma IsLast.mem {p : α → Prop} {entries : List α} {entry : α} (h : IsLast p entries entry) :
    entry ∈ entries := by
  obtain ⟨before, after, rfl, -, -⟩ := h
  simp

/-- The last entry that has a property has it. -/
lemma IsLast.holds {p : α → Prop} {entries : List α} {entry : α} (h : IsLast p entries entry) :
    p entry := by
  obtain ⟨_, _, _, hp, _⟩ := h
  exact hp

/-- A search from the end finds the last entry that has the property. -/
lemma isLast_iff_find?_reverse {p : α → Prop} [DecidablePred p] {entries : List α} {entry : α} :
    IsLast p entries entry ↔ entries.reverse.find? (fun e => decide (p e)) = some entry := by
  rw [List.find?_eq_some_iff_append]
  constructor
  · rintro ⟨before, after, rfl, hp, hafter⟩
    exact ⟨by simpa using hp, after.reverse, before.reverse, by simp, by simpa using hafter⟩
  · rintro ⟨hp, after, before, heq, hafter⟩
    refine ⟨before.reverse, after.reverse, ?_, by simpa using hp, by simpa using hafter⟩
    rw [← List.reverse_reverse entries, heq]
    simp

/-- After one more declaration its item belongs to the new name, and all else to what it did. -/
lemma get?_declare (lookup : Lookup) (item name k : String) :
    (lookup.declare item name).index.get? k =
      if k = item then some name else lookup.index.get? k := by
  rw [Lookup.declare, OrderedMap.get?_insert]
  simp only [LawfulEqCmp.compare_eq_iff_eq]

/-- After the declarations of one entry its items belong to it, and all else to what it did. -/
lemma get?_foldl_declare (name k : String) (items : List String) (lookup : Lookup) :
    ((items.map fun item => (item, name)).foldl (fun l d => l.declare d.1 d.2)
        lookup).index.get? k =
      if k ∈ items then some name else lookup.index.get? k := by
  induction items generalizing lookup with
  | nil => simp
  | cons item items ih =>
    rw [List.map_cons, List.foldl_cons, ih, get?_declare]
    by_cases hk : k ∈ items <;> by_cases hi : k = item <;> simp [hk, hi]

variable (items : α → List String) (name : α → String)

/-- **The lookup searches the entries from the end.**

**Proof sketch.** Induction on the entries from the end. The declarations of the last entry come
last; an item among them belongs to that entry, and any other item to what it belongs to without
it. -/
theorem get?_declared (entries : List α) (k : String) :
    (Lookup.ofDeclarations
      (entries.flatMap fun e => (items e).map fun item => (item, name e))).index.get? k =
      (entries.reverse.find? fun e => decide (k ∈ items e)).map name := by
  induction entries using List.reverseRecOn with
  | nil => rfl
  | append_singleton entries entry ih =>
    rw [Lookup.ofDeclarations] at ih ⊢
    rw [List.flatMap_append, List.foldl_append, List.flatMap_singleton, get?_foldl_declare, ih,
      List.reverse_concat, List.find?_cons]
    by_cases hk : k ∈ items entry <;> simp [hk]

/-- An item belongs to the name of the last entry that declares it. -/
lemma get?_declared_eq_some_iff {entries : List α} {k owner : String} :
    (Lookup.ofDeclarations
      (entries.flatMap fun e => (items e).map fun item => (item, name e))).index.get? k =
        some owner ↔
      ∃ entry, IsLast (fun e => k ∈ items e) entries entry ∧ name entry = owner := by
  rw [get?_declared, Option.map_eq_some_iff]
  simp only [isLast_iff_find?_reverse]

/-- An item belongs to no name exactly when no entry declares it. -/
lemma get?_declared_eq_none_iff {entries : List α} {k : String} :
    (Lookup.ofDeclarations
      (entries.flatMap fun e => (items e).map fun item => (item, name e))).index.get? k = none ↔
      ∀ entry ∈ entries, k ∉ items entry := by
  rw [get?_declared, Option.map_eq_none_iff, List.find?_eq_none]
  simp

end Declared

/-! ## The two lookups of a report -/

/-- A feature belongs to the last component that declares it. -/
theorem get?_ofFeatures_eq_some_iff {components : List Report.ComponentEntry}
    {feature owner : String} :
    (ofFeatures components).index.get? feature = some owner ↔
      ∃ c, IsLast (fun c => feature ∈ c.features) components c ∧ c.name = owner :=
  get?_declared_eq_some_iff Report.ComponentEntry.features Report.ComponentEntry.name

/-- A feature belongs to no component exactly when none declares it. -/
theorem get?_ofFeatures_eq_none_iff {components : List Report.ComponentEntry} {feature : String} :
    (ofFeatures components).index.get? feature = none ↔
      ∀ c ∈ components, feature ∉ c.features :=
  get?_declared_eq_none_iff Report.ComponentEntry.features Report.ComponentEntry.name

/-- A value belongs to the last variable that declares it. -/
theorem get?_ofValues_eq_some_iff {entries : List Report.VariableEntry} {value owner : String} :
    (ofValues entries).index.get? value = some owner ↔
      ∃ v, IsLast (fun v => value ∈ v.values) entries v ∧ v.name = owner :=
  get?_declared_eq_some_iff Report.VariableEntry.values Report.VariableEntry.name

/-- A value belongs to no variable exactly when none declares it. -/
theorem get?_ofValues_eq_none_iff {entries : List Report.VariableEntry} {value : String} :
    (ofValues entries).index.get? value = none ↔ ∀ v ∈ entries, value ∉ v.values :=
  get?_declared_eq_none_iff Report.VariableEntry.values Report.VariableEntry.name

end LivingDocs.Collation
