import LivingDocs.OrderedMap
import Mathlib.Data.List.Nodup
import Mathlib.Data.String.Basic
import Mathlib.Order.Bounds.Basic

/-!
# Laws of ordered sets and maps

An ordered set is determined by its elements, and an ordered map by what its keys yield, since
both are kept as strictly ascending lists. The first element of a set that has some property is
the least one, and the last is the greatest.

## Main definitions

* `LivingDocs.OrderedSet.image` — the set of the images of all elements.

## Main results

* `LivingDocs.OrderedSet.ext_mem` — sets with the same elements are equal.
* `LivingDocs.OrderedSet.size_insert_of_not_mem` — a new element makes a set larger by one.
* `LivingDocs.OrderedSet.toList_eq_singleton_iff` — sets of one element.
* `LivingDocs.OrderedSet.isLeast_of_find?`, `LivingDocs.OrderedSet.find?_reverse_eq_some_iff` — a
  search through a set finds the least element, and one from the end the greatest.
* `LivingDocs.OrderedSet.ofList_toList`, `LivingDocs.OrderedMap.ofList_toList` — a set or a map is
  put together again from what it lists.
* `LivingDocs.OrderedMap.mem_toList_iff` — the pairs of a map are what its keys yield.
* `LivingDocs.OrderedMap.ext_get?` — maps whose keys yield the same values are equal.
-/

set_option autoImplicit false

namespace LivingDocs

open Std

/-- No element of an ascending list stands twice. -/
lemma Ascending.nodup {α : Type} [Ord α] [ReflOrd α] {xs : List α} (h : Ascending xs) :
    xs.Nodup :=
  h.imp fun {a b} hab heq => by
    subst heq
    rw [ReflOrd.compare_self] at hab
    cases hab

/-- An element that is not in a list yet makes it longer by one. -/
lemma length_insertAscending_of_not_mem {α : Type} [Ord α] [LawfulEqOrd α] {a : α}
    {xs : List α} (h : a ∉ xs) : (insertAscending a xs).length = xs.length + 1 := by
  induction xs with
  | nil => rfl
  | cons b xs ih =>
    obtain ⟨hb, hxs⟩ := not_or.mp (List.mem_cons.not.mp h)
    rw [insertAscending]
    split
    · rfl
    · next heq => exact absurd (LawfulEqOrd.eq_of_compare heq) hb
    · rw [List.length_cons, ih hxs, List.length_cons]

namespace OrderedSet

variable {α : Type} [Ord α]

/-- **A new element makes a set larger by one.** -/
lemma size_insert_of_not_mem [TransOrd α] [LawfulEqOrd α] {s : OrderedSet α} {a : α}
    (h : ¬ a ∈ s) : (s.insert a).size = s.size + 1 :=
  length_insertAscending_of_not_mem h

/-- **Sets with the same elements are equal.**

**Proof sketch.** Two lists without duplicates that have the same elements are permutations of each
other, and only one permutation of a list is strictly ascending. -/
theorem ext_mem [TransOrd α] {s t : OrderedSet α} (h : ∀ x, x ∈ s ↔ x ∈ t) : s = t := by
  have hperm : s.toList.Perm t.toList :=
    (List.perm_ext_iff_of_nodup s.ascending.nodup t.ascending.nodup).mpr h
  have heq : s.toList = t.toList := by
    refine List.Perm.eq_of_pairwise ?_ s.ascending t.ascending hperm
    intro a b _ _ hab hba
    exact absurd hba (OrientedCmp.not_lt_of_lt hab)
  cases s
  cases t
  simp_all

/-- **A set is the set of the elements that it lists.** -/
@[simp] lemma ofList_toList [TransOrd α] [LawfulEqOrd α] (s : OrderedSet α) :
    ofList s.toList = s :=
  ext_mem fun _ => mem_ofList

/-- The set of the elements of a list does not depend on their order, nor on how often they are
listed. -/
lemma ofList_congr [TransOrd α] [LawfulEqOrd α] {xs ys : List α} (h : ∀ x, x ∈ xs ↔ x ∈ ys) :
    ofList xs = ofList ys :=
  ext_mem fun x => by rw [mem_ofList, mem_ofList, h]

/-- A set that is not empty lists some element. -/
lemma toList_ne_nil [TransOrd α] [LawfulEqOrd α] {s : OrderedSet α} (h : s ≠ ∅) :
    s.toList ≠ [] := by
  intro hnil
  apply h
  rw [← ofList_toList s, hnil]
  rfl

/-- A set that is not empty is seen not to be. -/
lemma isEmpty_eq_false [TransOrd α] [LawfulEqOrd α] {s : OrderedSet α} (h : s ≠ ∅) :
    s.isEmpty = false := by
  rw [isEmpty, List.isEmpty_eq_false_iff]
  exact toList_ne_nil h

/-- A set has one element exactly when its list does. -/
lemma toList_eq_singleton_iff [TransOrd α] [LawfulEqOrd α] {s : OrderedSet α} {a : α} :
    s.toList = [a] ↔ ∀ x, x ∈ s ↔ x = a := by
  constructor
  · intro h x
    rw [mem_def, h, List.mem_singleton]
  · intro h
    have hs : s = ofList [a] := ext_mem fun x => by rw [h, mem_ofList, List.mem_singleton]
    rw [hs]
    rfl

/-- The set of the images of all elements. -/
def image {β : Type} [Ord β] [TransOrd β] (f : α → β) (s : OrderedSet α) : OrderedSet β :=
  ofList (s.toList.map f)

@[simp] lemma mem_image {β : Type} [Ord β] [TransOrd β] [LawfulEqOrd β] {f : α → β}
    {s : OrderedSet α} {x : β} : x ∈ s.image f ↔ ∃ a ∈ s, f a = x := by
  rw [image, mem_ofList, List.mem_map]
  rfl

/-- **A search through a set of texts finds the least one** that has the property. -/
lemma isLeast_of_find? {s : OrderedSet String} {p : String → Bool} {v : String}
    (h : s.toList.find? p = some v) : IsLeast {x | x ∈ s ∧ p x = true} v := by
  obtain ⟨hv, before, after, hs, hbefore⟩ := List.find?_eq_some_iff_append.mp h
  refine ⟨⟨mem_def.mpr (hs ▸ by simp), hv⟩, ?_⟩
  rintro w ⟨hw, hpw⟩
  rw [mem_def, hs, List.mem_append, List.mem_cons] at hw
  have hasc : Ascending (before ++ v :: after) := hs ▸ s.ascending
  rcases hw with hw | rfl | hw
  · have hnot := hbefore w hw
    simp [hpw] at hnot
  · exact le_rfl
  · have hlt := (List.pairwise_cons.mp (List.pairwise_append.mp hasc).2.1).1 w hw
    exact (compare_lt_iff_lt.mp hlt).le

/-- **A search through a set of texts from the end finds the greatest one** that has the property.

**Proof sketch.** What stands behind the text that is found does not have the property, and what
stands before it is less. Conversely a greatest text makes the search succeed, and there is only
one. -/
lemma find?_reverse_eq_some_iff {s : OrderedSet String} {p : String → Bool} {v : String} :
    s.toList.reverse.find? p = some v ↔ IsGreatest {x | x ∈ s ∧ p x = true} v := by
  have hgreatest : ∀ {w}, s.toList.reverse.find? p = some w →
      IsGreatest {x | x ∈ s ∧ p x = true} w := by
    intro w h
    obtain ⟨hw, after, before, hs, hafter⟩ := List.find?_eq_some_iff_append.mp h
    have hlist : s.toList = before.reverse ++ w :: after.reverse := by
      rw [← List.reverse_reverse s.toList, hs]
      simp
    refine ⟨⟨mem_def.mpr (hlist ▸ by simp), hw⟩, ?_⟩
    rintro u ⟨hu, hpu⟩
    rw [mem_def, hlist, List.mem_append, List.mem_cons] at hu
    have hasc : Ascending (before.reverse ++ w :: after.reverse) := hlist ▸ s.ascending
    rcases hu with hu | rfl | hu
    · have hlt := (List.pairwise_append.mp hasc).2.2 u hu w List.mem_cons_self
      exact (compare_lt_iff_lt.mp hlt).le
    · exact le_rfl
    · have hnot := hafter u (List.mem_reverse.mp hu)
      simp [hpu] at hnot
  refine ⟨hgreatest, fun h => ?_⟩
  cases hfind : s.toList.reverse.find? p with
  | none =>
    have hnot := List.find?_eq_none.mp hfind v (List.mem_reverse.mpr (mem_def.mp h.1.1))
    exact absurd h.1.2 hnot
  | some w => rw [(hgreatest hfind).unique h]

end OrderedSet

/-! ## Maps -/

section Maps

variable {κ ν : Type} [Ord κ] [TransOrd κ]

/-- A key that is greater than all others goes to the end. -/
lemma putAscending_of_lt {key : κ} {value : ν} {pairs : List (κ × ν)}
    (h : ∀ pair ∈ pairs, compare pair.1 key = .lt) :
    putAscending key value pairs = pairs ++ [(key, value)] := by
  induction pairs with
  | nil => rfl
  | cons pair pairs ih =>
    have hpair : compare key pair.1 = .gt := OrientedCmp.gt_of_lt (h pair List.mem_cons_self)
    rw [putAscending, hpair]
    simp only [ih fun p hp => h p (List.mem_cons_of_mem pair hp), List.cons_append]

namespace OrderedMap

/-- Pairs with ever greater keys go to the end one after the other. -/
lemma toList_foldl_insert (pairs : List (κ × ν)) :
    ∀ m : OrderedMap κ ν, Ascending ((m.toList ++ pairs).map Prod.fst) →
      (pairs.foldl (fun m pair => m.insert pair.1 pair.2) m).toList = m.toList ++ pairs := by
  induction pairs with
  | nil => exact fun m _ => (List.append_nil _).symm
  | cons pair pairs ih =>
    intro m h
    have hlast : (m.insert pair.1 pair.2).toList = m.toList ++ [pair] := by
      refine putAscending_of_lt fun p hp => ?_
      rw [List.map_append, Ascending, List.pairwise_append] at h
      exact h.2.2 p.1 (List.mem_map_of_mem hp) pair.1 (by simp)
    rw [List.foldl_cons, ih, hlast, List.append_assoc]
    · rfl
    · rwa [hlast, List.append_assoc]

/-- **A map is the map of the pairs that it lists.** -/
lemma ofList_toList (m : OrderedMap κ ν) : ofList m.toList = m := by
  have h : (ofList m.toList).toList = m.toList := toList_foldl_insert m.toList ∅ m.ascending
  cases hm : ofList m.toList
  cases m
  simp_all

end OrderedMap

end Maps

namespace OrderedMap

variable {κ ν : Type} [Ord κ] [LawfulEqOrd κ]

/-- In a list with ascending keys each key yields the value of its own pair. -/
lemma mem_iff_getAscending (key : κ) (value : ν) :
    ∀ {pairs : List (κ × ν)}, Ascending (pairs.map Prod.fst) →
      ((key, value) ∈ pairs ↔ getAscending key pairs = some value)
  | [], _ => by simp [getAscending]
  | pair :: pairs, h => by
    obtain ⟨hpair, hpairs⟩ := List.pairwise_cons.mp h
    have ih := mem_iff_getAscending key value hpairs
    rw [List.mem_cons, getAscending]
    split
    · next heq =>
      -- the key is that of the first pair, so no later pair has it
      have hkey := LawfulEqOrd.eq_of_compare heq
      subst hkey
      have hlater : ¬ (pair.1, value) ∈ pairs := fun hmem => by
        have hlt := hpair pair.1 (List.mem_map.mpr ⟨_, hmem, rfl⟩)
        rw [ReflOrd.compare_self] at hlt
        cases hlt
      simp [hlater, Prod.ext_iff, eq_comm]
    · next hne =>
      have hfirst : (key, value) ≠ pair := by
        rintro rfl
        exact hne ReflOrd.compare_self
      simp [hfirst, ih]

/-- **The pairs of a map are what its keys yield.** -/
theorem mem_toList_iff {m : OrderedMap κ ν} {key : κ} {value : ν} :
    (key, value) ∈ m.toList ↔ m.get? key = some value :=
  mem_iff_getAscending key value m.ascending

/-- **Maps whose keys yield the same values are equal.**

**Proof sketch.** They have the same pairs, none of them twice, and only one permutation of these
has ascending keys. -/
theorem ext_get? [TransOrd κ] {m n : OrderedMap κ ν} (h : ∀ key, m.get? key = n.get? key) :
    m = n := by
  have hnodup : ∀ map : OrderedMap κ ν, map.toList.Nodup := fun map =>
    List.Nodup.of_map Prod.fst map.ascending.nodup
  have hperm : m.toList.Perm n.toList := by
    refine (List.perm_ext_iff_of_nodup (hnodup m) (hnodup n)).mpr ?_
    rintro ⟨key, value⟩
    rw [mem_toList_iff, mem_toList_iff, h]
  have heq : m.toList = n.toList := by
    refine List.Perm.eq_of_pairwise ?_ (List.pairwise_map.mp m.ascending)
      (List.pairwise_map.mp n.ascending) hperm
    intro a b _ _ hab hba
    exact absurd hba (OrientedCmp.not_lt_of_lt hab)
  cases m
  cases n
  simp_all

end OrderedMap

end LivingDocs
