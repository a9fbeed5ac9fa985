import LivingDocs.OrderedSet

/-!
# Ordered finite maps

A finite map is kept as a list of key and value pairs whose keys are strictly ascending. Putting a
value under a key that is already there replaces the old value.

## Main definitions

* `LivingDocs.OrderedMap` — pairs with strictly ascending keys.
* `LivingDocs.OrderedMap.insert`, `LivingDocs.OrderedMap.get?`, `LivingDocs.OrderedMap.ofList`.

## Main results

* `LivingDocs.map_fst_putAscending` — the keys after an insertion are the keys before it with one
  more inserted.
* `LivingDocs.OrderedMap.get?_insert` — what a key yields after an insertion.
-/

set_option autoImplicit false

namespace LivingDocs

open Std

variable {κ ν : Type} [Ord κ]

/-- Puts `value` under `key` in a list of pairs with ascending keys. -/
def putAscending (key : κ) (value : ν) : List (κ × ν) → List (κ × ν)
  | [] => [(key, value)]
  | pair :: pairs =>
    match compare key pair.1 with
    | .lt => (key, value) :: pair :: pairs
    | .eq => (pair.1, value) :: pairs
    | .gt => pair :: putAscending key value pairs

/-- The value under `key` in a list of pairs. -/
def getAscending (key : κ) : List (κ × ν) → Option ν
  | [] => none
  | pair :: pairs =>
    match compare key pair.1 with
    | .eq => some pair.2
    | _ => getAscending key pairs

/-- Putting a value inserts its key among the keys. -/
theorem map_fst_putAscending (key : κ) (value : ν) (pairs : List (κ × ν)) :
    (putAscending key value pairs).map Prod.fst = insertAscending key (pairs.map Prod.fst) := by
  induction pairs with
  | nil => rfl
  | cons pair pairs ih =>
    simp only [putAscending, List.map_cons, insertAscending]
    split <;> simp_all

/-- What a key yields after a value has been put: that value under its own key, and what was
there under any other. -/
theorem getAscending_putAscending [TransOrd κ] [LawfulEqOrd κ] (key : κ) (value : ν) (k : κ)
    (pairs : List (κ × ν)) :
    getAscending k (putAscending key value pairs) =
      if compare k key = .eq then some value else getAscending k pairs := by
  induction pairs with
  | nil => simp only [putAscending, getAscending]; split <;> simp_all
  | cons pair pairs ih =>
    simp only [putAscending]
    split
    · simp only [getAscending]
      split <;> simp_all
    · next h =>
      have h := LawfulEqOrd.eq_of_compare h
      subst h
      simp only [getAscending]
      split <;> simp_all
    · next h =>
      simp only [getAscending, ih]
      by_cases hk : compare k key = .eq
      · have hk' := LawfulEqOrd.eq_of_compare hk
        subst hk'
        simp [h]
      · simp [hk]

/-- **A finite map**, as pairs whose keys are strictly ascending. -/
structure OrderedMap (κ ν : Type) [Ord κ] where
  /-- The pairs in ascending order of their keys. -/
  toList : List (κ × ν)
  /-- No key stands twice, and none before a smaller one. -/
  ascending : Ascending (toList.map Prod.fst)
  deriving DecidableEq

namespace OrderedMap

/-- The map without keys. -/
def empty : OrderedMap κ ν := ⟨[], ascending_nil⟩

instance : EmptyCollection (OrderedMap κ ν) := ⟨empty⟩

instance : Inhabited (OrderedMap κ ν) := ⟨empty⟩

/-- The map with `value` under `key`, in place of what was there. -/
def insert [TransOrd κ] (m : OrderedMap κ ν) (key : κ) (value : ν) : OrderedMap κ ν :=
  ⟨putAscending key value m.toList,
    map_fst_putAscending key value m.toList ▸ ascending_insertAscending key m.ascending⟩

/-- The value under a key. -/
def get? (m : OrderedMap κ ν) (key : κ) : Option ν := getAscending key m.toList

/-- The map that results from putting all pairs of a list, in order. -/
def ofList [TransOrd κ] (pairs : List (κ × ν)) : OrderedMap κ ν :=
  pairs.foldl (fun m pair => m.insert pair.1 pair.2) ∅

@[simp] theorem get?_empty (key : κ) : (∅ : OrderedMap κ ν).get? key = none := rfl

/-- **An insertion changes one key only.** -/
theorem get?_insert [TransOrd κ] [LawfulEqOrd κ] (m : OrderedMap κ ν) (key k : κ) (value : ν) :
    (m.insert key value).get? k = if compare k key = .eq then some value else m.get? k :=
  getAscending_putAscending key value k m.toList

end OrderedMap

end LivingDocs
