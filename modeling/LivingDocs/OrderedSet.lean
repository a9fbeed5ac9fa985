/-!
# Ordered finite sets

A finite set is kept as the strictly ascending list of its elements, so that two sets with the
same elements are the same value, and listing a set needs no sorting.

## Main definitions

* `LivingDocs.Ascending` — each element of a list is less than every later one.
* `LivingDocs.OrderedSet` — a strictly ascending list.
* `LivingDocs.OrderedSet.insert`, `LivingDocs.OrderedSet.ofList`, `LivingDocs.OrderedSet.union`.

## Main results

* `LivingDocs.mem_insertAscending`, `LivingDocs.ascending_insertAscending` — insertion adds one
  element and keeps the order.
* `LivingDocs.OrderedSet.mem_insert`, `LivingDocs.OrderedSet.mem_union`,
  `LivingDocs.OrderedSet.mem_ofList` — the elements after each operation.
-/

set_option autoImplicit false

namespace LivingDocs

open Std

variable {α : Type} [Ord α]

/-- Each element of the list is less than every later one. -/
def Ascending (xs : List α) : Prop := xs.Pairwise fun a b => compare a b = .lt

instance (xs : List α) : Decidable (Ascending xs) := inferInstanceAs (Decidable (xs.Pairwise _))

/-- A list without elements is ascending. -/
theorem ascending_nil : Ascending ([] : List α) := List.Pairwise.nil

/-- Inserts `a` into an ascending list, at its place; an element that compares equal stays. -/
def insertAscending (a : α) : List α → List α
  | [] => [a]
  | b :: xs =>
    match compare a b with
    | .lt => a :: b :: xs
    | .eq => b :: xs
    | .gt => b :: insertAscending a xs

/-- What an insertion leaves in the list is `a` or was there before. -/
theorem eq_or_mem_of_mem_insertAscending {a x : α} {xs : List α}
    (h : x ∈ insertAscending a xs) : x = a ∨ x ∈ xs := by
  induction xs with
  | nil => simpa [insertAscending] using h
  | cons b xs ih =>
    unfold insertAscending at h
    split at h
    · simpa using h
    · exact .inr h
    · rcases List.mem_cons.mp h with rfl | h
      · exact .inr List.mem_cons_self
      · exact (ih h).imp id (List.mem_cons_of_mem b)

/-- An insertion drops nothing. -/
theorem mem_insertAscending_of_mem {a x : α} {xs : List α} (h : x ∈ xs) :
    x ∈ insertAscending a xs := by
  induction xs with
  | nil => cases h
  | cons b xs ih =>
    unfold insertAscending
    split
    · exact List.mem_cons_of_mem a h
    · exact h
    · rcases List.mem_cons.mp h with rfl | h
      · exact List.mem_cons_self
      · exact List.mem_cons_of_mem b (ih h)

/-- The inserted element is in the list afterwards. -/
theorem self_mem_insertAscending [LawfulEqOrd α] (a : α) (xs : List α) :
    a ∈ insertAscending a xs := by
  induction xs with
  | nil => simp [insertAscending]
  | cons b xs ih =>
    unfold insertAscending
    split
    · exact List.mem_cons_self
    · next h => rw [LawfulEqOrd.eq_of_compare h]; exact List.mem_cons_self
    · exact List.mem_cons_of_mem b ih

/-- **Insertion adds exactly one element.** -/
theorem mem_insertAscending [LawfulEqOrd α] {a x : α} {xs : List α} :
    x ∈ insertAscending a xs ↔ x = a ∨ x ∈ xs :=
  ⟨eq_or_mem_of_mem_insertAscending, fun h =>
    h.elim (fun h => h ▸ self_mem_insertAscending a xs) mem_insertAscending_of_mem⟩

/-- **Insertion keeps a list ascending.**

**Proof sketch.** Induction on the list. In front of a greater element transitivity puts `a`
below all that follows; behind a smaller one every element of the result is `a` or an old one. -/
theorem ascending_insertAscending [TransOrd α] (a : α) {xs : List α} (h : Ascending xs) :
    Ascending (insertAscending a xs) := by
  induction xs with
  | nil => simp [insertAscending, Ascending]
  | cons b xs ih =>
    obtain ⟨hb, hxs⟩ := List.pairwise_cons.mp h
    unfold insertAscending
    split
    · next hab =>
      refine List.pairwise_cons.mpr ⟨fun c hc => ?_, h⟩
      rcases List.mem_cons.mp hc with rfl | hc
      · exact hab
      · exact TransCmp.lt_trans hab (hb c hc)
    · exact h
    · next hab =>
      refine List.pairwise_cons.mpr ⟨fun c hc => ?_, ih hxs⟩
      rcases eq_or_mem_of_mem_insertAscending hc with rfl | hc
      · exact OrientedCmp.lt_of_gt hab
      · exact hb c hc

/-- **A finite set**, as the strictly ascending list of its elements. -/
structure OrderedSet (α : Type) [Ord α] where
  /-- The elements in ascending order. -/
  toList : List α
  /-- No element stands twice, and none before a smaller one. -/
  ascending : Ascending toList
  deriving DecidableEq

namespace OrderedSet

/-- The set without elements. -/
def empty : OrderedSet α := ⟨[], ascending_nil⟩

instance : EmptyCollection (OrderedSet α) := ⟨empty⟩

instance : Inhabited (OrderedSet α) := ⟨empty⟩

instance : Membership α (OrderedSet α) := ⟨fun s a => a ∈ s.toList⟩

/-- The number of elements. -/
def size (s : OrderedSet α) : Nat := s.toList.length

/-- Whether there is no element. -/
def isEmpty (s : OrderedSet α) : Bool := s.toList.isEmpty

/-- The set with one more element. -/
def insert [TransOrd α] (s : OrderedSet α) (a : α) : OrderedSet α :=
  ⟨insertAscending a s.toList, ascending_insertAscending a s.ascending⟩

/-- The set with all elements of a list added. -/
def insertAll [TransOrd α] (s : OrderedSet α) (xs : List α) : OrderedSet α := xs.foldl insert s

/-- The set of the elements of a list. -/
def ofList [TransOrd α] (xs : List α) : OrderedSet α := insertAll ∅ xs

/-- The elements of either set. -/
def union [TransOrd α] (s t : OrderedSet α) : OrderedSet α := s.insertAll t.toList

instance [TransOrd α] : Union (OrderedSet α) := ⟨union⟩

/-- Sets compare like the ascending lists of their elements, so a smaller first difference
decides, and a set whose list starts another one's comes first. -/
instance : Ord (OrderedSet α) := ⟨compareOn toList⟩

instance [TransOrd α] : TransOrd (OrderedSet α) := inferInstanceAs (TransCmp (compareOn toList))

instance [LawfulEqOrd α] : LawfulEqOrd (OrderedSet α) where
  compare_self {s} := (ReflCmp.compare_self : compare s.toList s.toList = .eq)
  eq_of_compare {s t} h := by
    have h : s.toList = t.toList := LawfulEqOrd.eq_of_compare h
    cases s; cases t; simp_all

theorem mem_def {s : OrderedSet α} {a : α} : a ∈ s ↔ a ∈ s.toList := Iff.rfl

@[simp] theorem toList_empty : (∅ : OrderedSet α).toList = [] := rfl

@[simp] theorem not_mem_empty (a : α) : ¬ a ∈ (∅ : OrderedSet α) := by simp [mem_def]

@[simp] theorem mem_insert [TransOrd α] [LawfulEqOrd α] {s : OrderedSet α} {a x : α} :
    x ∈ s.insert a ↔ x = a ∨ x ∈ s := mem_insertAscending

@[simp] theorem mem_insertAll [TransOrd α] [LawfulEqOrd α] {s : OrderedSet α} {xs : List α}
    {x : α} : x ∈ s.insertAll xs ↔ x ∈ s ∨ x ∈ xs := by
  induction xs generalizing s with
  | nil => simp [insertAll]
  | cons a xs ih =>
    have h : s.insertAll (a :: xs) = (s.insert a).insertAll xs := rfl
    rw [h, ih, mem_insert, List.mem_cons]
    grind

@[simp] theorem mem_ofList [TransOrd α] [LawfulEqOrd α] {xs : List α} {x : α} :
    x ∈ ofList xs ↔ x ∈ xs := by
  simp [ofList]

@[simp] theorem mem_union [TransOrd α] [LawfulEqOrd α] {s t : OrderedSet α} {x : α} :
    x ∈ s ∪ t ↔ x ∈ s ∨ x ∈ t := mem_insertAll

end OrderedSet

end LivingDocs
