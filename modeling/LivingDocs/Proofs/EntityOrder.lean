import LivingDocs.Entity
import Mathlib.Data.Prod.Lex
import Mathlib.Data.String.Basic
import Mathlib.Order.WithBot
import Mathlib.Tactic.Lemma

/-!
# The orders of the entities

Entities of one kind are compared field by field. Here this is said in terms of keys: the key of an
entity lists its fields, and keys are compared lexicographically. Text counts by its code points, a
set by the ascending list of its elements, a kind of example by its position among the three, and a
file that is not known comes before all others. The key tells all about an entity, so none of the
orders takes two entities for the same.

## Main definitions

* `LivingDocs.ComparesBy` — a key tells how values compare.
* `LivingDocs.Component.key`, `LivingDocs.Example.key`, `LivingDocs.Variable.key`,
  `LivingDocs.Crosscut.key`, `LivingDocs.Journey.key` — the keys of the entities.
* `LivingDocs.StrictlyOrderedBy` — a strict total order that a key tells of.

## Main results

* `LivingDocs.ComparesBy.lex`, `LivingDocs.ComparesBy.list`, `LivingDocs.comparesBy_codePoints` —
  keys of fields, of lists and of texts.
* `LivingDocs.isStrictTotalOrder_compare` — lawful comparisons are strict total orders.
* `LivingDocs.Component.strictlyOrderedBy_key` and its counterparts — the five orders.
-/

set_option autoImplicit false

namespace LivingDocs

open Std

/-! ## Keys -/

/-- **A key tells how values compare**: a value is less if its key is, and equal if it has the same
key. -/
structure ComparesBy {α β : Type} [LT β] (cmp : α → α → Ordering) (key : α → β) : Prop where
  lt_iff : ∀ a b, cmp a b = .lt ↔ key a < key b
  eq_iff : ∀ a b, cmp a b = .eq ↔ key a = key b

namespace ComparesBy

variable {α β γ : Type} [LT β] [LT γ]

/-- Values that are compared by one field have the key of that field. -/
lemma on {δ : Type} [Ord δ] {key : δ → β} (h : ComparesBy compare key) (field : α → δ) :
    ComparesBy (compareOn field) fun a => key (field a) :=
  ⟨fun a b => h.lt_iff (field a) (field b), fun a b => h.eq_iff (field a) (field b)⟩

/-- **Values that are compared in two respects have a key for each of them**, and the first one that
differs decides. -/
lemma lex {first second : α → α → Ordering} {key : α → β} {key' : α → γ}
    (h : ComparesBy first key) (h' : ComparesBy second key') :
    ComparesBy (compareLex first second) fun a => toLex (key a, key' a) where
  lt_iff a b := by
    rw [compareLex, Ordering.then_eq_lt, Prod.Lex.toLex_lt_toLex, h.lt_iff, h.eq_iff, h'.lt_iff]
  eq_iff a b := by
    rw [compareLex_eq_eq, h.eq_iff, h'.eq_iff, toLex_inj, Prod.mk.injEq]

/-- **Lists are compared by the keys of their elements**, one after the other, and a list that
starts another one comes first. -/
lemma list [Ord α] {key : α → β} (h : ComparesBy compare key) :
    ComparesBy (compare : List α → List α → Ordering) (List.map key) where
  lt_iff xs ys := by
    induction xs generalizing ys with
    | nil => cases ys <;> simp
    | cons x xs ih =>
      cases ys with
      | nil => simp
      | cons y ys =>
        rw [List.compare_cons_cons, Ordering.then_eq_lt, h.lt_iff, h.eq_iff, ih ys,
          List.map_cons, List.map_cons, List.cons_lt_cons_iff]
  eq_iff xs ys := by
    induction xs generalizing ys with
    | nil => cases ys <;> simp
    | cons x xs ih =>
      cases ys with
      | nil => simp
      | cons y ys =>
        rw [List.compare_cons_cons, Ordering.then_eq_eq, h.eq_iff, ih ys, List.map_cons,
          List.map_cons, List.cons.injEq]

end ComparesBy

/-! ## Texts, sets and kinds -/

/-- The code points of a text. -/
def codePoints (text : String) : List ℕ := text.toList.map Char.toNat

/-- **Text is compared by its code points.** -/
lemma comparesBy_codePoints : ComparesBy compare codePoints where
  lt_iff s t := by
    have hchars : ∀ xs ys : List Char, xs < ys ↔ xs.map Char.toNat < ys.map Char.toNat := by
      intro xs
      induction xs with
      | nil => intro ys; cases ys <;> simp
      | cons x xs ih =>
        intro ys
        cases ys with
        | nil => simp
        | cons y ys =>
          rw [List.map_cons, List.map_cons, List.cons_lt_cons_iff, List.cons_lt_cons_iff, ih ys]
          exact or_congr Iff.rfl (and_congr Char.toNat_inj.symm Iff.rfl)
    rw [compare_lt_iff_lt, String.lt_iff_toList_lt]
    exact hchars s.toList t.toList
  eq_iff s t := by
    rw [LawfulEqCmp.compare_eq_iff_eq, codePoints, codePoints,
      List.map_inj_right fun c d => Char.toNat_inj.mp, String.toList_inj]

/-- The elements of a set of texts, in ascending order. -/
def OrderedSet.key (s : OrderedSet String) : List (List ℕ) := s.toList.map codePoints

/-- **A set is compared by the list of its elements.** -/
lemma OrderedSet.comparesBy_key : ComparesBy compare OrderedSet.key :=
  comparesBy_codePoints.list.on OrderedSet.toList

/-- The position of a kind among the three. -/
def ExampleKind.position (kind : ExampleKind) : ℕ := [plain, howTo, todo].idxOf kind

/-- A kind is compared by its position. -/
lemma ExampleKind.comparesBy_position : ComparesBy compare ExampleKind.position where
  lt_iff a b := by cases a <;> cases b <;> decide
  eq_iff a b := by cases a <;> cases b <;> decide

/-! ## Places -/

/-- A file by its code points, and below all files the one that is not known. -/
def fileKey : Option String → WithBot (List ℕ)
  | none => ⊥
  | some file => codePoints file

/-- **A file that is not known comes before all others.** -/
lemma comparesBy_fileKey : ComparesBy compare fileKey where
  lt_iff a b := by
    cases a with
    | none => cases b <;> simp [fileKey, compare]
    | some file =>
      cases b with
      | none => simp [fileKey, compare]
      | some file' => exact (comparesBy_codePoints.lt_iff file file').trans WithBot.coe_lt_coe.symm
  eq_iff a b := by
    cases a with
    | none => cases b <;> simp [fileKey, compare]
    | some file =>
      cases b with
      | none => simp [fileKey, compare]
      | some file' => exact (comparesBy_codePoints.eq_iff file file').trans WithBot.coe_inj.symm

/-- A number is compared by itself. -/
lemma comparesBy_nat : ComparesBy (compare : ℕ → ℕ → Ordering) id :=
  ⟨fun _ _ => Nat.compare_eq_lt, fun _ _ => Nat.compare_eq_eq⟩

/-- The file of a place and its line. -/
def Location.key (location : Location) : WithBot (List ℕ) ×ₗ ℕ :=
  toLex (fileKey location.file, location.line)

/-- **A place is compared by its file and then by its line.** -/
lemma Location.comparesBy_key : ComparesBy compare Location.key :=
  (comparesBy_fileKey.on file).lex (comparesBy_nat.on line)

/-! ## Entities -/

/-- The fields of a component, the name first. -/
def Component.key (c : Component) :
    List ℕ ×ₗ List ℕ ×ₗ List (List ℕ) ×ₗ List (List ℕ) ×ₗ WithBot (List ℕ) ×ₗ ℕ :=
  toLex (codePoints c.name, toLex (codePoints c.desc, toLex (c.tags.key,
    toLex (c.features.key, c.location.key))))

/-- The fields of an example, the name first. -/
def Example.key (e : Example) :
    List ℕ ×ₗ List ℕ ×ₗ List (List ℕ) ×ₗ List (List ℕ) ×ₗ ℕ ×ₗ WithBot (List ℕ) ×ₗ ℕ :=
  toLex (codePoints e.name, toLex (codePoints e.category, toLex (e.values.key,
    toLex (e.tags.key, toLex (e.kind.position, e.location.key)))))

/-- The fields of a variable, the name first. -/
def Variable.key (v : Variable) : List ℕ ×ₗ List (List ℕ) ×ₗ WithBot (List ℕ) ×ₗ ℕ :=
  toLex (codePoints v.name, toLex (v.values.key, v.location.key))

/-- The fields of a crosscut, the name first. -/
def Crosscut.key (c : Crosscut) : List ℕ ×ₗ WithBot (List ℕ) ×ₗ ℕ :=
  toLex (codePoints c.name, c.location.key)

/-- The fields of a journey, the name first. -/
def Journey.key (j : Journey) : List ℕ ×ₗ List ℕ ×ₗ WithBot (List ℕ) ×ₗ ℕ :=
  toLex (codePoints j.name, toLex (codePoints j.desc, j.location.key))

/-- **Lawful comparisons are strict total orders.** -/
lemma isStrictTotalOrder_compare (α : Type) [Ord α] [TransOrd α] [LawfulEqOrd α] :
    IsStrictTotalOrder α fun a b => compare a b = .lt where
  irrefl a h := by
    rw [ReflOrd.compare_self] at h
    cases h
  trans a b c hab hbc := TransCmp.lt_trans hab hbc
  trichotomous a b hab hba := by
    cases h : compare a b with
    | lt => exact absurd h hab
    | eq => exact LawfulEqOrd.eq_of_compare h
    | gt => exact absurd (OrientedCmp.lt_of_gt h) hba

/-- **A strict total order that a key tells of**, in which no two values are taken for the same. -/
structure StrictlyOrderedBy {α β : Type} [Ord α] [LT β] (key : α → β) : Prop where
  lt_iff : ∀ a b : α, compare a b = .lt ↔ key a < key b
  eq_iff : ∀ a b : α, compare a b = .eq ↔ a = b
  strict : IsStrictTotalOrder α fun a b => compare a b = .lt

/-- A lawful comparison that a key tells of is a strict total order. -/
lemma ComparesBy.strictlyOrderedBy {α β : Type} [Ord α] [TransOrd α] [LawfulEqOrd α] [LT β]
    {key : α → β} (h : ComparesBy compare key) : StrictlyOrderedBy key :=
  ⟨h.lt_iff, fun _ _ => LawfulEqCmp.compare_eq_iff_eq, isStrictTotalOrder_compare α⟩

/-- **Components are ordered by their fields.** -/
lemma Component.strictlyOrderedBy_key : StrictlyOrderedBy Component.key :=
  ((comparesBy_codePoints.on name).lex <| (comparesBy_codePoints.on desc).lex <|
    (OrderedSet.comparesBy_key.on tags).lex <| (OrderedSet.comparesBy_key.on features).lex <|
    Location.comparesBy_key.on location : ComparesBy compare key).strictlyOrderedBy

/-- **Examples are ordered by their fields.** -/
lemma Example.strictlyOrderedBy_key : StrictlyOrderedBy Example.key :=
  ((comparesBy_codePoints.on name).lex <| (comparesBy_codePoints.on category).lex <|
    (OrderedSet.comparesBy_key.on values).lex <| (OrderedSet.comparesBy_key.on tags).lex <|
    (ExampleKind.comparesBy_position.on kind).lex <|
    Location.comparesBy_key.on location : ComparesBy compare key).strictlyOrderedBy

/-- **Variables are ordered by their fields.** -/
lemma Variable.strictlyOrderedBy_key : StrictlyOrderedBy Variable.key :=
  ((comparesBy_codePoints.on name).lex <| (OrderedSet.comparesBy_key.on values).lex <|
    Location.comparesBy_key.on location : ComparesBy compare key).strictlyOrderedBy

/-- **Crosscuts are ordered by their fields.** -/
lemma Crosscut.strictlyOrderedBy_key : StrictlyOrderedBy Crosscut.key :=
  ((comparesBy_codePoints.on name).lex <|
    Location.comparesBy_key.on location : ComparesBy compare key).strictlyOrderedBy

/-- **Journeys are ordered by their fields.** -/
lemma Journey.strictlyOrderedBy_key : StrictlyOrderedBy Journey.key :=
  ((comparesBy_codePoints.on name).lex <| (comparesBy_codePoints.on desc).lex <|
    Location.comparesBy_key.on location : ComparesBy compare key).strictlyOrderedBy

end LivingDocs
