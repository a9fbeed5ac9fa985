import LivingDocs.Collation.Basic
import Mathlib.Tactic.Lemma

/-!
# Results of many computations

A computation that can fail is run on every element of a list. Either the first failure ends it,
and then the values before that failure are lost, or failures and values are kept apart and none
of them is lost.

## Main results

* `LivingDocs.bind_eq_ok_iff`, `LivingDocs.map_eq_ok_iff` — when a computation of two parts
  succeeds.
* `LivingDocs.map_eq_of_mapM_ok`, `LivingDocs.map_eq_map_of_ok`, `LivingDocs.exists_mapM_ok`,
  `LivingDocs.mapM_error_of_find?`, `LivingDocs.exists_mapM_ok_of_perm` — a run that the first
  failure ends.
* `LivingDocs.Collation.mem_successes`, `LivingDocs.Collation.eq_map_ok_of_failures_nil`,
  `LivingDocs.Collation.failures_map` — a run that keeps failures and values apart.
-/

set_option autoImplicit false

namespace LivingDocs

variable {ε α β : Type}

/-- A computation of two parts succeeds if the first part does and the second one does on its
value. -/
lemma bind_eq_ok_iff {x : Except ε α} {f : α → Except ε β} {b : β} :
    (x >>= f) = .ok b ↔ ∃ a, x = .ok a ∧ f a = .ok b := by
  cases x with
  | error e => simp [bind, Except.bind]
  | ok a => simp [bind, Except.bind]

/-- A computation whose value is changed afterwards succeeds if it does without the change. -/
lemma map_eq_ok_iff {x : Except ε α} {f : α → β} {b : β} :
    x.map f = .ok b ↔ ∃ a, x = .ok a ∧ f a = b := by
  cases x with
  | error e => simp [Except.map]
  | ok a => simp [Except.map]

/-- A change of the value does not touch a failure. -/
lemma map_eq_error_iff {x : Except ε α} {f : α → β} {e : ε} :
    x.map f = .error e ↔ x = .error e := by
  cases x with
  | error e' => simp [Except.map]
  | ok a => simp [Except.map]

/-- A change of the failure does not touch a value. -/
lemma mapError_eq_ok_iff {δ : Type} {x : Except ε α} {f : ε → δ} {a : α} :
    x.mapError f = .ok a ↔ x = .ok a := by
  cases x with
  | error e => exact iff_of_false nofun nofun
  | ok a' =>
    constructor
    · intro h
      cases h
      rfl
    · intro h
      cases h
      rfl

/-! ## The first failure ends the run -/

section FirstFailure

variable {f : α → Except ε β} {xs : List α} {ys : List β}

/-- After a run without failure there is one value for each element, in order. -/
lemma map_eq_of_mapM_ok (h : xs.mapM f = .ok ys) : xs.map f = ys.map .ok := by
  induction xs generalizing ys with
  | nil =>
    cases h
    rfl
  | cons x xs ih =>
    rw [List.mapM_cons, bind_eq_ok_iff] at h
    obtain ⟨y, hy, h⟩ := h
    obtain ⟨rest, hrest, h⟩ := bind_eq_ok_iff.mp h
    cases h
    rw [List.map_cons, List.map_cons, hy, ih hrest]

/-- The values of a run without failure are what the elements yield. -/
lemma mem_of_mapM_ok (h : xs.mapM f = .ok ys) {y : β} : y ∈ ys ↔ ∃ x ∈ xs, f x = .ok y := by
  have hmap := map_eq_of_mapM_ok h
  constructor
  · intro hy
    have hok : Except.ok y ∈ xs.map f := hmap ▸ List.mem_map_of_mem hy
    simpa using List.mem_map.mp hok
  · rintro ⟨x, hx, hxy⟩
    have hok : f x ∈ ys.map Except.ok := hmap ▸ List.mem_map_of_mem hx
    rw [hxy, List.mem_map] at hok
    obtain ⟨y', hy', he⟩ := hok
    cases he
    exact hy'

/-- In a run without failure each element yields a value. -/
lemma exists_ok_of_mapM_ok (h : xs.mapM f = .ok ys) {x : α} (hx : x ∈ xs) :
    ∃ y, f x = .ok y := by
  have hmem : f x ∈ xs.map f := List.mem_map_of_mem hx
  rw [map_eq_of_mapM_ok h] at hmem
  obtain ⟨y, -, hy⟩ := List.mem_map.mp hmem
  exact ⟨y, hy.symm⟩

/-- What can be told of each value from its element can be told of all of them, in order. -/
lemma map_eq_map_of_ok {γ : Type} {g : β → γ} {k : α → γ} (h : xs.map f = ys.map .ok)
    (hf : ∀ x ∈ xs, ∀ y, f x = .ok y → g y = k x) : ys.map g = xs.map k := by
  induction xs generalizing ys with
  | nil =>
    rw [List.map_nil, List.nil_eq, List.map_eq_nil_iff] at h
    rw [h]
    rfl
  | cons x xs ih =>
    obtain ⟨y, rest, rfl, hy, hrest⟩ := List.map_eq_cons_iff.mp h.symm
    rw [List.map_cons, List.map_cons, hf x List.mem_cons_self y hy.symm,
      ih hrest.symm fun z hz => hf z (List.mem_cons_of_mem x hz)]

/-- A run over elements that all succeed ends without failure. -/
lemma exists_mapM_ok (h : ∀ x ∈ xs, ∃ y, f x = .ok y) : ∃ ys, xs.mapM f = .ok ys := by
  induction xs with
  | nil => exact ⟨[], rfl⟩
  | cons x xs ih =>
    obtain ⟨y, hy⟩ := h x List.mem_cons_self
    obtain ⟨rest, hrest⟩ := ih fun z hz => h z (List.mem_cons_of_mem x hz)
    refine ⟨y :: rest, ?_⟩
    rw [List.mapM_cons, hy, hrest]
    rfl

/-- The values of a run without failure are those that are kept of it. -/
lemma filterMap_toOption_of_mapM_ok (h : xs.mapM f = .ok ys) :
    (xs.map f).filterMap Except.toOption = ys := by
  rw [map_eq_of_mapM_ok h, List.filterMap_map]
  exact List.filterMap_some

/-- Elements in another order yield the same values in that order. -/
lemma exists_mapM_ok_of_perm {xs' : List α} (hperm : xs'.Perm xs) (h : xs.mapM f = .ok ys) :
    ∃ ys', xs'.mapM f = .ok ys' ∧ ys'.Perm ys := by
  have hok : ∀ x ∈ xs', ∃ y, f x = .ok y := fun x hx =>
    exists_ok_of_mapM_ok h (hperm.mem_iff.mp hx)
  obtain ⟨ys', hys'⟩ := exists_mapM_ok hok
  refine ⟨ys', hys', ?_⟩
  rw [← filterMap_toOption_of_mapM_ok h, ← filterMap_toOption_of_mapM_ok hys']
  exact (hperm.map f).filterMap _

/-- A run fails as its first failing element does.

**Proof sketch.** Induction on the list. An element that is passed over by the search succeeds, so
the run goes on behind it; the element that is found is the one whose failure ends the run. -/
lemma mapM_error_of_find? {p : α → Bool} {x : α} {e : ε}
    (hp : ∀ z, p z = false → ∃ y, f z = .ok y) (h : xs.find? p = some x)
    (hx : f x = .error e) : xs.mapM f = .error e := by
  induction xs with
  | nil => cases h
  | cons z xs ih =>
    rw [List.mapM_cons]
    rw [List.find?_cons] at h
    split at h
    · cases h
      rw [hx]
      rfl
    · next hz =>
      obtain ⟨y, hy⟩ := hp z hz
      rw [hy, ih h]
      rfl

end FirstFailure

/-! ## Failures and values kept apart -/

namespace Collation

variable {f : α → Except ε β} {xs : List α}

/-- What is kept as a value is what some element yields. -/
lemma mem_successes {y : β} : y ∈ successes (xs.map f) ↔ ∃ x ∈ xs, f x = .ok y := by
  simp only [successes, List.filterMap_map, List.mem_filterMap, Function.comp_apply]
  refine exists_congr fun x => and_congr_right fun _ => ?_
  cases f x with
  | error e => simp [Except.toOption]
  | ok a => simp [Except.toOption]

/-- The error of a result, if it is one. -/
def failure? : Except ε β → Option ε
  | .ok _ => none
  | .error e => some e

@[simp] lemma failure?_eq_some_iff {r : Except ε β} {e : ε} :
    failure? r = some e ↔ r = .error e := by
  cases r <;> simp [failure?]

/-- Without a failure, each result is a value that is kept. -/
lemma eq_map_ok_of_failures_nil {results : List (Except ε β)} (h : failures results = []) :
    results = (successes results).map .ok := by
  induction results with
  | nil => rfl
  | cons result results ih =>
    cases result with
    | error e => cases h
    | ok value => exact congrArg (.ok value :: ·) (ih h)

/-- What is kept as a failure is the failures of the elements, in order. -/
lemma failures_map : failures (xs.map f) = xs.filterMap fun x => failure? (f x) := by
  simp only [failures, List.filterMap_map]
  rfl

end Collation

end LivingDocs
