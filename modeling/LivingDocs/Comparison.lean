/-!
# Comparing field by field

Values with several fields are compared by one field after the other. When each field is compared
lawfully, two values compare equal exactly when they agree in all of them.

## Main results

* `LivingDocs.compareOn_eq`, `LivingDocs.compareLex_compareOn_eq` — when values compare equal.
-/

set_option autoImplicit false

namespace LivingDocs

open Std

/-- Comparing by one field finds two values equal only if they agree in it. -/
theorem compareOn_eq {α β : Type} [Ord β] [LawfulEqOrd β] {f : α → β} {a b : α} :
    compareOn f a b = .eq ↔ f a = f b := by
  show compare (f a) (f b) = .eq ↔ f a = f b
  exact LawfulEqCmp.compare_eq_iff_eq

/-- Comparing by one field and then by others finds two values equal only if both parts do. -/
theorem compareLex_compareOn_eq {α β : Type} [Ord β] [LawfulEqOrd β] {f : α → β}
    {cmp : α → α → Ordering} {a b : α} :
    compareLex (compareOn f) cmp a b = .eq ↔ f a = f b ∧ cmp a b = .eq := by
  rw [compareLex_eq_eq, compareOn_eq]

end LivingDocs
