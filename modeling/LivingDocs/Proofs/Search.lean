import LivingDocs.Block.Grammar
import Mathlib.Data.List.TakeWhile

/-!
# What a search finds

A needle stands in a text exactly when it is one of the pieces the text is put together from, and
both ways of cutting a text at a needle succeed exactly then. A word that can be seen, since not
all of its characters are blank, stands on no blank line.

## Main definitions

* `LivingDocs.Text.Visible` — a word with a character that is not blank.

## Main results

* `LivingDocs.Text.occurs_iff` — a needle that is found stands in the text.
* `LivingDocs.Text.splitFirst?_eq_none_iff`, `LivingDocs.Text.splitLast?_eq_none_iff` — a text is
  cut exactly where the needle is found.
* `LivingDocs.Block.Line.mentions_blank` — a blank line mentions no visible word.
* `LivingDocs.Block.Grammar.match?_isSome_iff` — which lines have a block keyword.
-/

set_option autoImplicit false

namespace LivingDocs.Text

/-! ## Needles and texts -/

section Needle

variable {needle text : List Char}

/-- A text starts with what can be dropped from its start. -/
lemma dropStart?_isSome_iff : (dropStart? needle text).isSome = true ↔ needle <+: text := by
  rw [Option.isSome_iff_exists]
  exact exists_congr fun rest => by rw [dropStart?_eq_some_iff, eq_comm]

/-- Nothing can be dropped from the start of a text that does not start with it. -/
lemma dropStart?_eq_none_iff : dropStart? needle text = none ↔ ¬ needle <+: text := by
  rw [← dropStart?_isSome_iff, Option.not_isSome_iff_eq_none]

/-- **A needle is found exactly when it stands in the text.** -/
theorem occurs_iff : occurs needle text = true ↔ needle <:+: text := by
  induction text with
  | nil => simp [occurs]
  | cons c text ih => rw [occurs, Bool.or_eq_true, dropStart?_isSome_iff, ih, List.infix_cons_iff]

/-- A text is cut at the leftmost needle exactly when the needle is found. -/
lemma splitFirst?_eq_none_iff : splitFirst? needle text = none ↔ occurs needle text = false := by
  induction text with
  | nil => cases needle <;> simp [splitFirst?, occurs]
  | cons c text ih =>
    rw [splitFirst?, occurs]
    cases hstart : dropStart? needle (c :: text) with
    | some rest => simp
    | none => simp [ih]

/-- A text is cut at the rightmost needle exactly when the needle is found. -/
lemma splitLast?_eq_none_iff : splitLast? needle text = none ↔ occurs needle text = false := by
  induction text with
  | nil => cases needle <;> simp [splitLast?, occurs]
  | cons c text ih =>
    rw [splitLast?, occurs]
    cases hrest : splitLast? needle text with
    | some parts =>
      have hfound : occurs needle text = true := by
        cases hoccurs : occurs needle text with
        | true => rfl
        | false => simp [ih.mpr hoccurs] at hrest
      simp [hfound]
    | none => simp [ih.mp hrest, Option.isSome_eq_false_iff]

end Needle

/-! ## Blank texts -/

/-- A text of blanks has nothing but its blank ends. -/
lemma trim_eq_nil {text : List Char} (h : text.all isBlank = true) : trim text = [] := by
  have hstart : trimStart text = [] := by
    rw [trimStart, List.dropWhile_eq_nil_iff]
    simpa using h
  rw [trim, hstart]
  rfl

/-- **A word that can be seen**: one of its characters is not blank. -/
def Visible (word : String) : Prop := ∃ c ∈ word.toList, isBlank c = false

instance (word : String) : Decidable (Visible word) :=
  decidable_of_iff (word.toList.any (!isBlank ·) = true) (by simp [Visible])

/-- More text in front of a visible word leaves it visible. -/
lemma Visible.append {word : String} (front : String) (h : Visible word) :
    Visible (front ++ word) := by
  obtain ⟨c, hc, hblank⟩ := h
  exact ⟨c, by simp [hc], hblank⟩

end LivingDocs.Text

namespace LivingDocs.Block.Line

open Text

/-- A line mentions a keyword exactly when the keyword stands on it. -/
lemma mentions_iff {keyword line : String} :
    mentions keyword line = true ↔ keyword.toList <:+: line.toList := occurs_iff

/-- **A blank line mentions no visible word.** -/
lemma mentions_blank {keyword line : String} (hk : Visible keyword) (h : isAllBlank line = true) :
    mentions keyword line = false := by
  obtain ⟨c, hc, hblank⟩ := hk
  rw [Bool.eq_false_iff]
  intro hmentions
  have hmem : c ∈ line.toList := (mentions_iff.mp hmentions).subset hc
  rw [isAllBlank, List.all_eq_true] at h
  rw [h c hmem] at hblank
  cases hblank

/-- The text after a keyword is asked for in vain where the line does not mention it. -/
lemma after_of_not_mentions {keyword line : String} (h : mentions keyword line = false) :
    after keyword line = .error (.missingKeyword keyword line) := by
  rw [after, cut, splitLast?_eq_none_iff.mpr h]
  rfl

/-- A line has a bullet item exactly when it mentions the bullet. -/
lemma bulletItem?_eq_none_iff {bullet line : String} :
    bulletItem? bullet line = none ↔ mentions bullet line = false := by
  rw [bulletItem?, Option.map_eq_none_iff, splitFirst?_eq_none_iff]
  rfl

end LivingDocs.Block.Line

namespace LivingDocs.Block.Grammar

variable {grammar : Grammar} {line : String}

/-- The keyword of a line is in the table and stands on the line. -/
lemma mem_and_infix_of_match? {entry : String × Kind} (h : grammar.match? line = some entry) :
    entry ∈ grammar.blocks ∧ entry.1.toList <:+: line.toList := by
  rw [match?] at h
  have hmentions := List.find?_some h
  exact ⟨List.mem_of_find?_eq_some h, Line.mentions_iff.mp hmentions⟩

/-- **A line has a keyword exactly if a keyword of the table stands on it.** -/
lemma match?_isSome_iff : (grammar.match? line).isSome = true ↔
    ∃ entry ∈ grammar.blocks, entry.1.toList <:+: line.toList := by
  rw [match?, List.find?_isSome]
  exact exists_congr fun _ => and_congr_right fun _ => Line.mentions_iff

end LivingDocs.Block.Grammar
