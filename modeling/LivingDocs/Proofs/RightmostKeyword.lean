import LivingDocs.Proofs.ExampleName

/-!
# The rightmost keyword of a line

A line is cut at the rightmost place where a keyword stands, also where occurrences overlap. All
that comes in front is the indent, and what follows has to be more than blanks. The search from the
right succeeds on the same lines as the search from the left that recognises a keyword line.

## Main definitions

* `LivingDocs.Block.Line.CutsInto` — a line with its rightmost keyword between two texts.

## Main results

* `LivingDocs.Block.Line.splitLast?_eq_some_iff_cutsInto` — the search from the right finds the
  rightmost keyword.
* `LivingDocs.Block.Line.exists_cutsInto_iff` — a line has a rightmost keyword exactly if it
  mentions the keyword.
* `LivingDocs.Block.Line.cut_outcomes` — when a line is cut, and why it is not.
-/

set_option autoImplicit false

namespace LivingDocs.Block.Line

open Text

variable {keyword line indent rest : String}

/-- **A line comes apart at its rightmost keyword**: it is the indent, the keyword and the rest, and
no occurrence of the keyword starts behind the indent's end, whether it overlaps or not. -/
structure CutsInto (keyword line indent rest : String) : Prop where
  whole : line = indent ++ keyword ++ rest
  rightmost : ∀ i > indent.length, ¬ OccursAt keyword.toList line.toList i

/-- **The search from the right finds the rightmost keyword.** -/
lemma splitLast?_eq_some_iff_cutsInto :
    splitLast? keyword.toList line.toList = some (indent.toList, rest.toList) ↔
      CutsInto keyword line indent rest := by
  rw [splitLast?_eq_some_iff, ← String.toList_append, ← String.toList_append, String.toList_inj,
    String.length_toList]
  constructor
  · rintro ⟨hwhole, -, hmax⟩
    exact ⟨hwhole, fun i hi hoccurs => Nat.not_le_of_lt hi (hmax hoccurs)⟩
  · rintro ⟨rfl, hright⟩
    refine ⟨rfl, ?_, fun i hi => ?_⟩
    · have hoccurs := occursAt_append keyword.toList indent.toList rest.toList
      rwa [String.length_toList, ← String.toList_append, ← String.toList_append] at hoccurs
    · exact Nat.le_of_not_lt fun hlt => hright i hlt hi

/-- **A line has a rightmost keyword exactly if it mentions the keyword.** -/
lemma exists_cutsInto_iff :
    (∃ indent rest, CutsInto keyword line indent rest) ↔ mentions keyword line = true := by
  constructor
  · rintro ⟨indent, rest, rfl, -⟩
    rw [mentions_iff, String.toList_append, String.toList_append]
    exact ⟨indent.toList, rest.toList, rfl⟩
  · intro hmentions
    cases hcut : splitLast? keyword.toList line.toList with
    | none =>
      rw [mentions, splitLast?_eq_none_iff.mp hcut] at hmentions
      cases hmentions
    | some parts =>
      refine ⟨String.ofList parts.1, String.ofList parts.2, ?_⟩
      rw [← splitLast?_eq_some_iff_cutsInto, String.toList_ofList, String.toList_ofList, hcut]

/-! ## Cutting a line -/

/-- What comes of cutting a line that has a rightmost keyword. -/
lemma CutsInto.cut_eq (h : CutsInto keyword line indent rest) : cut keyword line =
    if trimmed rest = "" then .error (.blankAfterKeyword keyword)
    else .ok (indent, trimmed rest) := by
  rw [cut, splitLast?_eq_some_iff_cutsInto.mpr h]
  dsimp only
  split
  · next hblank => rw [trimmed, hblank, if_pos rfl]
  · next hblank =>
    have hne : trimmed rest ≠ "" := by
      rw [trimmed, Ne, ← String.toList_inj, String.toList_ofList]
      exact hblank
    rw [if_neg hne, String.ofList_toList, trimmed]

/-- What comes of cutting a line without the keyword. -/
lemma cut_of_not_mentions (h : mentions keyword line = false) :
    cut keyword line = .error (.missingKeyword keyword line) := by
  rw [cut, splitLast?_eq_none_iff.mpr h]

/-- **What comes of cutting a line**, by what follows its rightmost keyword. -/
lemma cut_cases (keyword line : String) :
    (mentions keyword line = false ∧
      cut keyword line = .error (.missingKeyword keyword line)) ∨
    ∃ indent rest, CutsInto keyword line indent rest ∧
      (trimmed rest = "" ∧ cut keyword line = .error (.blankAfterKeyword keyword) ∨
        trimmed rest ≠ "" ∧ cut keyword line = .ok (indent, trimmed rest)) := by
  cases hmentions : mentions keyword line with
  | false => exact .inl ⟨rfl, cut_of_not_mentions hmentions⟩
  | true =>
    obtain ⟨indent, rest, hcuts⟩ := exists_cutsInto_iff.mpr hmentions
    refine .inr ⟨indent, rest, hcuts, ?_⟩
    rw [hcuts.cut_eq]
    split_ifs with hblank
    · exact .inl ⟨hblank, rfl⟩
    · exact .inr ⟨hblank, rfl⟩

/-- An empty keyword stands at the end of the line, with nothing behind it. -/
lemma cutsInto_empty (line : String) : CutsInto "" line line "" := by
  refine ⟨by simp, fun i hi hoccurs => ?_⟩
  have hle := hoccurs.1
  rw [String.length_toList] at hle
  omega

/-- A line is cut exactly if something that is not blank follows its rightmost keyword. -/
lemma cut_eq_ok_iff {text : String} : cut keyword line = .ok (indent, text) ↔
    ∃ rest, CutsInto keyword line indent rest ∧ text = trimmed rest ∧ text ≠ "" := by
  constructor
  · intro h
    obtain ⟨-, hcut⟩ | ⟨before, rest, hcuts, ⟨-, hcut⟩ | ⟨hne, hcut⟩⟩ := cut_cases keyword line
    all_goals cases hcut.symm.trans h
    exact ⟨rest, hcuts, rfl, hne⟩
  · rintro ⟨rest, hcuts, rfl, hne⟩
    rw [hcuts.cut_eq, if_neg hne]

/-- The keyword is missed exactly on a line that does not mention it. -/
lemma cut_eq_missingKeyword_iff {word shown : String} :
    cut keyword line = .error (.missingKeyword word shown) ↔
      word = keyword ∧ shown = line ∧ mentions keyword line = false := by
  constructor
  · intro h
    obtain ⟨hnot, hcut⟩ | ⟨before, rest, -, ⟨-, hcut⟩ | ⟨-, hcut⟩⟩ := cut_cases keyword line
    all_goals cases hcut.symm.trans h
    exact ⟨rfl, rfl, hnot⟩
  · rintro ⟨rfl, rfl, hnot⟩
    exact cut_of_not_mentions hnot

/-- Text is missed exactly if only blanks follow the rightmost keyword. -/
lemma cut_eq_blankAfterKeyword_iff {word : String} :
    cut keyword line = .error (.blankAfterKeyword word) ↔
      word = keyword ∧ ∃ indent rest, CutsInto keyword line indent rest ∧
        isAllBlank rest = true := by
  constructor
  · intro h
    obtain ⟨-, hcut⟩ | ⟨before, rest, hcuts, ⟨hblank, hcut⟩ | ⟨-, hcut⟩⟩ := cut_cases keyword line
    all_goals cases hcut.symm.trans h
    exact ⟨rfl, before, rest, hcuts, trimmed_eq_empty_iff.mp hblank⟩
  · rintro ⟨rfl, indent, rest, hcuts, hblank⟩
    rw [hcuts.cut_eq, if_pos (trimmed_eq_empty_iff.mpr hblank)]

/-- **When a line is cut, and why it is not.** It is cut at its rightmost keyword if something that
is not blank follows there. Otherwise the keyword is missing, or the text behind it; behind an empty
keyword there never is any. -/
theorem cut_outcomes (keyword line : String) :
    (∀ indent text, cut keyword line = .ok (indent, text) ↔
      ∃ rest, CutsInto keyword line indent rest ∧ text = trimmed rest ∧ text ≠ "") ∧
    (∀ word shown, cut keyword line = .error (.missingKeyword word shown) ↔
      word = keyword ∧ shown = line ∧ mentions keyword line = false) ∧
    (∀ word, cut keyword line = .error (.blankAfterKeyword word) ↔
      word = keyword ∧ ∃ indent rest, CutsInto keyword line indent rest ∧
        isAllBlank rest = true) ∧
    cut "" line = .error (.blankAfterKeyword "") := by
  refine ⟨fun _ _ => cut_eq_ok_iff, fun _ _ => cut_eq_missingKeyword_iff,
    fun _ => cut_eq_blankAfterKeyword_iff, ?_⟩
  exact cut_eq_blankAfterKeyword_iff.mpr ⟨rfl, line, "", cutsInto_empty line, by decide⟩

end LivingDocs.Block.Line
