import LivingDocs.Proofs.BlankEnds
import LivingDocs.Proofs.BlankLine
import LivingDocs.Proofs.BlockReading

/-!
# The name line of an example

A name that is not quoted stands behind the indent of the keyword line, which is mostly a comment
marker. The indent is taken away only as a whole, with the blanks around the marker. So a line with
nothing but the marker has an empty name if it starts with the indent; where a blank at the end of
the indent is missing, the marker itself becomes the name.

## Main definitions

* `LivingDocs.Block.Line.BareMarker` — a line that holds nothing beyond a comment marker.
* `LivingDocs.Block.Line.TakesAway` — the indent is taken away from a line, or there is no marker.

## Main results

* `LivingDocs.Block.exampleName_bareMarker` — what becomes of a name line with a bare marker.
* `LivingDocs.Block.not_emptyName_bareMarker` — not every such line is refused.
-/

set_option autoImplicit false

namespace LivingDocs

namespace Text

/-- Nothing remains of a string exactly when it is blank. -/
lemma trimmed_eq_empty_iff {s : String} : trimmed s = "" ↔ isAllBlank s = true := by
  rw [trimmed, isAllBlank, ← trim_eq_nil_iff, ← String.toList_inj, String.toList_ofList]
  rfl

end Text

namespace Block

namespace Line

open Text

variable {keyword indent line : String}

/-- **A line that holds nothing beyond a comment marker**: it has no quotes, and without blank ends
it is the indent without blank ends. -/
def BareMarker (indent line : String) : Prop :=
  '"' ∉ line.toList ∧ trimmed line = trimmed indent

instance (indent line : String) : Decidable (BareMarker indent line) :=
  inferInstanceAs (Decidable ('"' ∉ line.toList ∧ trimmed line = trimmed indent))

/-- **The indent is taken away** from the line as a whole, or there is no marker in it. -/
def TakesAway (indent line : String) : Prop :=
  indent.toList <+: line.toList ∨ isAllBlank indent = true

instance (indent line : String) : Decidable (TakesAway indent line) :=
  inferInstanceAs (Decidable (indent.toList <+: line.toList ∨ isAllBlank indent = true))

/-- The name on a line without quotes is what remains of it without the indent. -/
lemma exampleName_of_not_quote (h : '"' ∉ line.toList) : exampleName keyword indent line =
    if trimmed (dropIndent indent line) = "" then .error (.emptyName keyword)
    else .ok (trimmed (dropIndent indent line)) := by
  rw [exampleName, List.count_eq_zero.mpr h, if_neg (by decide), quoted?_eq_none h,
    Option.getD_none]

/-- An indent that a line starts with is taken away. -/
lemma dropIndent_append {rest : List Char} (h : line.toList = indent.toList ++ rest) :
    dropIndent indent line = String.ofList rest := by
  rw [dropIndent, dropStart?_eq_some_iff.mpr h]

/-- A line that does not start with the indent stays as it is. -/
lemma dropIndent_eq_self (h : ¬ indent.toList <+: line.toList) :
    dropIndent indent line = line := by
  rw [dropIndent, dropStart?_eq_none_iff.mpr h]

/-- **What remains of a bare marker without the indent**: nothing if the indent is taken away, and
the marker otherwise. -/
lemma trimmed_dropIndent_of_bareMarker (h : BareMarker indent line) :
    (TakesAway indent line → trimmed (dropIndent indent line) = "") ∧
      (¬ TakesAway indent line → trimmed (dropIndent indent line) = trimmed indent) := by
  obtain ⟨-, hmarker⟩ := h
  by_cases hstart : indent.toList <+: line.toList
  · obtain ⟨rest, hline⟩ := hstart
    refine ⟨fun _ => ?_, fun hnot => absurd (.inl ⟨rest, hline⟩) hnot⟩
    -- what stands behind the indent adds nothing to the marker, so it is blank
    have htrim : trim (indent.toList ++ rest) = trim indent.toList := by
      rw [hline, ← String.ofList_inj]
      exact hmarker
    rw [dropIndent_append hline.symm, trimmed_eq_empty_iff, isAllBlank, String.toList_ofList]
    exact all_isBlank_of_trim_append htrim
  · rw [dropIndent_eq_self hstart, hmarker]
    refine ⟨?_, fun _ => rfl⟩
    rintro (hstarts | hblank)
    · exact absurd hstarts hstart
    · exact trimmed_eq_empty_iff.mpr hblank

/-- A marker that is not taken away is not blank. -/
lemma trimmed_ne_empty_of_not_takesAway (h : ¬ TakesAway indent line) : trimmed indent ≠ "" :=
  fun hempty => h (.inr (trimmed_eq_empty_iff.mp hempty))

/-- A bare marker gives an empty name where the indent is taken away. -/
lemma exampleName_of_takesAway (h : BareMarker indent line) (htaken : TakesAway indent line) :
    exampleName keyword indent line = .error (.emptyName keyword) := by
  rw [exampleName_of_not_quote h.1, if_pos ((trimmed_dropIndent_of_bareMarker h).1 htaken)]

/-- A bare marker is the name where the indent is not taken away. -/
lemma exampleName_of_not_takesAway (h : BareMarker indent line) (hkept : ¬ TakesAway indent line) :
    exampleName keyword indent line = .ok (trimmed indent) := by
  rw [exampleName_of_not_quote h.1, (trimmed_dropIndent_of_bareMarker h).2 hkept,
    if_neg (trimmed_ne_empty_of_not_takesAway hkept)]

end Line

open Text Line

/-- What is read at the keyword line of an example is an example, with the name on its name line. -/
lemma exists_example_of_read {grammar : Grammar} {kind : ExampleKind} {number consumed : Nat}
    {keyword indent category tagLine line : String} {below : List String} {entity : Entity}
    (hkeyword : grammar.match? tagLine = some (keyword, .ofExample kind))
    (hcut : cut keyword tagLine = .ok (indent, category))
    (hread : read grammar number (tagLine :: line :: below) = .ok ⟨consumed, some entity⟩) :
    ∃ e, entity = .ofExample e ∧ exampleName keyword indent line = .ok e.name := by
  cases reads_of_read hread with
  | ofExample hkeyword' hcut' hname =>
    rw [hkeyword] at hkeyword'
    cases hkeyword'
    rw [hcut] at hcut'
    cases hcut'
    exact ⟨_, rfl, hname⟩
  | ofComponent hkeyword' | ofVariable hkeyword' | ofCrosscut hkeyword' | ofJourney hkeyword' =>
    rw [hkeyword] at hkeyword'
    cases hkeyword'

/-- **What becomes of a name line with a bare marker**: it is refused exactly if the indent is taken
away from it. Otherwise the marker is the name, also of an example that is read with it. -/
theorem exampleName_bareMarker (keyword indent line : String) (h : BareMarker indent line) :
    (exampleName keyword indent line = .error (.emptyName keyword) ↔ TakesAway indent line) ∧
      (¬ TakesAway indent line → exampleName keyword indent line = .ok (trimmed indent)) ∧
      ∀ (grammar : Grammar) (kind : ExampleKind) (number consumed : Nat) (tagLine category : String)
        (below : List String) (entity : Entity),
        grammar.match? tagLine = some (keyword, .ofExample kind) →
        cut keyword tagLine = .ok (indent, category) →
        read grammar number (tagLine :: line :: below) = .ok ⟨consumed, some entity⟩ →
        ¬ TakesAway indent line ∧ ∃ e, entity = .ofExample e ∧ e.name = trimmed indent := by
  refine ⟨⟨fun herror => ?_, exampleName_of_takesAway h⟩, exampleName_of_not_takesAway h, ?_⟩
  · by_contra hkept
    rw [exampleName_of_not_takesAway h hkept] at herror
    cases herror
  · intro grammar kind number consumed tagLine category below entity hkeyword hcut hread
    obtain ⟨e, rfl, hname⟩ := exists_example_of_read hkeyword hcut hread
    have hkept : ¬ TakesAway indent line := by
      intro htaken
      rw [exampleName_of_takesAway h htaken] at hname
      cases hname
    rw [exampleName_of_not_takesAway h hkept] at hname
    exact ⟨hkept, e, rfl, (Except.ok.inj hname).symm⟩

/-- The marker on its own line, with more blanks behind it than on the keyword line. -/
theorem exampleName_bareMarker_slashes :
    BareMarker "// " "//  " ∧ TakesAway "// " "//  " ∧
      exampleName "aerial:example" "// " "//  " = .error (.emptyName "aerial:example") := by
  have hbare : BareMarker "// " "//  " := by decide +kernel
  have htaken : TakesAway "// " "//  " := by decide +kernel
  exact ⟨hbare, htaken, (exampleName_bareMarker "aerial:example" "// " "//  " hbare).1.mpr htaken⟩

/-- **Not every bare marker is refused**: without the blank behind it, the marker is the name of an
example. -/
theorem not_emptyName_bareMarker :
    BareMarker "// " "//" ∧
      exampleName "aerial:example" "// " "//" ≠ .error (.emptyName "aerial:example") ∧
      readAt (.standard "aerial") ["// aerial:example Login", "//"] 0 = .ok ⟨2, some (.ofExample
        ⟨"//", "Login", ∅, ∅, .plain, .unstamped 1⟩)⟩ := by
  refine ⟨by decide +kernel, by decide +kernel, by decide +kernel⟩

end Block

end LivingDocs
