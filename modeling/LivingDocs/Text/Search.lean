/-!
# Searching a text

Finding a needle in a character list, from the left and from the right, and cutting a list at
every occurrence of one character. Occurrences may overlap, and the empty needle occurs
everywhere: first before the first character, last after the last one.

## Main definitions

* `LivingDocs.Text.dropStart?` — what follows a needle that a text starts with.
* `LivingDocs.Text.occurs` — whether a needle stands anywhere in a text.
* `LivingDocs.Text.splitFirst?`, `LivingDocs.Text.splitLast?` — the two sides of the leftmost and
  of the rightmost occurrence.
* `LivingDocs.Text.segments` — the pieces between the occurrences of one character.

## Main results

* `LivingDocs.Text.append_of_splitFirst?`, `LivingDocs.Text.append_of_splitLast?` — cutting a text
  loses nothing.
-/

set_option autoImplicit false

namespace LivingDocs.Text

/-- What follows `needle` at the start of a text, if the text starts with it. -/
def dropStart? : List Char → List Char → Option (List Char)
  | [], text => some text
  | _ :: _, [] => none
  | a :: needle, c :: text => if a = c then dropStart? needle text else none

/-- A text starts with `needle` and goes on with `rest` exactly when it is the two of them put
together. -/
theorem dropStart?_eq_some_iff {needle text rest : List Char} :
    dropStart? needle text = some rest ↔ text = needle ++ rest := by
  induction needle generalizing text with
  | nil => simp [dropStart?]
  | cons a needle ih =>
    cases text with
    | nil => simp [dropStart?]
    | cons c text =>
      by_cases h : a = c
      · simp [dropStart?, h, ih]
      · simp [dropStart?, h, Ne.symm h]

/-- Whether `needle` stands somewhere in a text. -/
def occurs (needle : List Char) : List Char → Bool
  | [] => needle.isEmpty
  | c :: text => (dropStart? needle (c :: text)).isSome || occurs needle text

/-- What stands before and after the leftmost occurrence of `needle`. -/
def splitFirst? (needle : List Char) : List Char → Option (List Char × List Char)
  | [] => if needle.isEmpty then some ([], []) else none
  | c :: text =>
    match dropStart? needle (c :: text) with
    | some rest => some ([], rest)
    | none => (splitFirst? needle text).map fun parts => (c :: parts.1, parts.2)

/-- What stands before and after the rightmost occurrence of `needle`. -/
def splitLast? (needle : List Char) : List Char → Option (List Char × List Char)
  | [] => if needle.isEmpty then some ([], []) else none
  | c :: text =>
    match splitLast? needle text with
    | some parts => some (c :: parts.1, parts.2)
    | none => (dropStart? needle (c :: text)).map fun rest => ([], rest)

/-- The two sides of the leftmost occurrence and the needle between them are the text. -/
theorem append_of_splitFirst? {needle text : List Char} {parts : List Char × List Char}
    (h : splitFirst? needle text = some parts) : text = parts.1 ++ needle ++ parts.2 := by
  induction text generalizing parts with
  | nil =>
    simp only [splitFirst?] at h
    split at h
    · next hn =>
      cases h
      simpa using hn
    · cases h
  | cons c text ih =>
    simp only [splitFirst?] at h
    split at h
    · next rest hrest =>
      cases h
      simpa using dropStart?_eq_some_iff.mp hrest
    · obtain ⟨inner, hinner, rfl⟩ := Option.map_eq_some_iff.mp h
      simp [ih hinner]

/-- The two sides of the rightmost occurrence and the needle between them are the text. -/
theorem append_of_splitLast? {needle text : List Char} {parts : List Char × List Char}
    (h : splitLast? needle text = some parts) : text = parts.1 ++ needle ++ parts.2 := by
  induction text generalizing parts with
  | nil =>
    simp only [splitLast?] at h
    split at h
    · next hn =>
      cases h
      simpa using hn
    · cases h
  | cons c text ih =>
    simp only [splitLast?] at h
    split at h
    · next inner hinner =>
      cases h
      simp [ih hinner]
    · obtain ⟨rest, hrest, rfl⟩ := Option.map_eq_some_iff.mp h
      simpa using dropStart?_eq_some_iff.mp hrest

/-- One more character in front of the first piece of a cut text. -/
def consFirst (c : Char) : List (List Char) → List (List Char)
  | [] => [[c]]
  | piece :: pieces => (c :: piece) :: pieces

/-- The pieces of a text between the occurrences of `separator`; a text without it is one piece. -/
def segments (separator : Char) : List Char → List (List Char)
  | [] => [[]]
  | c :: text =>
    if c = separator then [] :: segments separator text
    else consFirst c (segments separator text)

/-- There is at least one piece. -/
theorem segments_ne_nil (separator : Char) (text : List Char) : segments separator text ≠ [] := by
  cases text with
  | nil => exact List.cons_ne_nil _ _
  | cons c text =>
    rw [segments]
    split
    · exact List.cons_ne_nil _ _
    · cases segments separator text <;> exact List.cons_ne_nil _ _

end LivingDocs.Text
