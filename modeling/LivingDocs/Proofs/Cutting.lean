import LivingDocs.Proofs.Search
import Mathlib.Data.List.Infix
import Mathlib.Order.Bounds.Basic

/-!
# Where a text is cut

A text that is put together from known pieces comes apart into these pieces again. It is cut at the
rightmost or at the leftmost place where a needle stands; occurrences may overlap. A list on one
line is cut at its separators, and blank ends that were added around an item go away.

## Main definitions

* `LivingDocs.Text.OccursAt` — a needle stands at a position of a text.
* `LivingDocs.Text.OnlyAt` — a needle stands at one position of a text and nowhere else.
* `LivingDocs.Text.Tidy` — a text that is not blank and has no blank ends.

## Main results

* `LivingDocs.Text.splitLast?_eq_some_iff`, `LivingDocs.Text.splitFirst?_append` — where a text is
  cut at a needle.
* `LivingDocs.Text.splitFirst?_singleton_eq_some_iff`,
  `LivingDocs.Text.splitLast?_singleton_eq_some_iff` — where it is cut at one character.
* `LivingDocs.Text.trim_eq_self_iff` — a text without blank ends.
* `LivingDocs.Text.intercalate_segments` — a text is its pieces, with separators between them.
* `LivingDocs.Text.map_trim_segments_intercalate` — a list on one line is read back.
-/

set_option autoImplicit false

namespace LivingDocs.Text

/-! ## Needles -/

/-- **A needle stands at position `i` of a text.** An empty needle stands at all positions, the one
behind the last character included. -/
def OccursAt (needle text : List Char) (i : Nat) : Prop := i ≤ text.length ∧ needle <+: text.drop i

instance (needle text : List Char) (i : Nat) : Decidable (OccursAt needle text i) :=
  inferInstanceAs (Decidable (i ≤ text.length ∧ needle <+: text.drop i))

/-- **A needle stands at position `i` of a text and nowhere else.** -/
def OnlyAt (needle text : List Char) (i : Nat) : Prop :=
  ∀ j ≤ text.length, needle <+: text.drop j → j = i

instance (needle text : List Char) (i : Nat) : Decidable (OnlyAt needle text i) :=
  inferInstanceAs (Decidable (∀ j ≤ text.length, needle <+: text.drop j → j = i))

section Needle

variable {needle front rest : List Char}

/-- A needle stands behind what comes in front of it. -/
lemma occursAt_append (needle front rest : List Char) :
    OccursAt needle (front ++ needle ++ rest) front.length := by
  constructor
  · simp only [List.length_append]
    omega
  · rw [List.append_assoc, List.drop_left]
    exact List.prefix_append needle rest

/-- A needle stands one position further right behind one more character. -/
lemma occursAt_cons_succ {c : Char} {text : List Char} {i : Nat} :
    OccursAt needle (c :: text) (i + 1) ↔ OccursAt needle text i := by
  rw [OccursAt, OccursAt, List.length_cons, List.drop_succ_cons, Nat.add_le_add_iff_right]

/-- A needle that stands at some position is found. -/
lemma OccursAt.occurs {text : List Char} {i : Nat} (h : OccursAt needle text i) :
    occurs needle text = true :=
  occurs_iff.mpr (h.2.isInfix.trans (List.drop_suffix i text).isInfix)

/-- **Nothing starts further right than the rightmost needle.**

**Proof sketch.** Induction on the text. If the search has found a needle behind the first
character, that one is further right than any needle at the start; if it has not, there is only the
start. -/
lemma isGreatest_of_splitLast? {text : List Char} {parts : List Char × List Char}
    (h : splitLast? needle text = some parts) :
    IsGreatest {i | OccursAt needle text i} parts.1.length := by
  induction text generalizing parts with
  | nil =>
    rw [splitLast?] at h
    split at h
    · next hneedle =>
      cases h
      obtain rfl := List.isEmpty_iff.mp hneedle
      exact ⟨⟨le_rfl, List.prefix_refl _⟩, fun i hi => hi.1⟩
    · cases h
  | cons c text ih =>
    rw [splitLast?] at h
    split at h
    · next inner hinner =>
      cases h
      obtain ⟨hmem, hmax⟩ := ih hinner
      refine ⟨occursAt_cons_succ.mpr hmem, fun i hi => ?_⟩
      cases i with
      | zero => exact Nat.zero_le _
      | succ i => exact Nat.succ_le_succ (hmax (occursAt_cons_succ.mp hi))
    · next hnone =>
      obtain ⟨rest, hrest, rfl⟩ := Option.map_eq_some_iff.mp h
      refine ⟨⟨Nat.zero_le _, rest, (dropStart?_eq_some_iff.mp hrest).symm⟩, fun i hi => ?_⟩
      cases i with
      | zero => exact le_rfl
      | succ i =>
        have hfound := (occursAt_cons_succ.mp hi).occurs
        rw [splitLast?_eq_none_iff.mp hnone] at hfound
        cases hfound

/-- **A text is cut at its rightmost needle.** -/
theorem splitLast?_eq_some_iff {text : List Char} : splitLast? needle text = some (front, rest) ↔
    text = front ++ needle ++ rest ∧ IsGreatest {i | OccursAt needle text i} front.length := by
  constructor
  · intro h
    exact ⟨append_of_splitLast? h, isGreatest_of_splitLast? h⟩
  · rintro ⟨htext, hgreatest⟩
    cases hcut : splitLast? needle text with
    | none =>
      have hfound := hgreatest.1.occurs
      rw [splitLast?_eq_none_iff.mp hcut] at hfound
      cases hfound
    | some parts =>
      have hlength : front.length = parts.1.length :=
        hgreatest.unique (isGreatest_of_splitLast? hcut)
      have heq := append_of_splitLast? hcut
      rw [htext, List.append_assoc, List.append_assoc] at heq
      obtain ⟨hfront, hrest⟩ := List.append_inj heq hlength
      rw [hfront, List.append_cancel_left hrest]

/-- **A text is cut at its only needle.** -/
lemma splitLast?_of_onlyAt (h : OnlyAt needle (front ++ needle ++ rest) front.length) :
    splitLast? needle (front ++ needle ++ rest) = some (front, rest) :=
  splitLast?_eq_some_iff.mpr
    ⟨rfl, occursAt_append needle front rest, fun i hi => (h i hi.1 hi.2).le⟩

/-- **A text is cut at its leftmost needle.**

**Proof sketch.** Induction on what stands in front. Its first character does not start a needle, so
the search goes on behind it. -/
lemma splitFirst?_append
    (h : ∀ j < front.length, ¬ needle <+: (front ++ needle ++ rest).drop j) :
    splitFirst? needle (front ++ needle ++ rest) = some (front, rest) := by
  induction front with
  | nil =>
    rw [List.nil_append]
    cases htext : needle ++ rest with
    | nil =>
      obtain ⟨rfl, rfl⟩ := List.append_eq_nil_iff.mp htext
      rfl
    | cons c text => rw [splitFirst?, dropStart?_eq_some_iff.mpr htext.symm]
  | cons c front ih =>
    have hstart : dropStart? needle (c :: (front ++ needle ++ rest)) = none :=
      dropStart?_eq_none_iff.mpr (h 0 (by simp))
    have hrest : splitFirst? needle (front ++ needle ++ rest) = some (front, rest) := by
      apply ih
      intro j hj
      exact h (j + 1) (by simpa using hj)
    rw [List.cons_append, List.cons_append, splitFirst?, hstart, hrest]
    rfl

/-- A text is cut at the first character of a kind. -/
lemma splitFirst?_singleton {c : Char} (h : c ∉ front) :
    splitFirst? [c] (front ++ c :: rest) = some (front, rest) := by
  have hcut : splitFirst? [c] (front ++ [c] ++ rest) = some (front, rest) := by
    apply splitFirst?_append
    rintro j hj ⟨t, ht⟩
    rw [List.append_assoc, List.drop_append_of_le_length hj.le, List.drop_eq_getElem_cons hj] at ht
    obtain ⟨hc, -⟩ := List.cons.inj ht
    exact h (hc ▸ List.getElem_mem hj)
  simpa using hcut

/-- **A text is cut at the first character of a kind**, and only there. -/
lemma splitFirst?_singleton_eq_some_iff {c : Char} {text : List Char} :
    splitFirst? [c] text = some (front, rest) ↔ text = front ++ c :: rest ∧ c ∉ front := by
  refine ⟨fun h => ?_, fun ⟨htext, hc⟩ => htext ▸ splitFirst?_singleton hc⟩
  have htext : text = front ++ c :: rest := by simpa using append_of_splitFirst? h
  refine ⟨htext, fun hc => ?_⟩
  -- the text is cut at the first one of the kind, which would stand further left
  obtain ⟨before, after, rfl, hbefore⟩ := List.eq_append_cons_of_mem hc
  rw [htext, List.append_assoc, List.cons_append, splitFirst?_singleton hbefore] at h
  have hlength := congrArg List.length (congrArg Prod.fst (Option.some.inj h))
  simp only [List.length_append, List.length_cons] at hlength
  omega

/-- **A text is cut at the last character of a kind**, and only there. -/
lemma splitLast?_singleton_eq_some_iff {c : Char} {text : List Char} :
    splitLast? [c] text = some (front, rest) ↔ text = front ++ c :: rest ∧ c ∉ rest := by
  rw [splitLast?_eq_some_iff, List.append_assoc, List.singleton_append]
  refine and_congr_right ?_
  rintro rfl
  constructor
  · rintro ⟨-, hmax⟩ hc
    -- a second one of the kind would stand further right
    obtain ⟨before, after, rfl⟩ := List.append_of_mem hc
    have hoccurs := occursAt_append [c] (front ++ c :: before) after
    have htext : front ++ c :: before ++ [c] ++ after = front ++ c :: (before ++ c :: after) := by
      simp
    rw [htext] at hoccurs
    have hle : (front ++ c :: before).length ≤ front.length := hmax hoccurs
    simp only [List.length_append, List.length_cons] at hle
    omega
  · intro hc
    refine ⟨?_, fun i hi => ?_⟩
    · simpa using occursAt_append [c] front rest
    · by_contra hlt
      obtain ⟨j, rfl⟩ := Nat.exists_eq_add_of_lt (not_le.mp hlt)
      have hmem : c ∈ rest.drop j := by
        have hdrop := hi.2.subset (List.mem_singleton_self c)
        rwa [Nat.add_assoc, List.drop_append, List.drop_eq_nil_of_le (by omega),
          Nat.add_sub_cancel_left, List.drop_succ_cons] at hdrop
      exact hc (List.mem_of_mem_drop hmem)

/-- A character that stands in a text has a last place there. -/
lemma exists_last_of_mem {c : Char} {text : List Char} (h : c ∈ text) :
    ∃ front rest, text = front ++ c :: rest ∧ c ∉ rest := by
  obtain ⟨back, inner, hreverse, hback⟩ := List.eq_append_cons_of_mem (List.mem_reverse.mpr h)
  refine ⟨inner.reverse, back.reverse, ?_, by simpa using hback⟩
  rw [← List.reverse_reverse text, hreverse]
  simp

/-- A text that ends with a character is cut there, if it is cut at the last character of that
kind. -/
lemma splitLast?_concat (front : List Char) (c : Char) :
    splitLast? [c] (front ++ [c]) = some (front, []) :=
  splitLast?_singleton_eq_some_iff.mpr ⟨rfl, List.not_mem_nil⟩

/-- A needle without the character `c` stands on one side of a `c`. -/
lemma infix_append_cons {c : Char} (hc : c ∉ needle) (h : needle <:+: front ++ c :: rest) :
    needle <:+: front ∨ needle <:+: rest := by
  obtain ⟨before, after, heq⟩ := h
  rw [List.append_assoc, List.append_eq_append_iff] at heq
  rcases heq with ⟨middle, rfl, hmiddle⟩ | ⟨middle, rfl, hmiddle⟩
  · -- the needle starts in front of the character, so it has to end there
    rw [List.append_eq_append_iff] at hmiddle
    rcases hmiddle with ⟨more, rfl, -⟩ | ⟨more, hneedle, hmore⟩
    · exact .inl ⟨before, more, by simp⟩
    · cases more with
      | nil => exact .inl ⟨before, [], by simp [hneedle]⟩
      | cons d more =>
        obtain ⟨rfl, -⟩ := List.cons.inj hmore
        exact absurd (hneedle ▸ by simp) hc
  · cases middle with
    | nil =>
      cases needle with
      | nil => exact .inl (List.nil_infix)
      | cons d needle =>
        obtain ⟨rfl, -⟩ := List.cons.inj hmiddle
        exact absurd List.mem_cons_self hc
    | cons d middle =>
      rw [List.cons_append] at hmiddle
      obtain ⟨-, rfl⟩ := List.cons.inj hmiddle
      exact .inr ⟨middle, after, by simp⟩

end Needle

/-! ## Blank ends -/

/-- **A text without blank ends** starts and ends with characters that are not blank. -/
lemma trim_eq_self_iff {text : List Char} : trim text = text ↔
    (∀ c ∈ text.head?, isBlank c = false) ∧ ∀ c ∈ text.getLast?, isBlank c = false := by
  have hself : ∀ {cs : List Char},
      cs.dropWhile isBlank = cs ↔ ∀ c ∈ cs.head?, isBlank c = false := by
    intro cs
    cases cs with
    | nil => simp
    | cons c cs => simp [List.dropWhile_eq_self_iff]
  have hend : trimEnd text = text ↔ ∀ c ∈ text.getLast?, isBlank c = false := by
    rw [trimEnd, List.reverse_eq_iff, hself, List.head?_reverse]
  constructor
  · intro h
    -- nothing was dropped at the start, or the text would have become shorter
    have hsuffix : trimStart text <:+ text := List.dropWhile_suffix _
    have hshorter : (trimEnd (trimStart text)).length ≤ (trimStart text).length := by
      have hdrop : (trimStart text).reverse.dropWhile isBlank <:+ (trimStart text).reverse :=
        List.dropWhile_suffix _
      simpa [trimEnd] using hdrop.length_le
    have hstart : trimStart text = text := by
      apply hsuffix.eq_of_length
      have hle := hsuffix.length_le
      rw [trim] at h
      rw [h] at hshorter
      omega
    rw [trim, hstart] at h
    exact ⟨hself.mp hstart, hend.mp h⟩
  · rintro ⟨hfirst, hlast⟩
    rw [trim, trimStart, hself.mpr hfirst]
    exact hend.mpr hlast

/-- A space in front of a text goes away with its blank ends. -/
lemma trim_cons_space (text : List Char) : trim (' ' :: text) = trim text := by
  rw [trim, trimStart, List.dropWhile_cons_of_pos (by decide)]
  rfl

/-- **A tidy text**: it is not blank, and it has no blank ends. -/
def Tidy (text : String) : Prop := text ≠ "" ∧ trimmed text = text

instance (text : String) : Decidable (Tidy text) :=
  inferInstanceAs (Decidable (text ≠ "" ∧ trimmed text = text))

/-- A tidy text is tidy as a list of characters. -/
lemma tidy_iff {text : String} : Tidy text ↔ text.toList ≠ [] ∧ trim text.toList = text.toList := by
  have hne : text ≠ "" ↔ text.toList ≠ [] := by
    rw [Ne, Ne, ← String.toList_inj]
    rfl
  rw [Tidy, trimmed, hne, ← String.toList_inj, String.toList_ofList]

/-! ## Pieces -/

section Pieces

variable {separator : Char}

/-- A text without the separator is one piece. -/
lemma segments_of_not_mem {text : List Char} (h : separator ∉ text) :
    segments separator text = [text] := by
  induction text with
  | nil => rfl
  | cons c text ih =>
    obtain ⟨hc, htext⟩ := not_or.mp (List.mem_cons.not.mp h)
    rw [segments, if_neg (Ne.symm hc), ih htext]
    rfl

/-- A piece of a text holds no separator. -/
lemma separator_not_mem_of_mem_segments {text piece : List Char}
    (h : piece ∈ segments separator text) : separator ∉ piece := by
  induction text generalizing piece with
  | nil =>
    obtain rfl := List.mem_singleton.mp h
    exact List.not_mem_nil
  | cons c text ih =>
    rw [segments] at h
    split at h
    · rcases List.mem_cons.mp h with rfl | h
      · exact List.not_mem_nil
      · exact ih h
    · next hc =>
      cases hpieces : segments separator text with
      | nil => exact absurd hpieces (segments_ne_nil separator text)
      | cons first pieces =>
        rw [hpieces] at h ih
        rcases List.mem_cons.mp h with rfl | h
        · exact List.not_mem_cons_of_ne_of_not_mem (Ne.symm hc) (ih List.mem_cons_self)
        · exact ih (List.mem_cons_of_mem first h)

/-- The pieces on both sides of a separator are the pieces of the two texts. -/
lemma segments_append (front rest : List Char) : segments separator (front ++ separator :: rest) =
    segments separator front ++ segments separator rest := by
  induction front with
  | nil => simp [segments]
  | cons c front ih =>
    rw [List.cons_append, segments, segments, ih]
    split_ifs
    · rfl
    · cases hpieces : segments separator front with
      | nil => exact absurd hpieces (segments_ne_nil separator front)
      | cons first pieces => rfl

/-- **A text is the pieces between its separators**, with separators between them. -/
lemma intercalate_segments (separator : Char) (text : List Char) :
    [separator].intercalate (segments separator text) = text := by
  induction text with
  | nil => rfl
  | cons c text ih =>
    rw [segments]
    cases hpieces : segments separator text with
    | nil => exact absurd hpieces (segments_ne_nil separator text)
    | cons first pieces =>
      rw [hpieces] at ih
      split_ifs with hc
      · rw [List.intercalate_cons_cons, ih, hc]
        rfl
      · rw [consFirst]
        cases pieces with
        | nil => simpa using ih
        | cons next pieces =>
          rw [List.intercalate_cons_cons] at ih ⊢
          rw [← ih]
          rfl

/-- A space in front of a text is no part of its first piece without blank ends. -/
lemma map_trim_segments_cons_space (h : separator ≠ ' ') (text : List Char) :
    (segments separator (' ' :: text)).map trim = (segments separator text).map trim := by
  rw [segments, if_neg (Ne.symm h)]
  cases hpieces : segments separator text with
  | nil => exact absurd hpieces (segments_ne_nil separator text)
  | cons first pieces => rw [consFirst, List.map_cons, trim_cons_space, List.map_cons]

/-- **A list on one line is read back**: between separators with a space behind each of them stand
the items.

**Proof sketch.** Induction on the items. The first one goes as far as the first separator, and the
space behind that separator does not matter for the rest. -/
lemma map_trim_segments_intercalate (h : separator ≠ ' ') {items : List (List Char)}
    (hne : items ≠ []) (hsep : ∀ item ∈ items, separator ∉ item)
    (htrim : ∀ item ∈ items, trim item = item) :
    (segments separator ([separator, ' '].intercalate items)).map trim = items := by
  induction items with
  | nil => exact absurd rfl hne
  | cons item items ih =>
    have hitem := hsep item List.mem_cons_self
    cases items with
    | nil => simp [segments_of_not_mem hitem, htrim item List.mem_cons_self]
    | cons next items =>
      have hrest := ih (List.cons_ne_nil _ _) (fun x hx => hsep x (List.mem_cons_of_mem item hx))
        fun x hx => htrim x (List.mem_cons_of_mem item hx)
      rw [List.intercalate_cons_cons, List.append_assoc, List.cons_append, List.cons_append,
        List.nil_append, segments_append, segments_of_not_mem hitem, List.singleton_append,
        List.map_cons, htrim item List.mem_cons_self, map_trim_segments_cons_space h, hrest]

/-- A list on one line has no blank ends if its items have none. -/
lemma trim_intercalate {items : List (List Char)} (between : List Char)
    (h : ∀ item ∈ items, item ≠ [] ∧ trim item = item) :
    trim (between.intercalate items) = between.intercalate items := by
  rw [trim_eq_self_iff]
  induction items with
  | nil => simp
  | cons item items ih =>
    obtain ⟨hne, htrim⟩ := h item List.mem_cons_self
    obtain ⟨hfirst, hlast⟩ := trim_eq_self_iff.mp htrim
    cases items with
    | nil => simpa using ⟨hfirst, hlast⟩
    | cons next items =>
      obtain ⟨-, hend⟩ := ih fun x hx => h x (List.mem_cons_of_mem item hx)
      have hrest : between.intercalate (next :: items) ≠ [] := by
        have hnext := (h next (by simp)).1
        cases items <;> simp [hnext]
      rw [List.intercalate_cons_cons]
      constructor
      · rwa [List.append_assoc, List.head?_append_of_ne_nil _ hne]
      · rwa [List.getLast?_append_of_ne_nil _ hrest]

end Pieces

end LivingDocs.Text
