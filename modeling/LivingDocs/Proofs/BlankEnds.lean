import LivingDocs.Proofs.Search
import Mathlib.Data.List.Infix

/-!
# What remains without blank ends

Of a text without its blank ends a firm text remains, which starts and ends with characters that are
not blank, or nothing at all. Only blanks go away, and a firm text stays whole wherever it stands.

## Main definitions

* `LivingDocs.Text.Firm` — a text that starts and ends with characters that are not blank.

## Main results

* `LivingDocs.Text.exists_eq_append_trim`, `LivingDocs.Text.firm_trim` — only blanks go away, and
  they all do.
* `LivingDocs.Text.Firm.trim_append` — a firm text stays whole.
* `LivingDocs.Text.exists_trim_append` — what remains of two texts holds what remains of each.
* `LivingDocs.Text.all_isBlank_of_trim_append` — a text behind another one that adds nothing to what
  remains is blank.
-/

set_option autoImplicit false

namespace LivingDocs.Text

/-- Nothing goes away behind the first character that is not blank. -/
lemma trimStart_append_cons {c : Char} (hc : isBlank c = false) (front rest : List Char) :
    trimStart (front ++ c :: rest) = trimStart front ++ c :: rest := by
  have hcons : (c :: rest).dropWhile isBlank = c :: rest :=
    List.dropWhile_cons_of_neg (by simp [hc])
  rw [trimStart, List.dropWhile_append, hcons, trimStart]
  split
  · next hnil => rw [List.isEmpty_iff.mp hnil, List.nil_append]
  · rfl

/-- Nothing goes away in front of the last character that is not blank. -/
lemma trimEnd_append_cons {c : Char} (hc : isBlank c = false) (front rest : List Char) :
    trimEnd (front ++ c :: rest) = front ++ c :: trimEnd rest := by
  have hreverse := trimStart_append_cons hc rest.reverse front.reverse
  have hline : (front ++ c :: rest).reverse = rest.reverse ++ c :: front.reverse := by simp
  change (trimStart (front ++ c :: rest).reverse).reverse = _
  rw [hline, hreverse]
  simp [trimEnd, trimStart]

/-- **A text is what remains of it, between blanks.** -/
lemma exists_eq_append_trim (text : List Char) :
    ∃ front back, text = front ++ trim text ++ back ∧ front.all isBlank = true ∧
      back.all isBlank = true := by
  refine ⟨text.takeWhile isBlank, ((trimStart text).reverse.takeWhile isBlank).reverse, ?_,
    List.all_takeWhile, by simp⟩
  have hstart : text.takeWhile isBlank ++ trimStart text = text := List.takeWhile_append_dropWhile
  have hend : trim text ++ ((trimStart text).reverse.takeWhile isBlank).reverse =
      trimStart text := by
    rw [trim, trimEnd, ← List.reverse_append, List.takeWhile_append_dropWhile,
      List.reverse_reverse]
  rw [List.append_assoc, hend, hstart]

/-- Nothing remains of a text exactly when it is blank. -/
lemma trim_eq_nil_iff {text : List Char} : trim text = [] ↔ text.all isBlank = true := by
  refine ⟨fun h => ?_, trim_eq_nil⟩
  obtain ⟨front, back, htext, hfront, hback⟩ := exists_eq_append_trim text
  rw [htext, h, List.append_nil, List.all_append, hfront, hback]
  rfl

/-! ## Firm texts -/

/-- **A firm text** starts and ends with characters that are not blank. -/
def Firm (text : List Char) : Prop :=
  (∃ c ∈ text.head?, isBlank c = false) ∧ ∃ c ∈ text.getLast?, isBlank c = false

/-- **What remains of a text without its blank ends is firm**, if anything remains. -/
lemma firm_trim {text : List Char} (h : trim text ≠ []) : Firm (trim text) := by
  have hstart := List.head?_dropWhile_not isBlank text
  have hend := List.head?_dropWhile_not isBlank (trimStart text).reverse
  constructor
  · cases hdrop : trimStart text with
    | nil =>
      rw [trim, hdrop] at h
      exact absurd rfl h
    | cons c rest =>
      have hc : isBlank c = false := by
        rw [trimStart] at hdrop
        simpa [hdrop] using hstart
      have htrim : trim text = c :: trimEnd rest := by
        rw [trim, hdrop]
        exact trimEnd_append_cons hc [] rest
      rw [htrim]
      exact ⟨c, rfl, hc⟩
  · rw [trim, trimEnd, List.getLast?_reverse]
    rw [trim, trimEnd, Ne, List.reverse_eq_nil_iff] at h
    cases hdrop : (trimStart text).reverse.dropWhile isBlank with
    | nil => exact absurd hdrop h
    | cons c rest => exact ⟨c, rfl, by simpa [hdrop] using hend⟩

/-- Two firm texts make a firm text, whatever stands between them. -/
lemma Firm.append {a b : List Char} (ha : Firm a) (between : List Char) (hb : Firm b) :
    Firm (a ++ between ++ b) := by
  obtain ⟨first, hfirst, hblank⟩ := ha.1
  obtain ⟨last, hlast, hlastBlank⟩ := hb.2
  obtain ⟨tail, rfl⟩ := List.head?_eq_some_iff.mp hfirst
  obtain ⟨init, rfl⟩ := List.getLast?_eq_some_iff.mp hlast
  refine ⟨⟨first, rfl, hblank⟩, last, ?_, hlastBlank⟩
  rw [← List.append_assoc, List.getLast?_concat]
  rfl

/-- **A firm text stays whole** when the blank ends of a text around it go away. -/
lemma Firm.trim_append {core : List Char} (h : Firm core) (front back : List Char) :
    trim (front ++ core ++ back) = trimStart front ++ core ++ trimEnd back := by
  obtain ⟨⟨first, hfirst, hfirstBlank⟩, last, hlast, hlastBlank⟩ := h
  obtain ⟨tail, rfl⟩ := List.head?_eq_some_iff.mp hfirst
  obtain ⟨init, hinit⟩ := List.getLast?_eq_some_iff.mp hlast
  rw [trim, List.append_assoc, List.cons_append, trimStart_append_cons hfirstBlank,
    ← List.cons_append, hinit]
  have hend := trimEnd_append_cons hlastBlank (trimStart front ++ init) back
  simpa using hend

/-- **What remains of two texts that are not blank** goes from what remains of the first one to what
remains of the second one. -/
lemma exists_trim_append {front rest : List Char} (hfront : trim front ≠ [])
    (hrest : trim rest ≠ []) :
    ∃ between, trim (front ++ rest) = trim front ++ between ++ trim rest := by
  obtain ⟨before, gap, hfrontEq, hbefore, -⟩ := exists_eq_append_trim front
  obtain ⟨gap', back, hrestEq, -, hback⟩ := exists_eq_append_trim rest
  have hfirm := (firm_trim hfront).append (gap ++ gap') (firm_trim hrest)
  have htext : front ++ rest = before ++ (trim front ++ (gap ++ gap') ++ trim rest) ++ back := by
    conv_lhs => rw [hfrontEq, hrestEq]
    simp
  have hstart : trimStart before = [] := by
    rw [trimStart, List.dropWhile_eq_nil_iff]
    simpa using hbefore
  have hend : trimEnd back = [] := by
    rw [trimEnd, List.reverse_eq_nil_iff, List.dropWhile_eq_nil_iff]
    simpa using hback
  refine ⟨gap ++ gap', ?_⟩
  rw [htext, hfirm.trim_append, hstart, hend, List.nil_append, List.append_nil]

/-- **A text behind another one is blank** if what remains of the two is what remains of the
first. -/
lemma all_isBlank_of_trim_append {front rest : List Char} (h : trim (front ++ rest) = trim front) :
    rest.all isBlank = true := by
  rw [← trim_eq_nil_iff]
  by_contra hrest
  by_cases hfront : trim front = []
  · rw [hfront, trim_eq_nil_iff, List.all_append, Bool.and_eq_true] at h
    exact hrest (trim_eq_nil_iff.mpr h.2)
  · obtain ⟨between, hboth⟩ := exists_trim_append hfront hrest
    have hlength := congrArg List.length (hboth.symm.trans h)
    have hpos := List.length_pos_of_ne_nil hrest
    simp only [List.length_append] at hlength
    omega

end LivingDocs.Text
