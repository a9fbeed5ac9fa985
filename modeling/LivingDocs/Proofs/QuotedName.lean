import LivingDocs.Proofs.MarkedLines

/-!
# Names between quotes

The name of an example stands between quotes. What is quoted in a text is the leftmost match of a
quote, any characters but line feeds, and a quote, and of the matches that start there the longest
one. So it goes from the first to the last quote of the first line that has two of them. On a single
line whose quotes pair up it is found as soon as there is a quote at all, and the indent of the
keyword line matters only where there is none.

## Main definitions

* `LivingDocs.Block.Line.BetweenQuotes` — what stands between the first and the last quote.
* `LivingDocs.Block.Line.FirstBetweenQuotes` — the same on the first line that has two quotes.
* `LivingDocs.Block.Line.MatchesAt`, `LivingDocs.Block.Line.LeftmostLongest` — a match of the
  pattern for quoted text, and the one that counts.
* `LivingDocs.Block.Line.Names` — what comes of a text that should be a name.

## Main results

* `LivingDocs.Block.Line.quoted?_eq_some_iff`, `LivingDocs.Block.Line.quoted?_eq_none_iff` — the
  first and the last quote.
* `LivingDocs.Block.Line.quoted?_eq_some_iff_leftmostLongest` — the match that counts.
* `LivingDocs.Block.Line.exampleName_by_quotes` — the name of an example, by the number of quotes.
-/

set_option autoImplicit false

namespace LivingDocs.Block.Line

open Text

/-! ## The first and the last quote -/

section Quotes

variable {piece inner text : List Char}

/-- **What stands between the first and the last quote** of a piece of text. -/
def BetweenQuotes (piece inner : List Char) : Prop :=
  ∃ front back, piece = front ++ '"' :: (inner ++ '"' :: back) ∧ '"' ∉ front ∧ '"' ∉ back

lemma betweenQuotes?_eq_some_iff :
    betweenQuotes? piece = some inner ↔ BetweenQuotes piece inner := by
  rw [betweenQuotes?]
  constructor
  · intro h
    split at h
    · cases h
    · next front rest hfirst =>
      obtain ⟨⟨_, back⟩, hlast, rfl⟩ := Option.map_eq_some_iff.mp h
      obtain ⟨rfl, hfront⟩ := splitFirst?_singleton_eq_some_iff.mp hfirst
      obtain ⟨rfl, hback⟩ := splitLast?_singleton_eq_some_iff.mp hlast
      exact ⟨front, back, rfl, hfront, hback⟩
  · rintro ⟨front, back, rfl, hfront, hback⟩
    rw [splitFirst?_singleton hfront]
    dsimp only
    rw [splitLast?_singleton_eq_some_iff.mpr ⟨rfl, hback⟩]
    rfl

/-- Between a first and a last quote there are two quotes. -/
lemma BetweenQuotes.two_le_count (h : BetweenQuotes piece inner) : 2 ≤ piece.count '"' := by
  obtain ⟨front, back, rfl, -, -⟩ := h
  simp only [List.count_append, List.count_cons_self]
  omega

/-- Two quotes have a text between them. -/
lemma exists_betweenQuotes (h : 2 ≤ piece.count '"') : ∃ inner, BetweenQuotes piece inner := by
  have hfirst : '"' ∈ piece := List.count_pos_iff.mp (by omega)
  obtain ⟨front, rest, rfl, hfront⟩ := List.eq_append_cons_of_mem hfirst
  rw [List.count_append, List.count_cons_self, List.count_eq_zero.mpr hfront] at h
  have hlast : '"' ∈ rest := List.count_pos_iff.mp (by omega)
  obtain ⟨inner, back, rfl, hback⟩ := exists_last_of_mem hlast
  exact ⟨inner, front, back, rfl, hfront, hback⟩

lemma betweenQuotes?_eq_none_iff : betweenQuotes? piece = none ↔ piece.count '"' < 2 := by
  rw [← not_le, ← Option.not_isSome_iff_eq_none, Option.isSome_iff_exists]
  simp only [betweenQuotes?_eq_some_iff]
  exact not_congr ⟨fun ⟨_, h⟩ => h.two_le_count, exists_betweenQuotes⟩

/-- **What stands between the first and the last quote of the first line that has two quotes.** -/
def FirstBetweenQuotes (text inner : List Char) : Prop :=
  ∃ before piece after, segments '\n' text = before ++ piece :: after ∧
    (∀ earlier ∈ before, earlier.count '"' < 2) ∧ BetweenQuotes piece inner

/-- **What is quoted stands on the first line that has two quotes.** -/
lemma quoted?_eq_some_iff {text inner : String} :
    quoted? text = some inner ↔ FirstBetweenQuotes text.toList inner.toList := by
  rw [quoted?, Option.map_eq_some_iff, FirstBetweenQuotes]
  constructor
  · rintro ⟨inner, hfound, rfl⟩
    obtain ⟨before, piece, after, hpieces, hpiece, hbefore⟩ :=
      List.findSome?_eq_some_iff.mp hfound
    rw [String.toList_ofList]
    exact ⟨before, piece, after, hpieces,
      fun earlier hearlier => betweenQuotes?_eq_none_iff.mp (hbefore earlier hearlier),
      betweenQuotes?_eq_some_iff.mp hpiece⟩
  · rintro ⟨before, piece, after, hpieces, hbefore, hpiece⟩
    refine ⟨inner.toList, ?_, String.ofList_toList⟩
    exact List.findSome?_eq_some_iff.mpr ⟨before, piece, after, hpieces,
      betweenQuotes?_eq_some_iff.mpr hpiece,
      fun earlier hearlier => betweenQuotes?_eq_none_iff.mpr (hbefore earlier hearlier)⟩

/-- **Nothing is quoted exactly if no line has two quotes.** -/
lemma quoted?_eq_none_iff {text : String} :
    quoted? text = none ↔ ∀ piece ∈ segments '\n' text.toList, piece.count '"' < 2 := by
  rw [quoted?, Option.map_eq_none_iff, List.findSome?_eq_none_iff]
  simp only [betweenQuotes?_eq_none_iff]

end Quotes

/-! ## The match that counts -/

section Matches

variable {c : Char} {text inner other : List Char} {i : Nat}

/-- **The pattern for quoted text matches at position `i`**: a quote stands there, then `inner` on
the same line, and then a quote. -/
def MatchesAt (text : List Char) (i : Nat) (inner : List Char) : Prop :=
  '\n' ∉ inner ∧ OccursAt ('"' :: (inner ++ ['"'])) text i

/-- **The match that counts**: none starts further left, and none that starts there is longer. -/
def LeftmostLongest (text inner : List Char) : Prop :=
  ∃ i, MatchesAt text i inner ∧ (∀ j < i, ∀ other, ¬ MatchesAt text j other) ∧
    ∀ other, MatchesAt text i other → other.length ≤ inner.length

lemma matchesAt_cons_succ : MatchesAt (c :: text) (i + 1) inner ↔ MatchesAt text i inner :=
  and_congr_right fun _ => occursAt_cons_succ

lemma matchesAt_cons_zero : MatchesAt (c :: text) 0 inner ↔
    c = '"' ∧ '\n' ∉ inner ∧ inner ++ ['"'] <+: text := by
  rw [MatchesAt, OccursAt, List.drop_zero, List.cons_prefix_cons, eq_comm]
  constructor
  · rintro ⟨hline, -, hc, hstart⟩
    exact ⟨hc, hline, hstart⟩
  · rintro ⟨hc, hline, hstart⟩
    exact ⟨hline, Nat.zero_le _, hc, hstart⟩

/-- There is one match that counts at most. -/
lemma LeftmostLongest.unique (h : LeftmostLongest text inner) (h' : LeftmostLongest text other) :
    inner = other := by
  obtain ⟨i, hmatch, hleft, hlong⟩ := h
  obtain ⟨j, hmatch', hleft', hlong'⟩ := h'
  obtain rfl : i = j := by
    rcases Nat.lt_trichotomy i j with hlt | heq | hlt
    · exact absurd hmatch (hleft' i hlt inner)
    · exact heq
    · exact absurd hmatch' (hleft j hlt other)
  have hlength : inner.length = other.length :=
    Nat.le_antisymm (hlong' inner hmatch) (hlong other hmatch')
  have hbegins := List.prefix_of_prefix_length_le hmatch.2.2 hmatch'.2.2 (by simp [hlength])
  have heq := hbegins.eq_of_length (by simp [hlength])
  exact List.append_cancel_right (List.cons.inj heq).2

/-- A match that counts still does so behind a character where none starts. -/
lemma LeftmostLongest.cons (h : LeftmostLongest text inner)
    (hnone : ∀ other, ¬ MatchesAt (c :: text) 0 other) : LeftmostLongest (c :: text) inner := by
  obtain ⟨i, hmatch, hleft, hlong⟩ := h
  refine ⟨i + 1, matchesAt_cons_succ.mpr hmatch, fun j hj other hother => ?_,
    fun other hother => ?_⟩
  · cases j with
    | zero => exact hnone other hother
    | succ j =>
      exact hleft j (Nat.lt_of_succ_lt_succ hj) other (matchesAt_cons_succ.mp hother)
  · exact hlong other (matchesAt_cons_succ.mp hother)

/-- A text without line feeds stands at the start of a text exactly if it stands at the start of its
first line. -/
lemma prefix_iff_prefix_line {needle line : List Char} {lines : List (List Char)}
    (hlines : segments '\n' text = line :: lines) (hneedle : '\n' ∉ needle) :
    needle <+: text ↔ needle <+: line := by
  have htext := intercalate_segments '\n' text
  rw [hlines] at htext
  cases lines with
  | nil =>
    rw [List.intercalate_singleton] at htext
    rw [htext]
  | cons next lines =>
    rw [List.intercalate_cons_cons, List.append_assoc, List.singleton_append] at htext
    rw [← htext]
    refine ⟨fun h => ?_, fun h => h.trans (List.prefix_append _ _)⟩
    rcases List.prefix_or_prefix_of_prefix h (List.prefix_append line _) with hstart | ⟨more, rfl⟩
    · exact hstart
    · -- what goes beyond the first line would start with the line feed
      cases more with
      | nil => simp
      | cons d more =>
        have hd : d = '\n' := by
          have hmore := (List.prefix_append_right_inj line).mp h
          exact (List.cons_prefix_cons.mp hmore).1
        exact absurd (hd ▸ by simp) hneedle

/-- At a quote, the pattern matches as far as the quotes further on in the same line. -/
lemma matchesAt_quote_iff {line : List Char} {lines : List (List Char)}
    (hlines : segments '\n' text = line :: lines) :
    MatchesAt ('"' :: text) 0 inner ↔ inner ++ ['"'] <+: line := by
  rw [matchesAt_cons_zero]
  constructor
  · rintro ⟨-, hinner, hstart⟩
    exact (prefix_iff_prefix_line hlines (by simpa using hinner)).mp hstart
  · intro hstart
    have hmem : line ∈ segments '\n' text := by simp [hlines]
    have hline := separator_not_mem_of_mem_segments hmem
    have hneedle : '\n' ∉ inner ++ ['"'] := fun h => hline (hstart.subset h)
    exact ⟨rfl, fun h => hneedle (by simp [h]),
      (prefix_iff_prefix_line hlines hneedle).mpr hstart⟩

/-- **One step of the search that fails**: where no match starts at the first character, what is
quoted stands behind it. -/
lemma findSome?_cons_of_not_matchesAt (h : ∀ other, ¬ MatchesAt (c :: text) 0 other) :
    (segments '\n' (c :: text)).findSome? betweenQuotes? =
      (segments '\n' text).findSome? betweenQuotes? := by
  by_cases hc : c = '"'
  · subst hc
    cases hlines : segments '\n' text with
    | nil => exact absurd hlines (segments_ne_nil _ _)
    | cons line lines =>
      have hline : '"' ∉ line := by
        intro hquote
        obtain ⟨front, back, rfl⟩ := List.append_of_mem hquote
        exact h front ((matchesAt_quote_iff hlines).mpr ⟨back, by simp⟩)
      have hcount := List.count_eq_zero.mpr hline
      have hnone : betweenQuotes? line = none := betweenQuotes?_eq_none_iff.mpr (by omega)
      have hnone' : betweenQuotes? ('"' :: line) = none :=
        betweenQuotes?_eq_none_iff.mpr (by simp [hcount])
      rw [segments, if_neg (by decide), hlines, consFirst, List.findSome?_cons, hnone',
        List.findSome?_cons, hnone]
  · exact findSome?_betweenQuotes?_cons hc text

/-- Between a quote at the start and the last quote. -/
lemma betweenQuotes_quote_iff {line : List Char} : BetweenQuotes ('"' :: line) inner ↔
    ∃ back, line = inner ++ '"' :: back ∧ '"' ∉ back := by
  constructor
  · rintro ⟨front, back, heq, hfront, hback⟩
    cases front with
    | nil => exact ⟨back, (List.cons.inj heq).2, hback⟩
    | cons d front =>
      obtain ⟨rfl, -⟩ := List.cons.inj heq
      exact absurd List.mem_cons_self hfront
  · rintro ⟨back, rfl, hback⟩
    exact ⟨[], back, rfl, List.not_mem_nil, hback⟩

/-- No match goes beyond the last quote of its line. -/
lemma length_le_of_last_quote {back : List Char} (hback : '"' ∉ back)
    (h : other ++ ['"'] <+: inner ++ '"' :: back) : other.length ≤ inner.length := by
  by_contra hlonger
  have hwhole : inner ++ ['"'] <+: inner ++ '"' :: back := ⟨back, by simp⟩
  have hlength : (inner ++ ['"']).length ≤ other.length := by
    rw [List.length_append, List.length_singleton]
    omega
  obtain ⟨more, rfl⟩ := List.prefix_of_prefix_length_le hwhole
    ((List.prefix_append other _).trans h) hlength
  rw [List.append_assoc, List.append_assoc, List.prefix_append_right_inj, List.singleton_append,
    List.cons_prefix_cons] at h
  exact hback (h.2.subset (by simp))

/-- **The step of the search that succeeds**: where a match starts at the first character, the
longest one of them is what is quoted. -/
lemma exists_leftmostLongest_of_matchesAt (h : MatchesAt (c :: text) 0 other) :
    ∃ inner, (segments '\n' (c :: text)).findSome? betweenQuotes? = some inner ∧
      LeftmostLongest (c :: text) inner := by
  obtain ⟨rfl, -⟩ := matchesAt_cons_zero.mp h
  cases hlines : segments '\n' text with
  | nil => exact absurd hlines (segments_ne_nil _ _)
  | cons line lines =>
    have hquote : '"' ∈ line := ((matchesAt_quote_iff hlines).mp h).subset (by simp)
    obtain ⟨inner, hinner⟩ : ∃ inner, BetweenQuotes ('"' :: line) inner := by
      have hpos := List.count_pos_iff.mpr hquote
      exact exists_betweenQuotes (by rw [List.count_cons_self]; omega)
    refine ⟨inner, ?_, 0, ?_, nofun, fun longer hlonger => ?_⟩
    · rw [segments, if_neg (by decide), hlines, consFirst, List.findSome?_cons,
        betweenQuotes?_eq_some_iff.mpr hinner]
    · obtain ⟨back, rfl, -⟩ := betweenQuotes_quote_iff.mp hinner
      exact (matchesAt_quote_iff hlines).mpr ⟨back, by simp⟩
    · obtain ⟨back, rfl, hback⟩ := betweenQuotes_quote_iff.mp hinner
      exact length_le_of_last_quote hback ((matchesAt_quote_iff hlines).mp hlonger)

/-- **The whole search**: what is quoted is the match that counts, and there is no match if nothing
is quoted.

**Proof sketch.** Induction on the text, which is the search from left to right. Either a match
starts at the first character, or what is quoted stands behind it. -/
lemma search_leftmostLongest (text : List Char) :
    (∀ inner, (segments '\n' text).findSome? betweenQuotes? = some inner →
      LeftmostLongest text inner) ∧
    ((segments '\n' text).findSome? betweenQuotes? = none →
      ∀ i inner, ¬ MatchesAt text i inner) := by
  induction text with
  | nil =>
    refine ⟨nofun, fun _ i inner hmatch => ?_⟩
    have hbegins := hmatch.2.2
    rw [List.drop_nil] at hbegins
    cases List.prefix_nil.mp hbegins
  | cons c text ih =>
    by_cases h : ∃ other, MatchesAt (c :: text) 0 other
    · obtain ⟨other, hother⟩ := h
      obtain ⟨inner, hfound, hcounts⟩ := exists_leftmostLongest_of_matchesAt hother
      rw [hfound]
      exact ⟨fun _ heq => Option.some.inj heq ▸ hcounts, nofun⟩
    · have hnone := not_exists.mp h
      rw [findSome?_cons_of_not_matchesAt hnone]
      refine ⟨fun inner hfound => (ih.1 inner hfound).cons hnone, fun hfound i inner hmatch => ?_⟩
      cases i with
      | zero => exact hnone inner hmatch
      | succ i => exact ih.2 hfound i inner (matchesAt_cons_succ.mp hmatch)

/-- **What is quoted is the leftmost match, and of those that start there the longest one.** -/
lemma quoted?_eq_some_iff_leftmostLongest {text inner : String} :
    quoted? text = some inner ↔ LeftmostLongest text.toList inner.toList := by
  obtain ⟨hsome, hnone⟩ := search_leftmostLongest text.toList
  rw [quoted?, Option.map_eq_some_iff]
  constructor
  · rintro ⟨inner, hfound, rfl⟩
    rw [String.toList_ofList]
    exact hsome inner hfound
  · intro hcounts
    cases hfound : (segments '\n' text.toList).findSome? betweenQuotes? with
    | none =>
      obtain ⟨i, hmatch, -⟩ := hcounts
      exact absurd hmatch (hnone hfound i _)
    | some other =>
      refine ⟨other, rfl, ?_⟩
      rw [(hsome other hfound).unique hcounts, String.ofList_toList]

end Matches

/-! ## The name of an example -/

section Name

variable {keyword indent line text : String}

/-- **What comes of a text that should be a name**: it is the name without its blank ends, and there
is no name exactly if it is blank. -/
structure Names (keyword text : String) (result : Except Error String) : Prop where
  blank : result = .error (.emptyName keyword) ↔ isAllBlank text = true
  name : isAllBlank text = false → result = .ok (trimmed text)

lemma names_ite (keyword text : String) : Names keyword text
    (if trimmed text = "" then .error (.emptyName keyword) else .ok (trimmed text)) := by
  have hblank : trimmed text = "" ↔ isAllBlank text = true := trimmed_eq_empty_iff
  split_ifs with h
  · exact ⟨iff_of_true rfl (hblank.mp h), fun hnot => absurd (hblank.mp h) (by simp [hnot])⟩
  · exact ⟨iff_of_false nofun (mt hblank.mpr h), fun _ => rfl⟩

/-- The name on a line whose quotes pair up. -/
lemma exampleName_of_even (h : line.toList.count '"' % 2 = 0) : exampleName keyword indent line =
    if trimmed ((quoted? line).getD (dropIndent indent line)) = "" then .error (.emptyName keyword)
    else .ok (trimmed ((quoted? line).getD (dropIndent indent line))) := by
  rw [exampleName, if_neg (by omega)]

/-- Only an odd number of quotes does not pair up. -/
lemma exampleName_eq_unmatchedQuotes_iff {word shown : String} :
    exampleName keyword indent line = .error (.unmatchedQuotes word shown) ↔
      word = keyword ∧ shown = line ∧ line.toList.count '"' % 2 = 1 := by
  by_cases hodd : line.toList.count '"' % 2 = 1
  · rw [exampleName, if_pos hodd]
    simp [hodd, eq_comm]
  · rw [exampleName_of_even (by omega)]
    split_ifs <;> simp [hodd]

/-- On a single line with a pair of quotes there is something quoted. -/
lemma exists_quoted_of_even (hline : '\n' ∉ line.toList) (heven : line.toList.count '"' % 2 = 0)
    (hpos : 0 < line.toList.count '"') :
    ∃ inner, BetweenQuotes line.toList inner.toList ∧ quoted? line = some inner := by
  have htwo : 2 ≤ line.toList.count '"' := by omega
  obtain ⟨inner, hinner⟩ := exists_betweenQuotes htwo
  refine ⟨String.ofList inner, by rwa [String.toList_ofList], quoted?_eq_some_iff.mpr ?_⟩
  rw [FirstBetweenQuotes, segments_of_not_mem hline, String.toList_ofList]
  exact ⟨[], line.toList, [], rfl, nofun, hinner⟩

/-- **How the quotes on a line decide about the name**: an odd number of them does not pair up; with
an even number the name stands between the first and the last one, whatever the indent is; without
any the name is the line, without the indent if it starts with it. -/
structure NamedByQuotes (keyword indent line : String) : Prop where
  odd : ∀ word shown, exampleName keyword indent line = .error (.unmatchedQuotes word shown) ↔
    word = keyword ∧ shown = line ∧ line.toList.count '"' % 2 = 1
  even : line.toList.count '"' % 2 = 0 → 0 < line.toList.count '"' →
    ∃ inner, BetweenQuotes line.toList inner.toList ∧
      ∀ other, Names keyword inner (exampleName keyword other line)
  indented : line.toList.count '"' = 0 → ∀ rest, line = indent ++ rest →
    Names keyword rest (exampleName keyword indent line)
  plain : line.toList.count '"' = 0 → ¬ indent.toList <+: line.toList →
    Names keyword line (exampleName keyword indent line)

lemma namedByQuotes_of_line (keyword indent : String) (hline : '\n' ∉ line.toList) :
    NamedByQuotes keyword indent line where
  odd _ _ := exampleName_eq_unmatchedQuotes_iff
  even heven hpos := by
    obtain ⟨inner, hinner, hquoted⟩ := exists_quoted_of_even hline heven hpos
    refine ⟨inner, hinner, fun other => ?_⟩
    rw [exampleName_of_even heven, hquoted, Option.getD_some]
    exact names_ite keyword inner
  indented hzero rest hrest := by
    have hlist : line.toList = indent.toList ++ rest.toList := by rw [hrest, String.toList_append]
    rw [exampleName_of_not_quote (List.count_eq_zero.mp hzero), dropIndent_append hlist,
      String.ofList_toList]
    exact names_ite keyword rest
  plain hzero hindent := by
    rw [exampleName_of_not_quote (List.count_eq_zero.mp hzero), dropIndent_eq_self hindent]
    exact names_ite keyword line

/-- **The name of an example, by the quotes on its line.** What is quoted in a text is the leftmost
longest match, which goes from the first to the last quote of the first line with two quotes; there
is none exactly if no line has two. On a single line, the number of quotes decides about the
name. -/
theorem exampleName_by_quotes (text keyword indent line : String) :
    (∀ inner, quoted? text = some inner ↔ FirstBetweenQuotes text.toList inner.toList) ∧
      (∀ inner, quoted? text = some inner ↔ LeftmostLongest text.toList inner.toList) ∧
      (quoted? text = none ↔ ∀ piece ∈ segments '\n' text.toList, piece.count '"' < 2) ∧
      ('\n' ∉ line.toList → NamedByQuotes keyword indent line) :=
  ⟨fun _ => quoted?_eq_some_iff, fun _ => quoted?_eq_some_iff_leftmostLongest,
    quoted?_eq_none_iff, namedByQuotes_of_line keyword indent⟩

/-- A name with quotes in it, on the first line of a text that has two quotes. -/
theorem exampleName_by_quotes_nested :
    LeftmostLongest "5\" wide\nit(\" I \"fly\" \") \n\"\"".toList " I \"fly\" ".toList ∧
      '\n' ∉ "it(\" I \"fly\" \")".toList ∧
      NamedByQuotes "aerial:example" "it" "it(\" I \"fly\" \")" ∧
      exampleName "aerial:example" "it" "it(\" I \"fly\" \")" = .ok "I \"fly\"" := by
  have hspec := exampleName_by_quotes "5\" wide\nit(\" I \"fly\" \") \n\"\"" "aerial:example" "it"
    "it(\" I \"fly\" \")"
  exact ⟨(hspec.2.1 _).mp (by decide +kernel), by decide, hspec.2.2.2 (by decide),
    by decide +kernel⟩

end Name

end LivingDocs.Block.Line
