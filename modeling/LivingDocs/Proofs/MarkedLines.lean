import LivingDocs.Proofs.BulletList
import LivingDocs.Proofs.ExampleName
import LivingDocs.Proofs.Ordered
import Mathlib.Data.Finset.Max

/-!
# Lines behind a marker

More text in front of a line does not move the rightmost word on it, nor what is quoted on it; it
moves the leftmost word only if it brings another one along. So what follows a keyword is the same
behind any marker, and the items of a list are the same behind a marker that adds no bullet. Behind
a marker that holds a bullet itself, each item becomes longer.

## Main definitions

* `LivingDocs.Block.marked` — lines with a marker in front of each of them.
* `LivingDocs.Block.Line.AddsNo` — a marker brings no further occurrence of a word along.
* `LivingDocs.Block.Line.SameItems` — bullet lines with the same items.

## Main results

* `LivingDocs.Block.Line.cut_marker`, `LivingDocs.Block.Line.exampleName_marker` — keywords and
  names behind a marker.
* `LivingDocs.Block.Line.sameItems_marked`, `LivingDocs.Block.Line.not_sameItems_marked` — when the
  items of a list are the same behind a marker, and when they are not.
-/

set_option autoImplicit false

namespace LivingDocs

namespace Text

variable {needle front text : List Char}

/-- **The rightmost needle stays where it is** when more text comes in front. -/
lemma splitLast?_append_left {before rest : List Char}
    (h : splitLast? needle text = some (before, rest)) (front : List Char) :
    splitLast? needle (front ++ text) = some (front ++ before, rest) := by
  induction front with
  | nil => exact h
  | cons c front ih => rw [List.cons_append, splitLast?, ih, List.cons_append]

/-- **The leftmost needle stays where it is** if none starts in the text that comes in front. -/
lemma splitFirst?_append_left (h : ∀ j < front.length, ¬ needle <+: (front ++ text).drop j) :
    splitFirst? needle (front ++ text) =
      (splitFirst? needle text).map fun parts => (front ++ parts.1, parts.2) := by
  induction front with
  | nil => simp
  | cons c front ih =>
    have hstart : dropStart? needle (c :: (front ++ text)) = none :=
      dropStart?_eq_none_iff.mpr (h 0 (by simp))
    have hrest := ih fun j hj => h (j + 1) (by simpa using hj)
    rw [List.cons_append, splitFirst?, hstart, hrest]
    simp [Function.comp_def]

/-- **The leftmost needle stays where it is** when more text follows. -/
lemma splitFirst?_append_right {before rest : List Char}
    (h : splitFirst? needle text = some (before, rest)) (more : List Char) :
    splitFirst? needle (text ++ more) = some (before, rest ++ more) := by
  have htext : text = before ++ needle ++ rest := append_of_splitFirst? h
  have hmore : text ++ more = before ++ needle ++ (rest ++ more) := by
    rw [htext, List.append_assoc]
  rw [hmore]
  apply splitFirst?_append
  intro j hj hstarts
  -- a needle that starts further left ends within the text
  have hlength := congrArg List.length htext
  simp only [List.length_append] at hlength
  rw [← hmore, List.drop_append_of_le_length (by omega)] at hstarts
  apply not_prefix_of_splitFirst? h j hj
  apply List.prefix_of_prefix_length_le hstarts (List.prefix_append _ _)
  rw [List.length_drop]
  omega

end Text

namespace Block

open Text

namespace Line

variable {marker word keyword line : String}

/-! ## A marker in front of a line -/

/-- **A marker brings no further occurrence of a word along**: none starts in it. -/
def AddsNo (marker word line : String) : Prop :=
  ∀ j < marker.toList.length, ¬ word.toList <+: (marker ++ line).toList.drop j

instance (marker word line : String) : Decidable (AddsNo marker word line) :=
  inferInstanceAs
    (Decidable (∀ j < marker.toList.length, ¬ word.toList <+: (marker ++ line).toList.drop j))

/-- The item of a line stays the same behind a marker that adds no bullet. -/
lemma bulletItem?_marker (h : AddsNo marker word line) :
    bulletItem? word (marker ++ line) = bulletItem? word line := by
  rw [AddsNo, String.toList_append] at h
  rw [bulletItem?, String.toList_append, splitFirst?_append_left h, Option.map_map]
  rfl

/-- A line mentions the same behind a marker that adds nothing. -/
lemma mentions_marker (h : AddsNo marker word line) :
    mentions word (marker ++ line) = mentions word line := by
  have hnone : mentions word (marker ++ line) = false ↔ mentions word line = false := by
    rw [← bulletItem?_eq_none_iff, bulletItem?_marker h, bulletItem?_eq_none_iff]
  cases hline : mentions word line with
  | false => exact hnone.mpr hline
  | true =>
    rw [hline] at hnone
    simpa using hnone

/-- What a line mentions, it mentions behind any marker. -/
lemma mentions_marker_of_mentions (marker : String) (h : mentions word line = true) :
    mentions word (marker ++ line) = true := by
  rw [mentions_iff] at h ⊢
  rw [String.toList_append]
  exact h.trans (List.suffix_append _ _).isInfix

/-- **A line is cut at the same keyword behind any marker**, which becomes part of the indent. -/
lemma cut_marker {indent text : String} (h : cut keyword line = .ok (indent, text))
    (marker : String) : cut keyword (marker ++ line) = .ok (marker ++ indent, text) := by
  rw [cut] at h
  rw [cut, String.toList_append]
  cases hsplit : splitLast? keyword.toList line.toList with
  | none =>
    rw [hsplit] at h
    cases h
  | some parts =>
    obtain ⟨before, rest⟩ := parts
    rw [hsplit] at h
    rw [splitLast?_append_left hsplit]
    dsimp only at h ⊢
    split at h
    · cases h
    · obtain ⟨rfl, rfl⟩ := Prod.mk.inj (Except.ok.inj h)
      rw [String.ofList_append, String.ofList_toList]

/-- The text after a keyword is the same behind any marker. -/
lemma after_marker {text : String} (h : after keyword line = .ok text) (marker : String) :
    after keyword (marker ++ line) = .ok text := by
  obtain ⟨⟨indent, rest⟩, hcut, rfl⟩ := map_eq_ok_iff.mp h
  exact map_eq_ok_iff.mpr ⟨_, cut_marker hcut marker, rfl⟩

/-- A list on one line is the same behind any marker. -/
lemma inlineItems_marker {separator : Char} {items : OrderedSet String}
    (h : inlineItems keyword separator line = .ok items) (marker : String) :
    inlineItems keyword separator (marker ++ line) = .ok items := by
  obtain ⟨text, hafter, rfl⟩ := map_eq_ok_iff.mp h
  exact map_eq_ok_iff.mpr ⟨_, after_marker hafter marker, rfl⟩

/-- A character that is no quote does not change what is quoted behind it. -/
lemma betweenQuotes?_cons {c : Char} (hc : c ≠ '"') (text : List Char) :
    betweenQuotes? (c :: text) = betweenQuotes? text := by
  rw [betweenQuotes?, splitFirst?, dropStart?, if_neg (Ne.symm hc), betweenQuotes?]
  cases splitFirst? ['"'] text <;> rfl

/-- The same where the character may also be a line feed. -/
lemma findSome?_betweenQuotes?_cons {c : Char} (hc : c ≠ '"') (text : List Char) :
    (segments '\n' (c :: text)).findSome? betweenQuotes? =
      (segments '\n' text).findSome? betweenQuotes? := by
  rw [segments]
  split
  · rfl
  · cases hpieces : segments '\n' text with
    | nil => exact absurd hpieces (segments_ne_nil _ _)
    | cons piece pieces =>
      rw [consFirst, List.findSome?_cons, List.findSome?_cons, betweenQuotes?_cons hc]

/-- **What is quoted on a line is the same behind a marker without quotes.** -/
lemma quoted?_marker (hmarker : '"' ∉ marker.toList) (line : String) :
    quoted? (marker ++ line) = quoted? line := by
  rw [quoted?, quoted?, String.toList_append]
  congr 1
  generalize marker.toList = front at hmarker ⊢
  induction front with
  | nil => rfl
  | cons c front ih =>
    obtain ⟨hc, hfront⟩ := not_or.mp (List.mem_cons.not.mp hmarker)
    rw [List.cons_append, findSome?_betweenQuotes?_cons (Ne.symm hc), ih hfront]

/-- A marker in front of the line and of the indent goes away together with the indent. -/
lemma dropIndent_marker {indent : String} (h : indent.toList <+: line.toList) :
    dropIndent (marker ++ indent) (marker ++ line) = dropIndent indent line := by
  obtain ⟨rest, hrest⟩ := h
  rw [dropIndent_append hrest.symm]
  apply dropIndent_append
  rw [String.toList_append, String.toList_append, ← hrest, List.append_assoc]

/-- **The name of an example is the same behind a marker without quotes**, if it is quoted or stands
behind the indent. -/
lemma exampleName_marker {indent name : String} (hmarker : '"' ∉ marker.toList)
    (hplace : quoted? line ≠ none ∨ indent.toList <+: line.toList)
    (h : exampleName keyword indent line = .ok name) :
    exampleName keyword (marker ++ indent) (marker ++ line) = .ok name := by
  have hquotes : (marker ++ line).toList.count '"' = line.toList.count '"' := by
    rw [String.toList_append, List.count_append, List.count_eq_zero.mpr hmarker, Nat.zero_add]
  have htext : (quoted? line).getD (dropIndent (marker ++ indent) (marker ++ line)) =
      (quoted? line).getD (dropIndent indent line) := by
    rcases hplace with hquoted | hindent
    · obtain ⟨text, htext⟩ := Option.ne_none_iff_exists'.mp hquoted
      rw [htext]
      rfl
    · rw [dropIndent_marker hindent]
  rw [exampleName] at h
  rw [exampleName, hquotes, quoted?_marker hmarker, htext]
  split at h
  · cases h
  · next hpaired =>
    rw [if_neg hpaired]
    exact h

end Line

/-! ## A marker in front of all lines -/

/-- **Lines with a marker in front of each of them.** -/
def marked (marker : String) (lines : List String) : List String := lines.map (marker ++ ·)

@[simp] lemma marked_cons (marker line : String) (lines : List String) :
    marked marker (line :: lines) = (marker ++ line) :: marked marker lines := rfl

@[simp] lemma drop_marked (marker : String) (lines : List String) (n : Nat) :
    (marked marker lines).drop n = marked marker (lines.drop n) := List.map_drop.symm

/-! ## A marker in front of a list -/

namespace Line

variable {bullet keyword marker : String} {lines : List String}

/-- **Lines have the same items as others**, in any order and with any repetitions. -/
def SameItems (bullet : String) (lines others : List String) : Prop :=
  ∀ item, (∃ line ∈ lines, IsItem bullet line item) ↔ ∃ line ∈ others, IsItem bullet line item

/-- Lists with the same items are stored as the same set. -/
lemma SameItems.ofList_eq {others : List String}
    (h : SameItems bullet (bulletLines bullet lines) (bulletLines bullet others)) :
    OrderedSet.ofList (items bullet lines) = OrderedSet.ofList (items bullet others) := by
  apply OrderedSet.ofList_congr
  intro item
  rw [mem_items_iff, mem_items_iff]
  exact h item

/-- **A list does not get shorter behind a marker.** -/
lemma prefix_bulletLines_marked (bullet marker : String) (lines : List String) :
    marked marker (bulletLines bullet lines) <+: bulletLines bullet (marked marker lines) := by
  induction lines with
  | nil => exact List.prefix_rfl
  | cons line lines ih =>
    cases hline : mentions bullet line with
    | false =>
      rw [bulletLines_cons, hline]
      exact List.nil_prefix
    | true =>
      rw [bulletLines_cons, hline, marked_cons, bulletLines_cons,
        mentions_marker_of_mentions marker hline]
      exact (List.prefix_cons_inj _).mpr ih

/-- The same as an inequality. -/
lemma length_bulletLines_le (bullet marker : String) (lines : List String) :
    (bulletLines bullet lines).length ≤ (bulletLines bullet (marked marker lines)).length := by
  simpa [marked] using (prefix_bulletLines_marked bullet marker lines).length_le

/-- **A list is read behind a marker** if its items stay the same. -/
lemma bulletList_marked {result : List String} (h : bulletList bullet keyword lines = .ok result)
    (hsame : SameItems bullet (bulletLines bullet (marked marker lines))
      (bulletLines bullet lines)) :
    bulletList bullet keyword (marked marker lines) = .ok (items bullet (marked marker lines)) ∧
      OrderedSet.ofList (items bullet (marked marker lines)) = OrderedSet.ofList result := by
  obtain ⟨rfl, hne, hblank⟩ := bulletList_eq_ok_iff.mp h
  refine ⟨bulletList_eq_ok_iff.mpr ⟨rfl, ?_, ?_⟩, hsame.ofList_eq⟩
  · rw [← List.length_pos_iff] at hne ⊢
    exact hne.trans_le (length_bulletLines_le bullet marker lines)
  · rwa [mem_items_iff, hsame "", ← mem_items_iff]

/-- The bullet lines are the same behind a marker that adds no bullet. -/
lemma bulletLines_marked (h : ∀ line ∈ lines, AddsNo marker bullet line) :
    bulletLines bullet (marked marker lines) = marked marker (bulletLines bullet lines) := by
  induction lines with
  | nil => rfl
  | cons line lines ih =>
    obtain ⟨hline, hlines⟩ := List.forall_mem_cons.mp h
    rw [marked_cons, bulletLines_cons, mentions_marker hline, ih hlines, bulletLines_cons]
    split <;> rfl

/-- **The items are the same behind a marker that adds no bullet.** -/
lemma sameItems_marked (h : ∀ line ∈ lines, AddsNo marker bullet line) :
    SameItems bullet (bulletLines bullet (marked marker lines)) (bulletLines bullet lines) := by
  intro item
  rw [bulletLines_marked h]
  simp only [marked, List.mem_map, exists_exists_and_eq_and]
  apply exists_congr
  intro line
  apply and_congr_right
  intro hline
  have hmem : line ∈ lines := List.takeWhile_subset _ hline
  rw [← bulletItem?_eq_some_iff, ← bulletItem?_eq_some_iff, bulletItem?_marker (h line hmem)]

/-- **A bullet in the marker makes the item of a line longer**: the bullet that was leftmost becomes
a part of it. -/
lemma exists_longer_item {line item : String} (hbullet : Visible bullet)
    (hmarker : mentions bullet marker = true) (hitem : IsItem bullet line item)
    (hblank : item ≠ "") :
    ∃ longer, IsItem bullet (marker ++ line) longer ∧ item.length < longer.length := by
  obtain ⟨front, rest, hline, -, rfl⟩ := hitem
  rw [← bulletItem?_isSome_iff, bulletItem?, Option.isSome_map, Option.isSome_iff_exists] at hmarker
  obtain ⟨⟨before, behind⟩, hcut⟩ := hmarker
  refine ⟨String.ofList (trim (behind ++ line.toList)), ?_, ?_⟩
  · rw [← bulletItem?_eq_some_iff, bulletItem?, String.toList_append,
      splitFirst?_append_right hcut]
    rfl
  · have hrest : trim rest ≠ [] := by
      rintro hnil
      rw [hnil] at hblank
      exact hblank rfl
    have hfront : trim (behind ++ front ++ bullet.toList) ≠ [] := by
      obtain ⟨c, hc, hvisible⟩ := hbullet
      rw [Ne, trim_eq_nil_iff, List.all_eq_true]
      intro hall
      have hc' := hall c (List.mem_append_right _ hc)
      rw [hvisible] at hc'
      cases hc'
    obtain ⟨between, hboth⟩ := exists_trim_append hfront hrest
    have hpos := List.length_pos_of_ne_nil hfront
    have htext : behind ++ line.toList = behind ++ front ++ bullet.toList ++ rest := by
      rw [hline]
      simp
    rw [htext, hboth]
    simp only [String.length_ofList, List.length_append]
    omega

/-- **The items are never the same behind a marker with a bullet.**

**Proof sketch.** The longest item becomes longer still. -/
lemma not_sameItems_marked (hbullet : Visible bullet) (hmarker : mentions bullet marker = true)
    (hne : bulletLines bullet lines ≠ []) (hblank : "" ∉ items bullet lines) :
    ¬ SameItems bullet (bulletLines bullet (marked marker lines)) (bulletLines bullet lines) := by
  intro hsame
  have hitems : (items bullet lines).toFinset.Nonempty := by
    rw [List.toFinset_nonempty_iff, ← List.length_pos_iff, length_items]
    exact List.length_pos_of_ne_nil hne
  obtain ⟨item, hitem, hlongest⟩ := Finset.exists_max_image _ String.length hitems
  rw [List.mem_toFinset] at hitem
  obtain ⟨line, hline, hisItem⟩ := mem_items_iff.mp hitem
  obtain ⟨longer, hlonger, hlt⟩ :=
    exists_longer_item hbullet hmarker hisItem fun hempty => hblank (hempty ▸ hitem)
  have hmarked : marker ++ line ∈ bulletLines bullet (marked marker lines) :=
    (prefix_bulletLines_marked bullet marker lines).subset (List.mem_map_of_mem hline)
  have hmem : longer ∈ items bullet lines :=
    mem_items_iff.mpr ((hsame longer).mp ⟨_, hmarked, hlonger⟩)
  exact absurd (hlongest longer (List.mem_toFinset.mpr hmem)) (Nat.not_le.mpr hlt)

end Line

end Block

end LivingDocs
