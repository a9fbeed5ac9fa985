import LivingDocs.Proofs.BlankEnds
import LivingDocs.Proofs.Cutting
import Mathlib.Data.List.Forall2

/-!
# Lists of bullet lines

A list goes on as long as the lines mention a bullet. Each of these lines holds one item, the text
after its leftmost bullet, and a list is read exactly if it has a line and no item of it is blank.
There are two ways to fail, and they exclude each other: a list without lines, and a blank item.

## Main definitions

* `LivingDocs.Block.Line.IsItem` — the item of a bullet line.
* `LivingDocs.Block.Line.bulletLines` — the longest run of bullet lines at the start of some lines.
* `LivingDocs.Block.Line.items` — the items of that run, one for each line.
* `LivingDocs.Block.Line.IsBare` — a line with nothing but blanks after its leftmost bullet.
* `LivingDocs.Block.Line.LongestRun` — the run from a position on, said without a search for it.

## Main results

* `LivingDocs.Block.Line.bulletItem?_eq_some_iff` — a line is cut at its leftmost bullet.
* `LivingDocs.Block.Line.bulletList_eq`, `LivingDocs.Block.Line.bulletList_eq_ok_iff` — what comes
  of a list, and when it is read.
* `LivingDocs.Block.Line.longestRun_iff` — the lines that are read as a list are the longest run.
* `LivingDocs.Block.Line.bulletList_outcomes` — what comes of a list at a position.
-/

set_option autoImplicit false

namespace LivingDocs

/-- Nothing starts further left than the leftmost needle. -/
lemma Text.not_prefix_of_splitFirst? {needle text : List Char} {parts : List Char × List Char}
    (h : splitFirst? needle text = some parts) :
    ∀ j < parts.1.length, ¬ needle <+: text.drop j := by
  induction text generalizing parts with
  | nil =>
    rw [splitFirst?] at h
    split at h
    · cases h
      intro j hj
      exact absurd hj (Nat.not_lt_zero j)
    · cases h
  | cons c text ih =>
    rw [splitFirst?] at h
    split at h
    · cases h
      intro j hj
      exact absurd hj (Nat.not_lt_zero j)
    · next hstart =>
      obtain ⟨inner, hinner, rfl⟩ := Option.map_eq_some_iff.mp h
      intro j hj
      cases j with
      | zero =>
        exact dropStart?_eq_none_iff.mp hstart
      | succ j => exact ih hinner j (by simpa using hj)

namespace Block.Line

open Text

variable {bullet keyword line : String} {lines : List String}

/-- **The item of a bullet line**: the text after its leftmost bullet, without blank ends. -/
def IsItem (bullet line item : String) : Prop :=
  ∃ front rest, line.toList = front ++ bullet.toList ++ rest ∧
    (∀ j < front.length, ¬ bullet.toList <+: line.toList.drop j) ∧ item = String.ofList (trim rest)

/-- **A line is cut at its leftmost bullet.** -/
theorem bulletItem?_eq_some_iff {item : String} :
    bulletItem? bullet line = some item ↔ IsItem bullet line item := by
  rw [bulletItem?, Option.map_eq_some_iff]
  constructor
  · rintro ⟨⟨front, rest⟩, hcut, rfl⟩
    exact ⟨front, rest, append_of_splitFirst? hcut, not_prefix_of_splitFirst? hcut, rfl⟩
  · rintro ⟨front, rest, hline, hleftmost, rfl⟩
    rw [hline] at hleftmost ⊢
    exact ⟨(front, rest), splitFirst?_append hleftmost, rfl⟩

/-- A line has no more than one item. -/
lemma IsItem.unique {item other : String} (h : IsItem bullet line item)
    (hother : IsItem bullet line other) : item = other := by
  have hsome := bulletItem?_eq_some_iff.mpr h
  rw [bulletItem?_eq_some_iff.mpr hother] at hsome
  exact (Option.some.inj hsome).symm

/-- **The longest run of bullet lines** at the start of the lines. -/
def bulletLines (bullet : String) (lines : List String) : List String :=
  lines.takeWhile (mentions bullet)

lemma bulletLines_cons (bullet line : String) (lines : List String) :
    bulletLines bullet (line :: lines) =
      if mentions bullet line then line :: bulletLines bullet lines else [] := List.takeWhile_cons

/-- The bullet lines end at a line without the bullet. -/
lemma bulletLines_append_cons (lines below : List String) (h : mentions bullet line = false) :
    bulletLines bullet (lines ++ line :: below) = bulletLines bullet lines := by
  induction lines with
  | nil =>
    rw [List.nil_append, bulletLines_cons, h]
    rfl
  | cons first lines ih => rw [List.cons_append, bulletLines_cons, ih, bulletLines_cons]

/-- The items of the bullet lines at the start of the lines, blank ones too. -/
def items (bullet : String) (lines : List String) : List String :=
  (bulletLines bullet lines).filterMap (bulletItem? bullet)

/-- A line that mentions the bullet has an item. -/
lemma bulletItem?_isSome_iff : (bulletItem? bullet line).isSome = true ↔
    mentions bullet line = true := by
  rw [← Bool.not_eq_false (mentions bullet line), ← bulletItem?_eq_none_iff]
  exact Option.isSome_iff_ne_none

/-- A bullet line has an item. -/
lemma exists_isItem_of_mem_bulletLines (h : line ∈ bulletLines bullet lines) :
    ∃ item, IsItem bullet line item := by
  obtain ⟨item, hitem⟩ := Option.isSome_iff_exists.mp
    (bulletItem?_isSome_iff.mpr (List.mem_takeWhile_imp h))
  exact ⟨item, bulletItem?_eq_some_iff.mp hitem⟩

/-- **There is one item for each bullet line.** -/
lemma length_items (bullet : String) (lines : List String) :
    (items bullet lines).length = (bulletLines bullet lines).length := by
  rw [items, List.filterMap_length_eq_length]
  intro line hline
  exact bulletItem?_isSome_iff.mpr (List.mem_takeWhile_imp hline)

/-- The items are those of the bullet lines. -/
lemma mem_items_iff {item : String} :
    item ∈ items bullet lines ↔ ∃ line ∈ bulletLines bullet lines, IsItem bullet line item := by
  simp only [items, List.mem_filterMap, bulletItem?_eq_some_iff]

/-- There are no items where the first line mentions no bullet. -/
lemma items_of_not_mentions (h : mentions bullet line = false) :
    items bullet (line :: lines) = [] := by
  rw [items, bulletLines_cons, h]
  rfl

/-- The item of a first line that mentions the bullet comes first. -/
lemma items_of_bulletItem? {item : String} (h : bulletItem? bullet line = some item) :
    items bullet (line :: lines) = item :: items bullet lines := by
  have hmentions : mentions bullet line = true := by
    rw [← bulletItem?_isSome_iff, h]
    rfl
  rw [items, bulletLines_cons, hmentions]
  exact List.filterMap_cons_some h

/-- **What comes of a run of bullet lines**: its items, unless one of them is blank.

**Proof sketch.** Induction on the lines. The run ends at the first line without a bullet; a line
with one adds its item, and fails if that is blank. -/
lemma bulletRun_eq (bullet keyword : String) (lines : List String) :
    bulletRun bullet keyword lines =
      if "" ∈ items bullet lines then .error (.emptyListItem keyword)
      else .ok (items bullet lines) := by
  induction lines with
  | nil => rfl
  | cons line lines ih =>
    rw [bulletRun]
    cases hitem : bulletItem? bullet line with
    | none =>
      rw [items_of_not_mentions (bulletItem?_eq_none_iff.mp hitem), if_neg List.not_mem_nil]
    | some item =>
      rw [items_of_bulletItem? hitem, ih]
      dsimp only
      by_cases hblank : item = ""
      · have hmem : "" ∈ item :: items bullet lines := hblank ▸ List.mem_cons_self
        rw [if_pos hblank, if_pos hmem]
      · rw [if_neg hblank]
        by_cases hrest : "" ∈ items bullet lines
        · rw [if_pos hrest, if_pos (List.mem_cons_of_mem item hrest)]
          rfl
        · rw [if_neg hrest, if_neg (List.not_mem_cons_of_ne_of_not_mem (Ne.symm hblank) hrest)]
          rfl

/-- There are items exactly if there are bullet lines. -/
lemma items_eq_nil_iff : items bullet lines = [] ↔ bulletLines bullet lines = [] := by
  rw [← List.length_eq_zero_iff, length_items, List.length_eq_zero_iff]

/-- **What comes of a list**: the items of its run, unless there is none or one of them is blank. -/
lemma bulletList_eq (bullet keyword : String) (lines : List String) :
    bulletList bullet keyword lines =
      if bulletLines bullet lines = [] then .error (.emptyList keyword)
      else if "" ∈ items bullet lines then .error (.emptyListItem keyword)
      else .ok (items bullet lines) := by
  rw [bulletList, bulletRun_eq]
  by_cases hnil : bulletLines bullet lines = []
  · rw [if_pos hnil, items_eq_nil_iff.mpr hnil]
    rfl
  · rw [if_neg hnil]
    by_cases hblank : "" ∈ items bullet lines
    · rw [if_pos hblank]
    · rw [if_neg hblank]
      cases hitems : items bullet lines with
      | nil => exact absurd (items_eq_nil_iff.mp hitems) hnil
      | cons item rest => rfl

/-- Lists with the same bullet lines are read alike. -/
lemma bulletList_congr {others : List String}
    (h : bulletLines bullet lines = bulletLines bullet others) :
    bulletList bullet keyword lines = bulletList bullet keyword others := by
  rw [bulletList_eq, bulletList_eq, items, items, h]

/-- **A list is read exactly if it has a line and none of its items is blank.** -/
theorem bulletList_eq_ok_iff {result : List String} : bulletList bullet keyword lines = .ok result ↔
    result = items bullet lines ∧ bulletLines bullet lines ≠ [] ∧ "" ∉ items bullet lines := by
  rw [bulletList_eq]
  split_ifs with hnil hblank
  · exact iff_of_false nofun fun h => h.2.1 hnil
  · exact iff_of_false nofun fun h => h.2.2 hblank
  · rw [Except.ok.injEq, eq_comm]
    exact ⟨fun h => ⟨h, hnil, hblank⟩, fun h => h.1⟩

/-- No item is blank exactly if something else than blanks follows the leftmost bullet of each
line. -/
lemma empty_not_mem_items_iff : "" ∉ items bullet lines ↔
    ∀ line ∈ bulletLines bullet lines, ∃ item, IsItem bullet line item ∧ item ≠ "" := by
  constructor
  · intro hblank line hline
    obtain ⟨item, hisItem⟩ := exists_isItem_of_mem_bulletLines hline
    refine ⟨item, hisItem, ?_⟩
    rintro rfl
    exact hblank (mem_items_iff.mpr ⟨line, hline, hisItem⟩)
  · intro hfilled hblank
    obtain ⟨line, hline, hempty⟩ := mem_items_iff.mp hblank
    obtain ⟨item, hisItem, hne⟩ := hfilled line hline
    exact hne (hisItem.unique hempty)

/-- **The items stand on the bullet lines**, one on each of them and in their order. -/
lemma forall₂_isItem_items (bullet : String) (lines : List String) :
    List.Forall₂ (IsItem bullet) (bulletLines bullet lines) (items bullet lines) := by
  induction lines with
  | nil => exact .nil
  | cons line lines ih =>
    cases hitem : bulletItem? bullet line with
    | none =>
      have hnot := bulletItem?_eq_none_iff.mp hitem
      rw [items_of_not_mentions hnot, bulletLines_cons, hnot]
      exact .nil
    | some item =>
      have hmentions := bulletItem?_isSome_iff.mp (Option.isSome_of_eq_some hitem)
      rw [items_of_bulletItem? hitem, bulletLines_cons, hmentions]
      exact .cons (bulletItem?_eq_some_iff.mp hitem) ih

/-- Only the items stand on the bullet lines. -/
lemma forall₂_isItem_iff {result : List String} :
    List.Forall₂ (IsItem bullet) (bulletLines bullet lines) result ↔
      result = items bullet lines := by
  constructor
  · intro hresult
    exact List.right_unique_forall₂' (fun _ _ _ ha hb => ha.unique hb) hresult
      (forall₂_isItem_items bullet lines)
  · rintro rfl
    exact forall₂_isItem_items bullet lines

/-! ## Lists that are not read -/

/-- **A bare bullet**: nothing but blanks follows the leftmost bullet of the line. -/
def IsBare (bullet line : String) : Prop :=
  ∃ front rest, line.toList = front ++ bullet.toList ++ rest ∧
    (∀ j < front.length, ¬ bullet.toList <+: line.toList.drop j) ∧ rest.all isBlank = true

/-- A line has a blank item exactly if its bullet is bare. -/
lemma isItem_empty_iff : IsItem bullet line "" ↔ IsBare bullet line := by
  refine exists_congr fun front => exists_congr fun rest => and_congr_right fun _ =>
    and_congr_right fun _ => ?_
  rw [← trim_eq_nil_iff, eq_comm]
  exact String.ofList_eq_empty_iff

/-- An item is missing exactly if a line of the run has a bare bullet. -/
lemma bulletList_eq_emptyListItem_iff {word : String} :
    bulletList bullet keyword lines = .error (.emptyListItem word) ↔
      word = keyword ∧ ∃ line ∈ bulletLines bullet lines, IsBare bullet line := by
  have hblank : "" ∈ items bullet lines ↔
      ∃ line ∈ bulletLines bullet lines, IsBare bullet line := by
    simp only [mem_items_iff, isItem_empty_iff]
  rw [← hblank, bulletList_eq]
  split_ifs with hnil hmem
  · refine iff_of_false nofun fun h => ?_
    rw [items_eq_nil_iff.mpr hnil] at h
    exact List.not_mem_nil h.2
  · rw [Except.error.injEq, Error.emptyListItem.injEq, and_iff_left hmem, eq_comm]
  · exact iff_of_false nofun fun h => hmem h.2

/-- The list is missing exactly if no line stands in the run. -/
lemma bulletList_eq_emptyList_iff {word : String} :
    bulletList bullet keyword lines = .error (.emptyList word) ↔
      word = keyword ∧ bulletLines bullet lines = [] := by
  rw [bulletList_eq]
  split_ifs with hnil hmem
  · rw [Except.error.injEq, Error.emptyList.injEq, and_iff_left hnil, eq_comm]
  · exact iff_of_false nofun fun h => hnil h.2
  · exact iff_of_false nofun fun h => hnil h.2

/-! ## Lists at a position -/

/-- **The longest run of bullet lines from a position on**: lines that stand there one below the
other and hold the bullet, as many of them as there are. Beyond the last line it is empty. -/
structure LongestRun (bullet : String) (lines : List String) (start : Nat) (run : List String) :
    Prop where
  stands : run <+: lines.drop start
  bulleted : ∀ line ∈ run, bullet.toList <:+: line.toList
  longest : ∀ other, other <+: lines.drop start →
    (∀ line ∈ other, bullet.toList <:+: line.toList) → other.length ≤ run.length

variable {start : Nat} {run : List String}

/-- Two longest runs from one position on are the same. -/
lemma LongestRun.unique {other : List String} (h : LongestRun bullet lines start run)
    (hother : LongestRun bullet lines start other) : run = other := by
  have hle := hother.longest run h.stands h.bulleted
  have hge := h.longest other hother.stands hother.bulleted
  exact (List.prefix_of_prefix_length_le h.stands hother.stands hle).eq_of_length
    (Nat.le_antisymm hle hge)

/-- The lines that are read as a list are a longest run. -/
lemma longestRun_bulletLines (bullet : String) (lines : List String) (start : Nat) :
    LongestRun bullet lines start (bulletLines bullet (lines.drop start)) where
  stands := List.takeWhile_prefix _
  bulleted := fun _ hline => mentions_iff.mp (List.mem_takeWhile_imp hline)
  longest := by
    rintro other ⟨rest, hlines⟩ hbulleted
    have hrun : bulletLines bullet (other ++ rest) = other ++ bulletLines bullet rest :=
      List.takeWhile_append_of_pos fun line hline => mentions_iff.mpr (hbulleted line hline)
    rw [← hlines, hrun, List.length_append]
    exact Nat.le_add_right _ _

/-- **The lines that are read as a list are the longest run.** -/
lemma longestRun_iff :
    LongestRun bullet lines start run ↔ run = bulletLines bullet (lines.drop start) := by
  constructor
  · intro h
    exact h.unique (longestRun_bulletLines bullet lines start)
  · rintro rfl
    exact longestRun_bulletLines bullet lines start

/-- An empty bullet stands on every line, so that the run goes on to the last one. -/
lemma longestRun_empty (lines : List String) (start : Nat) :
    LongestRun "" lines start (lines.drop start) where
  stands := List.prefix_refl _
  bulleted := fun _ _ => List.nil_infix
  longest := fun _ hstands _ => hstands.length_le

/-- **When a list is read, and why it is not.** From every position on there is one longest run of
bullet lines. It is read if it has a line and something that is not blank follows the leftmost
bullet of each; then each line gives one item, in order and with repetitions. Otherwise the list
has a bare bullet or no line at all. With an empty bullet the run is all that is left. -/
theorem bulletList_outcomes (bullet keyword : String) (lines : List String) (start : Nat) :
    ∃ run, (∀ other, LongestRun bullet lines start other ↔ other = run) ∧
      ((∃ result, bulletList bullet keyword (lines.drop start) = .ok result) ↔
        run ≠ [] ∧ ∀ line ∈ run, ∃ item, IsItem bullet line item ∧ item ≠ "") ∧
      (∀ result, bulletList bullet keyword (lines.drop start) = .ok result ↔
        run ≠ [] ∧ "" ∉ result ∧ List.Forall₂ (IsItem bullet) run result) ∧
      (∀ word, bulletList bullet keyword (lines.drop start) = .error (.emptyListItem word) ↔
        word = keyword ∧ ∃ line ∈ run, IsBare bullet line) ∧
      (∀ word, bulletList bullet keyword (lines.drop start) = .error (.emptyList word) ↔
        word = keyword ∧ run = []) ∧
      LongestRun "" lines start (lines.drop start) := by
  refine ⟨bulletLines bullet (lines.drop start), fun _ => longestRun_iff, ?_, fun result => ?_,
    fun _ => bulletList_eq_emptyListItem_iff, fun _ => bulletList_eq_emptyList_iff,
    longestRun_empty lines start⟩
  · simp only [bulletList_eq_ok_iff, exists_eq_left, empty_not_mem_items_iff]
  · rw [bulletList_eq_ok_iff, forall₂_isItem_iff]
    constructor
    · rintro ⟨rfl, hne, hblank⟩
      exact ⟨hne, hblank, rfl⟩
    · rintro ⟨hne, hblank, rfl⟩
      exact ⟨rfl, hne, hblank⟩

end Block.Line

end LivingDocs
