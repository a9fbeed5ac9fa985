import LivingDocs.Proofs.BlockExtent
import LivingDocs.Proofs.MarkedLines
import LivingDocs.Proofs.WrittenBlock
import Mathlib.Data.List.Find

/-!
# Blocks in comments

A block may be part of a comment whose marker stands in front of every line. Keywords are looked for
anywhere on a line, so a marker that brings none of them along changes nothing about the parts of a
block but its list. A list is different, since an item is cut at the leftmost bullet: it is kept
where the marker adds no bullet, and lost where the marker holds one itself.

## Main definitions

* `LivingDocs.Block.Unobtrusive` — a marker without quotes that adds no keyword.
* `LivingDocs.Block.NameInPlace` — the name line of an example is quoted or starts with the indent.
* `LivingDocs.Block.KeepsList` — a marker keeps the list of an entity.

## Main results

* `LivingDocs.Block.readAt_marked` — a block behind a marker is read as it is without the marker
  exactly if the marker keeps its list.
* `LivingDocs.Block.not_readAt_starred` — a marker that changes what is read.
-/

set_option autoImplicit false

namespace LivingDocs.Block

open Text

/-! ## The words of the grammar -/

/-- The words of a grammar that stand anywhere on a line: all but the bullet. -/
def Grammar.words (grammar : Grammar) : List String :=
  grammar.blocks.map Prod.fst ++ [grammar.desc, grammar.tags, grammar.features, grammar.values]

/-- **An unobtrusive marker** holds no quote and adds no word of the grammar to the lines. -/
structure Unobtrusive (grammar : Grammar) (marker : String) (lines : List String) : Prop where
  quote : '"' ∉ marker.toList
  words : ∀ line ∈ lines, ∀ word ∈ grammar.words, Line.AddsNo marker word line

instance (grammar : Grammar) (marker : String) (lines : List String) :
    Decidable (Unobtrusive grammar marker lines) :=
  decidable_of_iff ('"' ∉ marker.toList ∧
      ∀ line ∈ lines, ∀ word ∈ grammar.words, Line.AddsNo marker word line)
    ⟨fun h => ⟨h.1, h.2⟩, fun h => ⟨h.quote, h.words⟩⟩

section Keywords

variable {grammar : Grammar} {marker word : String} {lines : List String}

/-- An unobtrusive marker is one for fewer lines. -/
lemma Unobtrusive.drop (h : Unobtrusive grammar marker lines) (n : Nat) :
    Unobtrusive grammar marker (lines.drop n) :=
  ⟨h.quote, fun line hline => h.words line (List.mem_of_mem_drop hline)⟩

/-- The block keyword of a line is the same behind an unobtrusive marker. -/
lemma Unobtrusive.match?_marker {line : String} (h : Unobtrusive grammar marker (line :: lines)) :
    grammar.match? (marker ++ line) = grammar.match? line := by
  rw [Grammar.match?, Grammar.match?]
  apply List.find?_congr
  intro entry hentry
  have hword : entry.1 ∈ grammar.words :=
    List.mem_append_left _ (List.mem_map_of_mem hentry)
  rw [Line.mentions_marker (h.words line List.mem_cons_self entry.1 hword)]

/-- A word of the grammar stands on the same lines behind an unobtrusive marker. -/
lemma Unobtrusive.mentionsAt_marked (h : Unobtrusive grammar marker lines)
    (hword : word ∈ grammar.words) (i : Nat) :
    mentionsAt word (marked marker lines) i = mentionsAt word lines i := by
  rw [mentionsAt, mentionsAt, marked, List.getElem?_map]
  cases hline : lines[i]? with
  | none => rfl
  | some line =>
    exact Line.mentions_marker (h.words line (List.mem_of_getElem? hline) word hword)

/-- **A part that may be left out is read behind an unobtrusive marker** as it is without it. -/
lemma Unobtrusive.readOptional_marked {α : Type} {parse : String → Except Error α}
    {absent value : α} {n : Nat} (h : Unobtrusive grammar marker lines)
    (hword : word ∈ grammar.words)
    (hparse : ∀ line, parse line = .ok value → parse (marker ++ line) = .ok value)
    (hread : readOptional word parse absent lines = .ok (value, n)) :
    readOptional word parse absent (marked marker lines) = .ok (value, n) := by
  rw [readOptional_eq_ok_iff] at hread ⊢
  rcases hread with ⟨hnot, hvalue, hn⟩ | ⟨line, hline, hmentions, hvalue, hn⟩
  · exact .inl ⟨by rw [h.mentionsAt_marked hword, hnot], hvalue, hn⟩
  · refine .inr ⟨marker ++ line, ?_, ?_, hparse line hvalue, hn⟩
    · rw [marked, List.head?_map, hline]
      rfl
    · exact Line.mentions_marker_of_mentions marker hmentions

/-- The tags are read behind an unobtrusive marker as they are without it. -/
lemma Unobtrusive.readTags_marked {tags : OrderedSet String} {n : Nat}
    (h : Unobtrusive grammar marker lines) (hread : readTags grammar lines = .ok (tags, n)) :
    readTags grammar (marked marker lines) = .ok (tags, n) := by
  rw [readTags_eq] at hread ⊢
  exact h.readOptional_marked (by simp [Grammar.words])
    (fun _ hitems => Line.inlineItems_marker hitems marker) hread

/-- The description of a journey is read behind an unobtrusive marker as it is without it. -/
lemma Unobtrusive.readJourneyDesc_marked {desc : String} {n : Nat}
    (h : Unobtrusive grammar marker lines) (hread : readJourneyDesc grammar lines = .ok (desc, n)) :
    readJourneyDesc grammar (marked marker lines) = .ok (desc, n) := by
  rw [readJourneyDesc_eq] at hread ⊢
  exact h.readOptional_marked (by simp [Grammar.words])
    (fun _ hafter => Line.after_marker hafter marker) hread

variable {cursor : Nat} {entity : Entity}

/-- The list of an entity starts on the same line behind an unobtrusive marker. -/
lemma Unobtrusive.listPart_marked (h : Unobtrusive grammar marker lines) :
    entity.listPart grammar (marked marker lines) cursor =
      marked marker (entity.listPart grammar lines cursor) := by
  have hstart : entity.listStart? grammar (marked marker lines) cursor =
      entity.listStart? grammar lines cursor := by
    cases entity with
    | ofComponent | ofExample =>
      rw [Entity.listStart?, Entity.listStart?, h.mentionsAt_marked (by simp [Grammar.words])]
    | ofVariable | ofCrosscut | ofJourney => rfl
  rw [Entity.listPart, Entity.listPart, hstart]
  split
  · exact drop_marked _ _ _
  · rfl

/-- The bullet lines of an entity behind an unobtrusive marker. -/
lemma Unobtrusive.bulletLines_marked (h : Unobtrusive grammar marker lines) :
    entity.bulletLines grammar (marked marker lines) cursor =
      Line.bulletLines grammar.bullet (marked marker (entity.listPart grammar lines cursor)) := by
  rw [Entity.bulletLines, h.listPart_marked]

/-- A block with as many bullet lines has as many lines behind an unobtrusive marker. -/
lemma Unobtrusive.extent_marked (h : Unobtrusive grammar marker lines) (k : Nat) :
    entity.extent grammar (marked marker lines) cursor k =
      entity.extent grammar lines cursor k := by
  have htags := h.mentionsAt_marked (by simp [Grammar.words] : grammar.tags ∈ grammar.words)
  have hvalues := h.mentionsAt_marked (by simp [Grammar.words] : grammar.values ∈ grammar.words)
  have hdesc := h.mentionsAt_marked (by simp [Grammar.words] : grammar.desc ∈ grammar.words)
  cases entity with
  | ofComponent | ofExample | ofJourney => simp only [Entity.extent, htags, hvalues, hdesc]
  | ofVariable | ofCrosscut => rfl

end Keywords

/-! ## A marker in front of a block -/

/-- What stands before the block keyword of a line. -/
def Grammar.indent? (grammar : Grammar) (line : String) : Option String :=
  (grammar.match? line).bind fun entry => (Line.cut entry.1 line).toOption.map Prod.fst

/-- **The name line of an example is quoted or starts with the indent** of its keyword line, which
stands at the cursor. -/
def NameInPlace (grammar : Grammar) (lines : List String) (cursor : Nat) : Entity → Prop
  | .ofExample _ =>
    ∀ line ∈ lines[cursor]?, ∀ nameLine ∈ lines[cursor + 1]?, ∀ indent ∈ grammar.indent? line,
      Line.quoted? nameLine ≠ none ∨ indent.toList <+: nameLine.toList
  | _ => True

instance (grammar : Grammar) (lines : List String) (cursor : Nat) (entity : Entity) :
    Decidable (NameInPlace grammar lines cursor entity) :=
  match entity with
  | .ofExample _ => inferInstanceAs (Decidable (∀ line ∈ lines[cursor]?,
      ∀ nameLine ∈ lines[cursor + 1]?, ∀ indent ∈ grammar.indent? line,
        Line.quoted? nameLine ≠ none ∨ indent.toList <+: nameLine.toList))
  | .ofComponent _ | .ofVariable _ | .ofCrosscut _ | .ofJourney _ => .isTrue trivial

/-- **A marker keeps the list of an entity**: the items, the number of lines of the block, and the
tags below the list. -/
structure KeepsList (grammar : Grammar) (marker : String) (lines : List String) (cursor : Nat)
    (entity : Entity) : Prop where
  /-- The items are the same. -/
  items : Line.SameItems grammar.bullet (entity.bulletLines grammar (marked marker lines) cursor)
    (entity.bulletLines grammar lines cursor)
  /-- The block has as many lines. -/
  extent : entity.extent grammar lines cursor
      (entity.bulletLines grammar (marked marker lines) cursor).length =
    entity.extent grammar lines cursor (entity.bulletLines grammar lines cursor).length
  /-- The list is as long, or else it takes in the line for the tags, on which there are none. -/
  tags : (entity.bulletLines grammar (marked marker lines) cursor).length =
    (entity.bulletLines grammar lines cursor).length ∨ entity.tags = ∅

section Blocks

variable {grammar : Grammar} {marker : String} {lines : List String} {cursor consumed : Nat}
  {entity : Entity}

/-- An example with tags has a line for them below its values. -/
lemma Reads.consumed_of_tags {e : Example}
    (h : Reads grammar (cursor + 1) (lines.drop cursor) consumed (.ofExample e))
    (htags : e.tags ≠ ∅) :
    consumed = 3 + if mentionsAt grammar.values lines (cursor + 2) then
      1 + ((Entity.ofExample e).bulletLines grammar lines cursor).length else 0 := by
  rw [valueLines_ofExample]
  generalize hdrop : lines.drop cursor = block at h
  cases h with
  | ofExample hkeyword hcut hname hvalues hread =>
    obtain rfl := eq_drop_of_drop_eq_cons_cons hdrop
    rw [readTags_eq] at hread
    rcases readOptional_eq_ok_iff.mp hread with ⟨-, hnone, -⟩ | ⟨_, -, -, -, rfl⟩
    · exact absurd hnone htags
    · rw [← lines_of_readVariables hvalues]
      omega

/-- **What is read in the same way behind a marker has kept its list.** -/
lemma Reads.keepsList (h : Reads grammar (cursor + 1) (lines.drop cursor) consumed entity)
    (hmarker : Unobtrusive grammar marker lines)
    (hmarked : Reads grammar (cursor + 1) ((marked marker lines).drop cursor) consumed entity) :
    KeepsList grammar marker lines cursor entity := by
  have hextent : entity.extent grammar lines cursor
        (entity.bulletLines grammar (marked marker lines) cursor).length =
      entity.extent grammar lines cursor (entity.bulletLines grammar lines cursor).length := by
    rw [← h.consumed_eq, ← hmarker.extent_marked, ← hmarked.consumed_eq]
  refine ⟨fun item => ?_, hextent, ?_⟩
  · rw [← hmarked.mem_listed_iff, h.mem_listed_iff]
  · cases entity with
    | ofComponent c =>
      rw [Entity.extent, Entity.extent] at hextent
      exact .inl (Nat.add_left_cancel hextent)
    | ofExample e =>
      by_cases htags : e.tags = ∅
      · exact .inr htags
      · have hlines := hmarked.consumed_of_tags htags
        rw [h.consumed_of_tags htags, hmarker.mentionsAt_marked (by simp [Grammar.words])] at hlines
        split at hlines
        · exact .inl (by omega)
        · next hnot =>
          -- there is no list
          have hempty := (listPart_ofExample_of_not (e := e) (by simpa using hnot)).1
          rw [hmarker.bulletLines_marked, Entity.bulletLines, hempty]
          exact .inl rfl
    | ofVariable v =>
      rw [Entity.extent, Entity.extent] at hextent
      exact .inl (Nat.add_left_cancel hextent)
    | ofCrosscut c => exact .inr rfl
    | ofJourney j => exact .inr rfl

/-- **The tags below a list that may have become longer**: they are read where the list ends, if it
has not become longer or if there are none and no line less is taken. -/
lemma Unobtrusive.exists_readTags_marked {tags : OrderedSet String} {k k' n : Nat}
    (h : Unobtrusive grammar marker lines) (hread : readTags grammar (lines.drop k) = .ok (tags, n))
    (hle : k ≤ k') (htags : k' = k ∨ tags = ∅)
    (hlines : k' + (mentionsAt grammar.tags lines k').toNat =
      k + (mentionsAt grammar.tags lines k).toNat) :
    ∃ n', readTags grammar (marked marker (lines.drop k')) = .ok (tags, n') ∧ k' + n' = k + n := by
  by_cases hk : k' = k
  · subst hk
    exact ⟨n, (h.drop k').readTags_marked hread, rfl⟩
  · obtain rfl := htags.resolve_left hk
    have hn := lines_of_readTags hread
    rw [mentionsAt_drop, Nat.add_zero] at hn
    have hone := Bool.toNat_le (mentionsAt grammar.tags lines k)
    have hnone : mentionsAt grammar.tags lines k' = false := by
      rw [← Bool.toNat_eq_zero]
      omega
    refine ⟨0, ?_, by omega⟩
    rw [readTags_eq, readOptional_eq_ok_iff]
    refine .inl ⟨?_, rfl, rfl⟩
    rw [(h.drop k').mentionsAt_marked (by simp [Grammar.words]), mentionsAt_drop, Nat.add_zero,
      hnone]

/-- The name line of an example that is in place. -/
lemma NameInPlace.quoted_or_indented {e : Example} {line nameLine keyword indent category : String}
    {kind : Kind} {below : List String} (h : NameInPlace grammar lines cursor (.ofExample e))
    (hdrop : lines.drop cursor = line :: nameLine :: below)
    (hkeyword : grammar.match? line = some (keyword, kind))
    (hcut : Line.cut keyword line = .ok (indent, category)) :
    Line.quoted? nameLine ≠ none ∨ indent.toList <+: nameLine.toList := by
  have hline : lines[cursor + 0]? = some line := by
    rw [← List.getElem?_drop, hdrop]
    rfl
  have hnameLine : lines[cursor + 1]? = some nameLine := by
    rw [← List.getElem?_drop, hdrop]
    rfl
  refine h line hline nameLine hnameLine indent ?_
  rw [Grammar.indent?, hkeyword, Option.bind_some, hcut]
  rfl

/-- The number of lines of an example with values. -/
lemma extent_ofExample {e : Example} {k : Nat}
    (h : mentionsAt grammar.values (lines.drop (cursor + 2)) 0 = true) :
    (Entity.ofExample e).extent grammar lines cursor k =
      2 + (1 + k) + (mentionsAt grammar.tags (lines.drop (cursor + 2)) (1 + k)).toNat := by
  rw [mentionsAt_drop] at h
  simp [Entity.extent, h]

/-- **The values and the tags of an example** are read behind a marker that keeps its list, on as
many lines. -/
lemma KeepsList.exists_values_tags {e : Example} {m n : Nat}
    (h : KeepsList grammar marker lines cursor (.ofExample e))
    (hmarker : Unobtrusive grammar marker lines)
    (hvalues : readVariables grammar (lines.drop (cursor + 2)) = .ok (e.values, m))
    (htags : readTags grammar ((lines.drop (cursor + 2)).drop m) = .ok (e.tags, n)) :
    ∃ m' n', readVariables grammar (marked marker (lines.drop (cursor + 2))) = .ok (e.values, m') ∧
      readTags grammar ((marked marker (lines.drop (cursor + 2))).drop m') = .ok (e.tags, n') ∧
      m' + n' = m + n := by
  obtain ⟨hitems, hextent, htagLine⟩ := h
  rw [hmarker.bulletLines_marked, Entity.bulletLines] at hitems hextent htagLine
  have hrest := hmarker.drop (cursor + 2)
  have hmentions := hrest.mentionsAt_marked
    (by simp [Grammar.words] : grammar.values ∈ grammar.words) 0
  rcases readVariables_eq_ok_iff.mp hvalues with
    ⟨hnot, hnone, rfl⟩ | ⟨items, hword, hlist, heq, rfl⟩
  · refine ⟨0, n, ?_, hrest.readTags_marked htags, rfl⟩
    exact readVariables_eq_ok_iff.mpr (.inl ⟨hmentions.trans hnot, hnone, rfl⟩)
  · rw [listPart_ofExample hword] at hitems hextent htagLine
    obtain ⟨hmarked, hset⟩ := Line.bulletList_marked hlist hitems
    obtain ⟨rfl, -, -⟩ := Line.bulletList_eq_ok_iff.mp hlist
    have hle := Line.length_bulletLines_le grammar.bullet marker ((lines.drop (cursor + 2)).drop 1)
    rw [extent_ofExample hword, extent_ofExample hword] at hextent
    rw [← Line.length_items, ← Line.length_items] at hle hextent htagLine
    obtain ⟨n', htags', hlines⟩ := hrest.exists_readTags_marked htags (Nat.add_le_add_left hle 1)
      (htagLine.imp_left (congrArg (1 + ·))) (by omega)
    refine ⟨_, n', ?_, by rwa [drop_marked], hlines⟩
    refine readVariables_eq_ok_iff.mpr (.inr ⟨_, hmentions.trans hword, ?_, ?_, rfl⟩)
    · rw [drop_marked, hmarked]
    · rw [heq, hset]

/-- The features are read behind an unobtrusive marker if their items stay the same. -/
lemma Unobtrusive.readFeatures_marked {keyword : String} {features : List String}
    (h : Unobtrusive grammar marker lines)
    (hread : readFeatures grammar keyword lines = .ok features)
    (hsame : Line.SameItems grammar.bullet
      (Line.bulletLines grammar.bullet (marked marker (lines.drop 1)))
      (Line.bulletLines grammar.bullet (lines.drop 1))) :
    readFeatures grammar keyword (marked marker lines) =
        .ok (Line.items grammar.bullet (marked marker (lines.drop 1))) ∧
      OrderedSet.ofList (Line.items grammar.bullet (marked marker (lines.drop 1))) =
        .ofList features := by
  obtain ⟨hword, hlist⟩ := readFeatures_eq_ok_iff.mp hread
  obtain ⟨hmarked, hset⟩ := Line.bulletList_marked hlist hsame
  refine ⟨?_, hset⟩
  rw [readFeatures_eq_ok_iff, drop_marked, h.mentionsAt_marked (by simp [Grammar.words])]
  exact ⟨hword, hmarked⟩

/-- **What is read is read in the same way behind an unobtrusive marker** that keeps its list.

**Proof sketch.** By the kind of the block. Each of its parts is read behind the marker as it is
without it. Only a list can have become longer, and the line that an example has then more for its
values it has less for its tags. -/
lemma Reads.of_keepsList (h : Reads grammar (cursor + 1) (lines.drop cursor) consumed entity)
    (hmarker : Unobtrusive grammar marker lines) (hplace : NameInPlace grammar lines cursor entity)
    (hlist : KeepsList grammar marker lines cursor entity) :
    Reads grammar (cursor + 1) ((marked marker lines).drop cursor) consumed entity := by
  have hitems := hlist.items
  have hextent := hlist.extent
  rw [hmarker.bulletLines_marked, Entity.bulletLines] at hitems hextent
  rw [drop_marked]
  have hblock := hmarker.drop cursor
  generalize hdrop : lines.drop cursor = block at h hblock
  cases h with
  | ofComponent hkeyword hname hdesc htags hfeatures =>
    obtain rfl := eq_drop_of_drop_eq_cons_cons hdrop
    have hrest := hmarker.drop (cursor + 2)
    have hn := lines_of_readTags htags
    rw [listPart_ofComponent, ← hn] at hitems hextent
    obtain ⟨hmarked, hset⟩ := (hrest.drop _).readFeatures_marked hfeatures hitems
    obtain ⟨rfl, -, -⟩ := Line.bulletList_eq_ok_iff.mp (readFeatures_eq_ok_iff.mp hfeatures).2
    rw [Line.length_items, ← Nat.add_left_cancel hextent, ← Line.length_items, ← hset, marked_cons,
      marked_cons]
    refine .ofComponent (hblock.match?_marker.trans hkeyword) (Line.after_marker hname marker)
      (Line.after_marker hdesc marker) (hrest.readTags_marked htags) ?_
    rw [drop_marked, hmarked]
  | ofExample hkeyword hcut hname hvalues htags =>
    have hname := Line.exampleName_marker hmarker.quote
      (hplace.quoted_or_indented hdrop hkeyword hcut) hname
    obtain rfl := eq_drop_of_drop_eq_cons_cons hdrop
    obtain ⟨m', n', hvalues', htags', hlines⟩ := hlist.exists_values_tags hmarker hvalues htags
    rw [Nat.add_assoc, ← hlines, ← Nat.add_assoc]
    exact .ofExample (hblock.match?_marker.trans hkeyword) (Line.cut_marker hcut marker) hname
      hvalues' htags'
  | ofVariable hkeyword hname hvalues =>
    obtain rfl := eq_drop_of_drop_eq_cons hdrop
    obtain ⟨hmarked, hset⟩ := Line.bulletList_marked hvalues hitems
    obtain ⟨rfl, -, -⟩ := Line.bulletList_eq_ok_iff.mp hvalues
    have hlength : (Line.items grammar.bullet (marked marker (lines.drop (cursor + 1)))).length =
        (Line.items grammar.bullet (lines.drop (cursor + 1))).length := by
      rw [Line.length_items, Line.length_items]
      exact Nat.add_left_cancel hextent
    rw [← hset, ← hlength]
    exact .ofVariable (hblock.match?_marker.trans hkeyword) (Line.after_marker hname marker) hmarked
  | ofCrosscut hkeyword hname =>
    exact .ofCrosscut (hblock.match?_marker.trans hkeyword) (Line.after_marker hname marker)
  | ofJourney hkeyword hname hdesc =>
    obtain rfl := eq_drop_of_drop_eq_cons hdrop
    exact .ofJourney (hblock.match?_marker.trans hkeyword) (Line.after_marker hname marker)
      ((hmarker.drop (cursor + 1)).readJourneyDesc_marked hdesc)

/-- A marker that adds no bullet to the lines of a list keeps the list. -/
lemma Unobtrusive.keepsList (h : Unobtrusive grammar marker lines)
    (hbullet : ∀ line ∈ entity.listPart grammar lines cursor,
      Line.AddsNo marker grammar.bullet line) :
    KeepsList grammar marker lines cursor entity := by
  have hlength : (entity.bulletLines grammar (marked marker lines) cursor).length =
      (entity.bulletLines grammar lines cursor).length := by
    rw [h.bulletLines_marked, Line.bulletLines_marked hbullet, marked, List.length_map]
    rfl
  refine ⟨?_, by rw [hlength], .inl hlength⟩
  rw [h.bulletLines_marked]
  exact Line.sameItems_marked hbullet

/-- A marker with a bullet does not keep a list. -/
lemma Reads.not_keepsList (h : Reads grammar (cursor + 1) (lines.drop cursor) consumed entity)
    (hmarker : Unobtrusive grammar marker lines) (hbullet : Visible grammar.bullet)
    (hmentions : Line.mentions grammar.bullet marker = true)
    (hlist : entity.bulletLines grammar lines cursor ≠ []) :
    ¬ KeepsList grammar marker lines cursor entity := by
  intro hkeeps
  have hsame := hkeeps.items
  rw [hmarker.bulletLines_marked] at hsame
  exact Line.not_sameItems_marked hbullet hmentions hlist h.listed_eq.2.2 hsame

end Blocks

/-- **A block behind an unobtrusive marker is read as it is without the marker exactly if the marker
keeps its list.** So it is where the marker adds no bullet to the list; but a block with a list is
never read so behind a marker that holds a bullet. -/
theorem readAt_marked (stem marker : String) (lines : List String) (cursor consumed : Nat)
    (entity : Entity) (hread : readAt (.standard stem) lines cursor = .ok ⟨consumed, some entity⟩)
    (hmarker : Unobtrusive (.standard stem) marker lines)
    (hname : NameInPlace (.standard stem) lines cursor entity) :
    (readAt (.standard stem) (marked marker lines) cursor = .ok ⟨consumed, some entity⟩ ↔
        KeepsList (.standard stem) marker lines cursor entity) ∧
      ((∀ line ∈ entity.listPart (.standard stem) lines cursor, Line.AddsNo marker "* " line) →
        readAt (.standard stem) (marked marker lines) cursor = .ok ⟨consumed, some entity⟩) ∧
      (Line.mentions "* " marker = true → entity.bulletLines (.standard stem) lines cursor ≠ [] →
        readAt (.standard stem) (marked marker lines) cursor ≠ .ok ⟨consumed, some entity⟩) := by
  have hreads := readAt_eq_ok_iff.mp hread
  have hiff : readAt (.standard stem) (marked marker lines) cursor = .ok ⟨consumed, some entity⟩ ↔
      KeepsList (.standard stem) marker lines cursor entity := by
    rw [readAt_eq_ok_iff]
    exact ⟨hreads.keepsList hmarker, hreads.of_keepsList hmarker hname⟩
  refine ⟨hiff, fun hbullet => hiff.mpr (hmarker.keepsList hbullet), fun hmentions hlist => ?_⟩
  rw [Ne, hiff]
  exact hreads.not_keepsList hmarker (Grammar.legible_standard stem).bullet hmentions hlist

/-- An example with an indent of its own. -/
def indentedExample : List String :=
  ["  aerial:how-to Booking", "  I fly", "  variables:", "  * Business class", "  tags: travel"]

/-- The example with an indent of its own, behind slashes. -/
theorem readAt_marked_slashes :
    readAt (.standard "aerial") indentedExample 0 = .ok ⟨5, some (.ofExample
        ⟨"I fly", "Booking", .ofList ["Business class"], .ofList ["travel"], .howTo,
          .unstamped 1⟩)⟩ ∧
      Unobtrusive (.standard "aerial") "//" indentedExample ∧
      readAt (.standard "aerial") (marked "//" indentedExample) 0 = .ok ⟨5, some (.ofExample
        ⟨"I fly", "Booking", .ofList ["Business class"], .ofList ["travel"], .howTo,
          .unstamped 1⟩)⟩ := by
  have hread : readAt (.standard "aerial") indentedExample 0 = .ok ⟨5, some (.ofExample
      ⟨"I fly", "Booking", .ofList ["Business class"], .ofList ["travel"], .howTo,
        .unstamped 1⟩)⟩ := by
    decide +kernel
  have hmarker : Unobtrusive (.standard "aerial") "//" indentedExample := by decide +kernel
  exact ⟨hread, hmarker, (readAt_marked "aerial" "//" indentedExample 0 5 _ hread hmarker
    (by decide +kernel)).2.1 (by decide +kernel)⟩

/-- **Not every unobtrusive marker leaves a block as it is**: behind a star, the bullet becomes a
part of the item. -/
theorem not_readAt_starred :
    readAt (.standard "aerial") ["aerial:variable Means", "* Card"] 0 =
        .ok ⟨2, some (.ofVariable ⟨"Means", .ofList ["Card"], .unstamped 1⟩)⟩ ∧
      Unobtrusive (.standard "aerial") " * " ["aerial:variable Means", "* Card"] ∧
      readAt (.standard "aerial") (marked " * " ["aerial:variable Means", "* Card"]) 0 =
        .ok ⟨2, some (.ofVariable ⟨"Means", .ofList ["* Card"], .unstamped 1⟩)⟩ ∧
      readAt (.standard "aerial") (marked " * " ["aerial:variable Means", "* Card"]) 0 ≠
        .ok ⟨2, some (.ofVariable ⟨"Means", .ofList ["Card"], .unstamped 1⟩)⟩ := by
  refine ⟨by decide +kernel, by decide +kernel, by decide +kernel, by decide +kernel⟩

end LivingDocs.Block
