import LivingDocs.Proofs.BlankEnds
import LivingDocs.Proofs.BlockExtent
import LivingDocs.Proofs.WrittenBlock

/-!
# The form of entities that are read

Whatever the grammar and the lines are, the texts of an entity that is read are firm: they are not
empty and have no blank ends. Only the description of a journey may be empty, and it is exactly if
there is no line for it. A list that has to be there has items, and the kind of an entity is the one
that the table gives for the first keyword of the table on the keyword line.

## Main definitions

* `LivingDocs.Entity.Formed` — the form of an entity that is read at a position.
* `LivingDocs.Block.Grammar.FirstEntry` — the first entry of the table that stands on a line.

## Main results

* `LivingDocs.Block.formed_of_readAt` — every entity that is read has that form.
-/

set_option autoImplicit false

namespace LivingDocs

namespace Block

open Text

/-! ## Single lines -/

namespace Line

variable {keyword line text : String}

/-- What remains of a text without its blank ends is firm or empty. -/
lemma firm_ofList_trim {text : List Char} (h : String.ofList (trim text) ≠ "") :
    Firm (String.ofList (trim text)).toList := by
  rw [String.toList_ofList]
  refine firm_trim fun hnil => h ?_
  rw [hnil]

/-- The text after a keyword is firm. -/
lemma firm_of_cut {indent : String} (h : cut keyword line = .ok (indent, text)) :
    Firm text.toList := by
  unfold cut at h
  split at h
  · cases h
  · split at h
    · cases h
    · next hne =>
      cases h
      rw [String.toList_ofList]
      exact firm_trim hne

/-- The text after a keyword is firm, whatever stands before it. -/
lemma firm_of_after (h : after keyword line = .ok text) : Firm text.toList := by
  obtain ⟨⟨indent, text⟩, hcut, rfl⟩ := map_eq_ok_iff.mp h
  exact firm_of_cut hcut

/-- The name of an example is firm, quoted or not. -/
lemma firm_of_exampleName {indent name : String} (h : exampleName keyword indent line = .ok name) :
    Firm name.toList := by
  unfold exampleName at h
  split at h
  · cases h
  · dsimp only at h
    split at h
    · cases h
    · next hne =>
      rw [← Except.ok.inj h]
      exact firm_ofList_trim hne

/-- **The items of a list on one line are firm** and hold no separator. -/
lemma firm_of_mem_inlineItems {separator : Char} {items : OrderedSet String} {item : String}
    (h : inlineItems keyword separator line = .ok items) (hitem : item ∈ items) :
    Firm item.toList ∧ separator ∉ item.toList := by
  obtain ⟨text, -, rfl⟩ := map_eq_ok_iff.mp h
  obtain ⟨piece, hpiece, rfl⟩ := List.mem_map.mp (OrderedSet.mem_ofList.mp hitem)
  obtain ⟨hmem, hne⟩ := List.mem_filter.mp hpiece
  obtain ⟨raw, hraw, rfl⟩ := List.mem_map.mp hmem
  rw [String.toList_ofList]
  refine ⟨firm_trim (by simpa using hne), fun hseparator => ?_⟩
  -- what remains of a piece has no other characters than the piece
  obtain ⟨front, back, heq, -, -⟩ := exists_eq_append_trim raw
  refine separator_not_mem_of_mem_segments hraw ?_
  rw [heq]
  simp [hseparator]

end Line

/-! ## Lists and tags -/

section Lists

variable {grammar : Grammar} {lines : List String} {cursor consumed : Nat} {entity : Entity}

/-- The tags that are read are firm and hold no separator. -/
lemma firm_of_mem_readTags {tags : OrderedSet String} {n : Nat}
    (h : readTags grammar lines = .ok (tags, n)) :
    ∀ tag ∈ tags, Firm tag.toList ∧ grammar.separator ∉ tag.toList := by
  intro tag htag
  rw [readTags_eq] at h
  rcases readOptional_eq_ok_iff.mp h with ⟨-, rfl, -⟩ | ⟨line, -, -, hitems, -⟩
  · exact absurd htag (OrderedSet.not_mem_empty tag)
  · exact Line.firm_of_mem_inlineItems hitems htag

/-- **The items of a block that is read are firm.** -/
lemma Reads.firm_of_mem_listed
    (h : Reads grammar (cursor + 1) (lines.drop cursor) consumed entity) :
    ∀ item ∈ entity.listed, Firm item.toList := by
  intro item hitem
  obtain ⟨hlisted, -, hblank⟩ := h.listed_eq
  rw [hlisted, OrderedSet.mem_ofList] at hitem
  have hne : item ≠ "" := fun hempty => hblank (hempty ▸ hitem)
  obtain ⟨line, -, front, rest, -, -, rfl⟩ := Line.mem_items_iff.mp hitem
  exact Line.firm_ofList_trim hne

/-- **A block that is read has items exactly if it has a list.** -/
lemma Reads.listed_ne_empty_iff
    (h : Reads grammar (cursor + 1) (lines.drop cursor) consumed entity) :
    entity.listed ≠ ∅ ↔ entity.listStart? grammar lines cursor ≠ none := by
  obtain ⟨hlisted, hlines, -⟩ := h.listed_eq
  constructor
  · intro hne hnone
    refine hne ?_
    rw [hlisted, Entity.listPart, hnone]
    rfl
  · intro hstart hempty
    obtain ⟨line, hline⟩ := List.exists_mem_of_ne_nil _ (hlines hstart)
    obtain ⟨item, hitem⟩ := Line.exists_isItem_of_mem_bulletLines hline
    have hmem : item ∈ entity.listed := h.mem_listed_iff.mpr ⟨line, hline, hitem⟩
    rw [hempty] at hmem
    exact OrderedSet.not_mem_empty item hmem

end Lists

/-- **The first entry of the table whose keyword stands on a line.** -/
def Grammar.FirstEntry (grammar : Grammar) (line : String) (entry : String × Kind) : Prop :=
  ∃ before after, grammar.blocks = before ++ entry :: after ∧ Line.mentions entry.1 line = true ∧
    ∀ other ∈ before, Line.mentions other.1 line = false

/-- The keyword of a line is the first one of the table that stands on it. -/
lemma Grammar.firstEntry_of_match? {grammar : Grammar} {line : String} {entry : String × Kind}
    (h : grammar.match? line = some entry) : grammar.FirstEntry line entry := by
  obtain ⟨hmentions, before, after, hblocks, hbefore⟩ := List.find?_eq_some_iff_append.mp h
  exact ⟨before, after, hblocks, hmentions, fun other hother => by simpa using hbefore other hother⟩

end Block

namespace Entity

open Block Text

/-- **The form of an entity** whose keyword line stands at the cursor. -/
def Formed (grammar : Grammar) (lines : List String) (cursor : Nat) : Entity → Prop
  | ofComponent c => Firm c.name.toList ∧ Firm c.desc.toList ∧
      (∀ tag ∈ c.tags, Firm tag.toList ∧ grammar.separator ∉ tag.toList) ∧
      (∀ feature ∈ c.features, Firm feature.toList) ∧ c.features ≠ ∅
  | ofExample e => Firm e.name.toList ∧ Firm e.category.toList ∧
      (∀ tag ∈ e.tags, Firm tag.toList ∧ grammar.separator ∉ tag.toList) ∧
      (∀ value ∈ e.values, Firm value.toList) ∧
      (e.values ≠ ∅ ↔ mentionsAt grammar.values lines (cursor + 2) = true)
  | ofVariable v => Firm v.name.toList ∧ (∀ value ∈ v.values, Firm value.toList) ∧ v.values ≠ ∅
  | ofCrosscut c => Firm c.name.toList
  | ofJourney j => Firm j.name.toList ∧
      (j.desc = "" ↔ mentionsAt grammar.desc lines (cursor + 1) = false) ∧
      (j.desc ≠ "" → Firm j.desc.toList)

end Entity

namespace Block

open Text

variable {grammar : Grammar} {lines : List String} {cursor consumed : Nat} {entity : Entity}

/-- A firm text is not empty. -/
lemma ne_empty_of_firm {text : String} (h : Firm text.toList) : text ≠ "" := by
  rintro rfl
  obtain ⟨c, hc, -⟩ := h.1
  simp at hc

/-- The description of a journey is empty exactly if there is no line for it, and firm otherwise. -/
lemma firm_of_readJourneyDesc {desc : String} {n : Nat}
    (h : readJourneyDesc grammar (lines.drop cursor) = .ok (desc, n)) :
    (desc = "" ↔ mentionsAt grammar.desc lines cursor = false) ∧
      (desc ≠ "" → Firm desc.toList) := by
  rw [readJourneyDesc_eq] at h
  rcases readOptional_eq_ok_iff.mp h with ⟨hnot, rfl, -⟩ | ⟨line, hline, hword, hafter, -⟩
  · rw [mentionsAt_drop] at hnot
    exact ⟨iff_of_true rfl hnot, fun hne => absurd rfl hne⟩
  · have hfirm := Line.firm_of_after hafter
    have hmentions : mentionsAt grammar.desc lines cursor = true := by
      rw [mentionsAt, ← List.head?_drop, hline]
      exact hword
    exact ⟨iff_of_false (ne_empty_of_firm hfirm) (by simp [hmentions]), fun _ => hfirm⟩

/-- **An entity that is read has its form.**

**Proof sketch.** By the kind of the block. Each text is what remains of a part of a line without
blank ends, and the part is refused if nothing remains. -/
lemma Reads.formed (h : Reads grammar (cursor + 1) (lines.drop cursor) consumed entity) :
    entity.Formed grammar lines cursor := by
  have hitems := h.firm_of_mem_listed
  have hlist := h.listed_ne_empty_iff
  generalize hdrop : lines.drop cursor = block at h
  cases h with
  | ofComponent hkeyword hname hdesc htags hfeatures =>
    exact ⟨Line.firm_of_after hname, Line.firm_of_after hdesc, firm_of_mem_readTags htags, hitems,
      hlist.mpr (Option.some_ne_none _)⟩
  | ofExample hkeyword hcut hname hvalues htags =>
    refine ⟨Line.firm_of_exampleName hname, Line.firm_of_cut hcut, firm_of_mem_readTags htags,
      hitems, hlist.trans ?_⟩
    rw [Entity.listStart?]
    split
    · next hword => exact iff_of_true (Option.some_ne_none _) hword
    · next hword => exact iff_of_false (fun hne => hne rfl) hword
  | ofVariable hkeyword hname hvalues =>
    exact ⟨Line.firm_of_after hname, hitems, hlist.mpr (Option.some_ne_none _)⟩
  | ofCrosscut hkeyword hname => exact Line.firm_of_after hname
  | ofJourney hkeyword hname hdesc =>
    obtain rfl := eq_drop_of_drop_eq_cons hdrop
    exact ⟨Line.firm_of_after hname, firm_of_readJourneyDesc hdesc⟩

/-- **The kind of an entity that is read** is the one of the first entry on its keyword line. -/
lemma Reads.exists_firstEntry (h : Reads grammar (cursor + 1) (lines.drop cursor) consumed entity) :
    ∃ line keyword, lines[cursor]? = some line ∧
      grammar.FirstEntry line (keyword, entity.blockKind) := by
  generalize hdrop : lines.drop cursor = block at h
  have hline : lines[cursor]? = block.head? := by rw [← hdrop, List.head?_drop]
  rw [hline]
  cases h <;> exact ⟨_, _, rfl, Grammar.firstEntry_of_match? ‹_›⟩

/-- **Every entity that is read has its form**, whatever the grammar and the lines are, and its kind
is the one of the first entry of the table on its keyword line. -/
theorem formed_of_readAt (grammar : Grammar) (lines : List String) (cursor consumed : Nat)
    (entity : Entity) (h : readAt grammar lines cursor = .ok ⟨consumed, some entity⟩) :
    entity.Formed grammar lines cursor ∧
      ∃ line keyword, lines[cursor]? = some line ∧
        grammar.FirstEntry line (keyword, entity.blockKind) := by
  have hreads := readAt_eq_ok_iff.mp h
  exact ⟨hreads.formed, hreads.exists_firstEntry⟩

/-- A grammar with a keyword that is a part of a later one. -/
def shadowingGrammar : Grammar :=
  { Grammar.standard "aerial" with
    blocks := [("ex", .ofExample .todo), ("example", .ofExample .plain)]
    separator := ';' }

/-- An example with more blanks than it needs. -/
def spaciousExample : List String :=
  ["/* example  Booking ", "  \"  I fly \" ", "variables:", " *   Window seat ",
    "tags: ; travel ;far, away;"]

/-- The example is read at its first keyword, and no blanks are left around its texts. -/
theorem formed_spaciousExample :
    readAt shadowingGrammar spaciousExample 0 = .ok ⟨5, some (.ofExample ⟨"I fly", "ample  Booking",
        .ofList ["Window seat"], .ofList ["far, away", "travel"], .todo, .unstamped 1⟩)⟩ ∧
      (Entity.ofExample ⟨"I fly", "ample  Booking", .ofList ["Window seat"],
        .ofList ["far, away", "travel"], .todo, .unstamped 1⟩).Formed
          shadowingGrammar spaciousExample 0 := by
  have hread : readAt shadowingGrammar spaciousExample 0 = .ok ⟨5, some (.ofExample ⟨"I fly",
      "ample  Booking", .ofList ["Window seat"], .ofList ["far, away", "travel"], .todo,
      .unstamped 1⟩)⟩ := by
    decide +kernel
  exact ⟨hread, (formed_of_readAt _ _ _ _ _ hread).1⟩

end Block

end LivingDocs
