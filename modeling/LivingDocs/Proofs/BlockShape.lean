import LivingDocs.Block.Reader
import LivingDocs.Proofs.BulletList
import LivingDocs.Proofs.Results

/-!
# The lines of a block

A block that was read stands on its keyword line and on the lines directly below it. The line of an
example's name can be any line at all. Every other line below the keyword line continues the block:
it mentions the word that introduces the part of the block that it holds, or a bullet.

## Main definitions

* `LivingDocs.Block.Grammar.Continues` — lines that can continue a block.
* `LivingDocs.Block.Continued` — the first of some lines all continue a block.
* `LivingDocs.Entity.nameLines` — how many lines hold nothing but the name of an entity.
* `LivingDocs.Block.Stands` — how a block stands on the lines below its keyword line.

## Main results

* `LivingDocs.Block.read_shape` — what is read at a keyword line is a block that stands there.
* `LivingDocs.Block.consumed_le_of_read` — a block has no more lines than there are.
-/

set_option autoImplicit false

namespace LivingDocs

/-- How many lines hold nothing but the name: one for an example, none for all other kinds. -/
def Entity.nameLines : Entity → Nat
  | .ofExample _ => 1
  | _ => 0

namespace Block

/-- **A line that can continue a block**: it mentions a word that introduces a part of one. -/
def Grammar.Continues (grammar : Grammar) (line : String) : Prop :=
  Line.mentions grammar.desc line = true ∨ Line.mentions grammar.tags line = true ∨
    Line.mentions grammar.features line = true ∨ Line.mentions grammar.values line = true ∨
    Line.mentions grammar.bullet line = true

/-- **The first `n` of the lines are there and continue a block.** -/
def Continued (grammar : Grammar) (n : Nat) (lines : List String) : Prop :=
  n ≤ lines.length ∧ ∀ line ∈ lines.take n, grammar.Continues line

section Continued

variable {grammar : Grammar} {lines : List String}

/-- No lines continue any block. -/
lemma continued_zero : Continued grammar 0 lines := ⟨Nat.zero_le _, by simp⟩

/-- A line that continues a block, with those below it that do. -/
lemma Continued.cons {n : Nat} {line : String} (hline : grammar.Continues line)
    (h : Continued grammar n lines) : Continued grammar (n + 1) (line :: lines) := by
  obtain ⟨hn, hall⟩ := h
  refine ⟨by simpa using hn, ?_⟩
  rw [List.take_succ_cons]
  intro l hl
  rcases List.mem_cons.mp hl with rfl | hl
  · exact hline
  · exact hall l hl

/-- Lines that continue a block, with those directly below them that do. -/
lemma Continued.add {m n : Nat} (hm : Continued grammar m lines)
    (hn : Continued grammar n (lines.drop m)) : Continued grammar (m + n) lines := by
  obtain ⟨hmlen, hmall⟩ := hm
  obtain ⟨hnlen, hnall⟩ := hn
  rw [List.length_drop] at hnlen
  refine ⟨by omega, ?_⟩
  intro l hl
  rw [List.take_add, List.mem_append] at hl
  rcases hl with hl | hl
  · exact hmall l hl
  · exact hnall l hl

/-- The line at some offset among lines that continue a block is there and is one of them. -/
lemma Continued.getElem? {n i : Nat} (h : Continued grammar n lines) (hi : i < n) :
    ∃ line, lines[i]? = some line ∧ grammar.Continues line := by
  have hlen : i < lines.length := Nat.lt_of_lt_of_le hi h.1
  refine ⟨lines[i], List.getElem?_eq_getElem hlen, h.2 _ ?_⟩
  exact List.mem_take_iff_getElem.mpr ⟨i, by omega, rfl⟩

end Continued

/-! ## The parts of a block -/

section Parts

variable {grammar : Grammar} {keyword : String} {lines : List String}

/-- A list has one bullet line for each item. -/
lemma continued_of_bulletList {items : List String}
    (h : Line.bulletList grammar.bullet keyword lines = .ok items) :
    Continued grammar items.length lines := by
  obtain ⟨rfl, -, -⟩ := Line.bulletList_eq_ok_iff.mp h
  have hfirst : Line.bulletLines grammar.bullet lines <+: lines := List.takeWhile_prefix _
  rw [Line.length_items]
  refine ⟨hfirst.length_le, ?_⟩
  rw [← List.prefix_iff_eq_take.mp hfirst]
  intro line hline
  exact .inr (.inr (.inr (.inr (List.mem_takeWhile_imp hline))))

/-- The line of the tags mentions their word. -/
lemma continued_of_readTags {tags : OrderedSet String} {n : Nat}
    (h : readTags grammar lines = .ok (tags, n)) : Continued grammar n lines := by
  unfold readTags at h
  split at h
  · cases h
    exact continued_zero
  · split at h
    · next htags =>
      obtain ⟨_, _, heq⟩ := map_eq_ok_iff.mp h
      cases heq
      exact continued_zero.cons (.inr (.inl htags))
    · cases h
      exact continued_zero

/-- The lines of the values are the line that introduces them and the bullet lines. -/
lemma continued_of_readVariables {values : OrderedSet String} {n : Nat}
    (h : readVariables grammar lines = .ok (values, n)) : Continued grammar n lines := by
  unfold readVariables at h
  split at h
  · cases h
    exact continued_zero
  · split at h
    · next hvalues =>
      obtain ⟨items, hitems, heq⟩ := map_eq_ok_iff.mp h
      cases heq
      have hrun := continued_of_bulletList hitems
      rw [Nat.add_comm]
      exact hrun.cons (.inr (.inr (.inr (.inl hvalues))))
    · cases h
      exact continued_zero

/-- The lines of the features are the line that introduces them and the bullet lines. -/
lemma continued_of_readFeatures {features : List String}
    (h : readFeatures grammar keyword lines = .ok features) :
    Continued grammar (features.length + 1) lines := by
  unfold readFeatures at h
  split at h
  · cases h
  · split at h
    · next hfeatures =>
      have hrun := continued_of_bulletList h
      exact hrun.cons (.inr (.inr (.inl hfeatures)))
    · cases h

/-- The line of a journey's description mentions its word. -/
lemma continued_of_readJourneyDesc {desc : String} {n : Nat}
    (h : readJourneyDesc grammar lines = .ok (desc, n)) : Continued grammar n lines := by
  unfold readJourneyDesc at h
  split at h
  · cases h
    exact continued_zero
  · split at h
    · next hdesc =>
      obtain ⟨_, _, heq⟩ := map_eq_ok_iff.mp h
      cases heq
      exact continued_zero.cons (.inl hdesc)
    · cases h
      exact continued_zero

/-- A line with text after a word mentions that word. -/
lemma mentions_of_after {line text : String} (h : Line.after keyword line = .ok text) :
    Line.mentions keyword line = true := by
  cases hmentions : Line.mentions keyword line with
  | true => rfl
  | false => simp [Line.after_of_not_mentions hmentions] at h

end Parts

/-! ## Whole blocks -/

/-- **How a block stands on the lines below its keyword line**: first the line of the name, if it
declares an example, and then lines that continue it. What it declares has the place of the keyword
line. -/
def Stands (grammar : Grammar) (number : Nat) (lines : List String) (reading : Reading) : Prop :=
  ∃ entity n, reading = ⟨1 + entity.nameLines + n, some entity⟩ ∧
    entity.location = .unstamped number ∧ entity.nameLines ≤ lines.length ∧
    Continued grammar n (lines.drop entity.nameLines)

section Blocks

variable {grammar : Grammar} {keyword : String} {number : Nat} {line : String}
  {lines : List String} {reading : Reading}

/-- An example stands on its keyword line, the line of its name, and the lines of its values and
tags. -/
lemma stands_of_readExample {kind : ExampleKind}
    (h : readExample grammar keyword kind number line lines = .ok reading) :
    Stands grammar number lines reading := by
  obtain ⟨⟨indent, category⟩, -, h⟩ := bind_eq_ok_iff.mp h
  cases lines with
  | nil => cases h
  | cons nameLine lines =>
    obtain ⟨name, -, h⟩ := bind_eq_ok_iff.mp h
    obtain ⟨⟨values, m⟩, hvalues, h⟩ := bind_eq_ok_iff.mp h
    obtain ⟨⟨tags, n⟩, htags, h⟩ := bind_eq_ok_iff.mp h
    cases h
    have hparts := (continued_of_readVariables hvalues).add (continued_of_readTags htags)
    refine ⟨.ofExample ⟨name, category, values, tags, kind, .unstamped number⟩, m + n, ?_, rfl,
      by simp [Entity.nameLines], hparts⟩
    simp only [Entity.nameLines, Reading.mk.injEq, and_true]
    omega

/-- A component stands on its keyword line and on the lines of its description, tags and
features. -/
lemma stands_of_readComponent
    (h : readComponent grammar keyword number line lines = .ok reading) :
    Stands grammar number lines reading := by
  obtain ⟨name, -, h⟩ := bind_eq_ok_iff.mp h
  cases lines with
  | nil => cases h
  | cons descLine lines =>
    obtain ⟨desc, hdesc, h⟩ := bind_eq_ok_iff.mp h
    obtain ⟨⟨tags, n⟩, htags, h⟩ := bind_eq_ok_iff.mp h
    obtain ⟨features, hfeatures, h⟩ := bind_eq_ok_iff.mp h
    cases h
    have hparts := (continued_of_readTags htags).add (continued_of_readFeatures hfeatures)
    refine ⟨.ofComponent ⟨name, desc, tags, .ofList features, .unstamped number⟩,
      n + (features.length + 1) + 1, ?_, rfl, by simp [Entity.nameLines],
      hparts.cons (.inl (mentions_of_after hdesc))⟩
    simp only [Entity.nameLines, Reading.mk.injEq, and_true]
    omega

/-- A variable stands on its keyword line and on the bullet lines of its values. -/
lemma stands_of_readVariable
    (h : readVariable grammar keyword number line lines = .ok reading) :
    Stands grammar number lines reading := by
  obtain ⟨name, -, h⟩ := bind_eq_ok_iff.mp h
  obtain ⟨values, hvalues, h⟩ := bind_eq_ok_iff.mp h
  cases h
  exact ⟨.ofVariable _, values.length, rfl, rfl, by simp [Entity.nameLines],
    continued_of_bulletList hvalues⟩

/-- A crosscut stands on its keyword line. -/
lemma stands_of_readCrosscut (h : readCrosscut keyword number line = .ok reading) :
    Stands grammar number lines reading := by
  obtain ⟨name, -, h⟩ := bind_eq_ok_iff.mp h
  cases h
  exact ⟨.ofCrosscut _, 0, rfl, rfl, by simp [Entity.nameLines], continued_zero⟩

/-- A journey stands on its keyword line and on the line of its description. -/
lemma stands_of_readJourney
    (h : readJourney grammar keyword number line lines = .ok reading) :
    Stands grammar number lines reading := by
  obtain ⟨name, -, h⟩ := bind_eq_ok_iff.mp h
  obtain ⟨⟨desc, n⟩, hdesc, h⟩ := bind_eq_ok_iff.mp h
  cases h
  exact ⟨.ofJourney _, n, rfl, rfl, by simp [Entity.nameLines],
    continued_of_readJourneyDesc hdesc⟩

/-- A line without a block keyword is passed over. -/
lemma read_of_not_keyword (h : grammar.match? line = none) :
    read grammar number (line :: lines) = .ok .nothing := by
  rw [read, h]

/-- **What is read at a keyword line** is a block that stands there. -/
theorem read_shape (hk : grammar.match? line ≠ none)
    (h : read grammar number (line :: lines) = .ok reading) :
    Stands grammar number lines reading := by
  rw [read] at h
  split at h
  · next hnone => exact absurd hnone hk
  · exact stands_of_readExample h
  · exact stands_of_readComponent h
  · exact stands_of_readVariable h
  · exact stands_of_readCrosscut h
  · exact stands_of_readJourney h

/-- Where reading succeeds, there is no block, or there is one that stands there. -/
lemma nothing_or_stands_of_read (h : read grammar number (line :: lines) = .ok reading) :
    reading = .nothing ∨ Stands grammar number lines reading := by
  by_cases hk : grammar.match? line = none
  · rw [read_of_not_keyword hk] at h
    cases h
    exact .inl rfl
  · exact .inr (read_shape hk h)

/-- **A block ends with the lines** or before. -/
lemma consumed_le_of_read (h : read grammar number (line :: lines) = .ok reading) :
    reading.consumed ≤ lines.length + 1 := by
  rcases nothing_or_stands_of_read h with rfl | ⟨entity, n, rfl, -, hname, hcontinued⟩
  · simp [Reading.nothing]
  · have hn := hcontinued.1
    rw [List.length_drop] at hn
    simp only
    omega

end Blocks

end Block

end LivingDocs
