import LivingDocs.Proofs.BlockShape
import LivingDocs.Proofs.BulletList

/-!
# How a block is read

A block is read part by part. The parts that may be left out are there exactly if the line where
they would start mentions the word that introduces them. A block is read if all of its parts are,
and what it declares is put together from them.

## Main definitions

* `LivingDocs.Block.mentionsAt` — whether the line at a position mentions a word.
* `LivingDocs.Block.readOptional` — reads a part that may be left out.
* `LivingDocs.Block.Reads` — how a block of each kind is put together from its parts.

## Main results

* `LivingDocs.Block.readOptional_eq_ok_iff`, `LivingDocs.Block.readVariables_eq_ok_iff`,
  `LivingDocs.Block.readFeatures_eq_ok_iff` — when a part is read, and what is read of it.
* `LivingDocs.Block.read_eq_ok_iff` — when a block is read, and what is read of it.
-/

set_option autoImplicit false

namespace LivingDocs.Block

/-- **Whether the line at a position mentions a word**; it does not if there is no such line. -/
def mentionsAt (word : String) (lines : List String) (i : Nat) : Bool :=
  lines[i]?.any (Line.mentions word)

@[simp] lemma mentionsAt_nil (word : String) (i : Nat) : mentionsAt word [] i = false := by
  simp [mentionsAt]

@[simp] lemma mentionsAt_cons_zero (word line : String) (lines : List String) :
    mentionsAt word (line :: lines) 0 = Line.mentions word line := rfl

@[simp] lemma mentionsAt_drop (word : String) (lines : List String) (i j : Nat) :
    mentionsAt word (lines.drop i) j = mentionsAt word lines (i + j) := by
  rw [mentionsAt, List.getElem?_drop, mentionsAt]

/-! ## The parts -/

section Parts

variable {grammar : Grammar} {lines : List String}

/-- **A part that may be left out**, on the first of the lines, and how many lines it takes. It is
there if that line mentions its word. -/
def readOptional {α : Type} (word : String) (parse : String → Except Error α) (absent : α) :
    List String → Except Error (α × Nat)
  | [] => .ok (absent, 0)
  | line :: _ =>
    if Line.mentions word line then (parse line).map fun value => (value, 1) else .ok (absent, 0)

/-- The tags are a part that may be left out. -/
lemma readTags_eq (grammar : Grammar) (lines : List String) : readTags grammar lines =
    readOptional grammar.tags (Line.inlineItems grammar.tags grammar.separator) ∅ lines := by
  cases lines <;> rfl

/-- The description of a journey is a part that may be left out. -/
lemma readJourneyDesc_eq (grammar : Grammar) (lines : List String) : readJourneyDesc grammar lines =
    readOptional grammar.desc (Line.after grammar.desc) "" lines := by
  cases lines <;> rfl

/-- **A part that may be left out is read** if no line is there for it, or from its line. -/
lemma readOptional_eq_ok_iff {α : Type} {word : String} {parse : String → Except Error α}
    {absent value : α} {n : Nat} : readOptional word parse absent lines = .ok (value, n) ↔
      (mentionsAt word lines 0 = false ∧ value = absent ∧ n = 0) ∨
        ∃ line, lines.head? = some line ∧ Line.mentions word line = true ∧
          parse line = .ok value ∧ n = 1 := by
  cases lines with
  | nil =>
    rw [readOptional]
    constructor
    · intro h
      cases h
      exact .inl ⟨rfl, rfl, rfl⟩
    · rintro (⟨-, rfl, rfl⟩ | ⟨line, hline, -⟩)
      · rfl
      · cases hline
  | cons line lines =>
    rw [readOptional, mentionsAt_cons_zero]
    split
    · next hmentions =>
      rw [map_eq_ok_iff]
      constructor
      · rintro ⟨_, hparse, heq⟩
        cases heq
        exact .inr ⟨line, rfl, hmentions, hparse, rfl⟩
      · rintro (⟨hnot, -⟩ | ⟨_, hline, -, hparse, rfl⟩)
        · rw [hmentions] at hnot
          cases hnot
        · cases hline
          exact ⟨value, hparse, rfl⟩
    · next hmentions =>
      constructor
      · intro h
        cases h
        exact .inl ⟨Bool.eq_false_iff.mpr hmentions, rfl, rfl⟩
      · rintro (⟨-, rfl, rfl⟩ | ⟨_, hline, hword, -⟩)
        · rfl
        · cases hline
          exact absurd hword hmentions

/-- A part that may be left out takes one line if its word is there. -/
lemma lines_of_readOptional {α : Type} {word : String} {parse : String → Except Error α}
    {absent value : α} {n : Nat} (h : readOptional word parse absent lines = .ok (value, n)) :
    n = (mentionsAt word lines 0).toNat := by
  rcases readOptional_eq_ok_iff.mp h with ⟨hnot, -, rfl⟩ | ⟨line, hline, hword, -, rfl⟩
  · rw [hnot]
    rfl
  · obtain ⟨rest, rfl⟩ := List.head?_eq_some_iff.mp hline
    rw [mentionsAt_cons_zero, hword]
    rfl

/-- The tags take one line if their word is there. -/
lemma lines_of_readTags {tags : OrderedSet String} {n : Nat}
    (h : readTags grammar lines = .ok (tags, n)) : n = (mentionsAt grammar.tags lines 0).toNat := by
  rw [readTags_eq] at h
  exact lines_of_readOptional h

/-- **The values of an example are read** if no line introduces them, or from the bullet lines below
that line. -/
lemma readVariables_eq_ok_iff {values : OrderedSet String} {n : Nat} :
    readVariables grammar lines = .ok (values, n) ↔
      (mentionsAt grammar.values lines 0 = false ∧ values = ∅ ∧ n = 0) ∨
        ∃ items, mentionsAt grammar.values lines 0 = true ∧
          Line.bulletList grammar.bullet grammar.values (lines.drop 1) = .ok items ∧
          values = .ofList items ∧ n = 1 + items.length := by
  cases lines with
  | nil => simp [readVariables, eq_comm]
  | cons line lines =>
    rw [readVariables, mentionsAt_cons_zero]
    cases hmentions : Line.mentions grammar.values line with
    | false => simp [eq_comm]
    | true =>
      rw [if_pos rfl, map_eq_ok_iff]
      simp [eq_comm]

/-- The values of an example take a line for the word that introduces them and one for each
bullet. -/
lemma lines_of_readVariables {values : OrderedSet String} {n : Nat}
    (h : readVariables grammar lines = .ok (values, n)) :
    n = if mentionsAt grammar.values lines 0 then
      1 + (Line.bulletLines grammar.bullet (lines.drop 1)).length else 0 := by
  rcases readVariables_eq_ok_iff.mp h with ⟨hnot, -, rfl⟩ | ⟨items, hword, hlist, -, rfl⟩
  · simp [hnot]
  · obtain ⟨rfl, -, -⟩ := Line.bulletList_eq_ok_iff.mp hlist
    rw [hword, if_pos rfl, Line.length_items]

/-- **The features of a component are read** from the bullet lines below the line that introduces
them. -/
lemma readFeatures_eq_ok_iff {keyword : String} {features : List String} :
    readFeatures grammar keyword lines = .ok features ↔
      mentionsAt grammar.features lines 0 = true ∧
        Line.bulletList grammar.bullet grammar.features (lines.drop 1) = .ok features := by
  cases lines with
  | nil => simp [readFeatures]
  | cons line lines =>
    rw [readFeatures, mentionsAt_cons_zero]
    split
    · next hmentions => simp [hmentions]
    · next hmentions => simp [hmentions]

end Parts

/-! ## The blocks -/

/-- **How a block is put together from its parts**: the lines that start with the block, the number
of its lines, and the entity that it declares. -/
inductive Reads (grammar : Grammar) (number : Nat) : List String → Nat → Entity → Prop
  | ofComponent {line descLine keyword name desc : String} {lines : List String}
      {tags : OrderedSet String} {n : Nat} {features : List String}
      (hkeyword : grammar.match? line = some (keyword, .ofComponent))
      (hname : Line.after keyword line = .ok name)
      (hdesc : Line.after grammar.desc descLine = .ok desc)
      (htags : readTags grammar lines = .ok (tags, n))
      (hfeatures : readFeatures grammar keyword (lines.drop n) = .ok features) :
      Reads grammar number (line :: descLine :: lines) (3 + n + features.length)
        (.ofComponent ⟨name, desc, tags, .ofList features, .unstamped number⟩)
  | ofExample {line nameLine keyword indent category name : String} {kind : ExampleKind}
      {lines : List String} {values tags : OrderedSet String} {m n : Nat}
      (hkeyword : grammar.match? line = some (keyword, .ofExample kind))
      (hcut : Line.cut keyword line = .ok (indent, category))
      (hname : Line.exampleName keyword indent nameLine = .ok name)
      (hvalues : readVariables grammar lines = .ok (values, m))
      (htags : readTags grammar (lines.drop m) = .ok (tags, n)) :
      Reads grammar number (line :: nameLine :: lines) (2 + m + n)
        (.ofExample ⟨name, category, values, tags, kind, .unstamped number⟩)
  | ofVariable {line keyword name : String} {lines values : List String}
      (hkeyword : grammar.match? line = some (keyword, .ofVariable))
      (hname : Line.after keyword line = .ok name)
      (hvalues : Line.bulletList grammar.bullet keyword lines = .ok values) :
      Reads grammar number (line :: lines) (1 + values.length)
        (.ofVariable ⟨name, .ofList values, .unstamped number⟩)
  | ofCrosscut {line keyword name : String} {lines : List String}
      (hkeyword : grammar.match? line = some (keyword, .ofCrosscut))
      (hname : Line.after keyword line = .ok name) :
      Reads grammar number (line :: lines) 1 (.ofCrosscut ⟨name, .unstamped number⟩)
  | ofJourney {line keyword name desc : String} {lines : List String} {n : Nat}
      (hkeyword : grammar.match? line = some (keyword, .ofJourney))
      (hname : Line.after keyword line = .ok name)
      (hdesc : readJourneyDesc grammar lines = .ok (desc, n)) :
      Reads grammar number (line :: lines) (1 + n) (.ofJourney ⟨name, desc, .unstamped number⟩)

variable {grammar : Grammar} {number consumed : Nat} {lines : List String} {entity : Entity}

/-- What is read is put together from its parts. -/
lemma reads_of_read (h : read grammar number lines = .ok ⟨consumed, some entity⟩) :
    Reads grammar number lines consumed entity := by
  cases lines with
  | nil => cases h
  | cons line lines =>
    rw [read] at h
    split at h
    · cases h
    · next keyword kind hkeyword =>
      obtain ⟨⟨indent, category⟩, hcut, h⟩ := bind_eq_ok_iff.mp h
      cases lines with
      | nil => cases h
      | cons nameLine lines =>
        obtain ⟨name, hname, h⟩ := bind_eq_ok_iff.mp h
        obtain ⟨⟨values, m⟩, hvalues, h⟩ := bind_eq_ok_iff.mp h
        obtain ⟨⟨tags, n⟩, htags, h⟩ := bind_eq_ok_iff.mp h
        cases h
        exact .ofExample hkeyword hcut hname hvalues htags
    · next keyword hkeyword =>
      obtain ⟨name, hname, h⟩ := bind_eq_ok_iff.mp h
      cases lines with
      | nil => cases h
      | cons descLine lines =>
        obtain ⟨desc, hdesc, h⟩ := bind_eq_ok_iff.mp h
        obtain ⟨⟨tags, n⟩, htags, h⟩ := bind_eq_ok_iff.mp h
        obtain ⟨features, hfeatures, h⟩ := bind_eq_ok_iff.mp h
        cases h
        exact .ofComponent hkeyword hname hdesc htags hfeatures
    · next keyword hkeyword =>
      obtain ⟨name, hname, h⟩ := bind_eq_ok_iff.mp h
      obtain ⟨values, hvalues, h⟩ := bind_eq_ok_iff.mp h
      cases h
      exact .ofVariable hkeyword hname hvalues
    · next keyword hkeyword =>
      obtain ⟨name, hname, h⟩ := bind_eq_ok_iff.mp h
      cases h
      exact .ofCrosscut hkeyword hname
    · next keyword hkeyword =>
      obtain ⟨name, hname, h⟩ := bind_eq_ok_iff.mp h
      obtain ⟨⟨desc, n⟩, hdesc, h⟩ := bind_eq_ok_iff.mp h
      cases h
      exact .ofJourney hkeyword hname hdesc

/-- What is put together from its parts is read. -/
lemma Reads.read_eq (h : Reads grammar number lines consumed entity) :
    read grammar number lines = .ok ⟨consumed, some entity⟩ := by
  cases h with
  | ofComponent hkeyword hname hdesc htags hfeatures =>
    rw [read, hkeyword]
    refine bind_eq_ok_iff.mpr ⟨_, hname, ?_⟩
    refine bind_eq_ok_iff.mpr ⟨_, hdesc, ?_⟩
    refine bind_eq_ok_iff.mpr ⟨_, htags, ?_⟩
    exact bind_eq_ok_iff.mpr ⟨_, hfeatures, rfl⟩
  | ofExample hkeyword hcut hname hvalues htags =>
    rw [read, hkeyword]
    refine bind_eq_ok_iff.mpr ⟨_, hcut, ?_⟩
    refine bind_eq_ok_iff.mpr ⟨_, hname, ?_⟩
    refine bind_eq_ok_iff.mpr ⟨_, hvalues, ?_⟩
    exact bind_eq_ok_iff.mpr ⟨_, htags, rfl⟩
  | ofVariable hkeyword hname hvalues =>
    rw [read, hkeyword]
    refine bind_eq_ok_iff.mpr ⟨_, hname, ?_⟩
    exact bind_eq_ok_iff.mpr ⟨_, hvalues, rfl⟩
  | ofCrosscut hkeyword hname =>
    rw [read, hkeyword]
    exact bind_eq_ok_iff.mpr ⟨_, hname, rfl⟩
  | ofJourney hkeyword hname hdesc =>
    rw [read, hkeyword]
    refine bind_eq_ok_iff.mpr ⟨_, hname, ?_⟩
    exact bind_eq_ok_iff.mpr ⟨_, hdesc, rfl⟩

/-- **A block is read exactly if it is put together from its parts.** -/
theorem read_eq_ok_iff : read grammar number lines = .ok ⟨consumed, some entity⟩ ↔
    Reads grammar number lines consumed entity :=
  ⟨reads_of_read, Reads.read_eq⟩

/-- The same at a position among the lines. -/
lemma readAt_eq_ok_iff {cursor : Nat} : readAt grammar lines cursor = .ok ⟨consumed, some entity⟩ ↔
    Reads grammar (cursor + 1) (lines.drop cursor) consumed entity := read_eq_ok_iff

end LivingDocs.Block
