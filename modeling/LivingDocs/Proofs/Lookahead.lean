import LivingDocs.Proofs.BlockReading
import LivingDocs.Proofs.Moving

/-!
# A block and the line below it

Reading a block looks at the lines of the block and at one line below them, and at nothing else. So
the same block is read wherever its lines stand, whatever comes further up or further down, as long
as the line below it is the same or missing alike. A failure may have looked at all lines from the
keyword line on, and is the same wherever these lines stand.

## Main definitions

* `LivingDocs.Block.AgreeUpTo` — two texts have the same lines up to a position.
* `LivingDocs.Entity.atLine` — an entity that is declared at another line.

## Main results

* `LivingDocs.Block.bulletList_of_agreeUpTo` — a list looks at its bullet lines and one line more.
* `LivingDocs.Block.Reads.of_agreeUpTo` — a block looks at its lines and one line more.
* `LivingDocs.Block.readAt_elsewhere` — what is read at another position of another text.
-/

set_option autoImplicit false

namespace LivingDocs

/-- The entity with another line as the place where it is declared. -/
def Entity.atLine (number : Nat) : Entity → Entity
  | ofComponent c => ofComponent { c with location := { c.location with line := number } }
  | ofExample e => ofExample { e with location := { e.location with line := number } }
  | ofVariable v => ofVariable { v with location := { v.location with line := number } }
  | ofCrosscut c => ofCrosscut { c with location := { c.location with line := number } }
  | ofJourney j => ofJourney { j with location := { j.location with line := number } }

namespace Block

/-- **Two texts agree up to position `n`**: at each position as far as that, both have the same line
or both have none. -/
def AgreeUpTo (n : Nat) (lines lines' : List String) : Prop := ∀ k ≤ n, lines'[k]? = lines[k]?

section Agreement

variable {m n : Nat} {line : String} {lines lines' : List String}

lemma AgreeUpTo.mono (h : AgreeUpTo n lines lines') (hle : m ≤ n) : AgreeUpTo m lines lines' :=
  fun k hk => h k (hk.trans hle)

/-- Texts that agree also do so below their first lines. -/
lemma AgreeUpTo.drop (h : AgreeUpTo (m + n) lines lines') :
    AgreeUpTo n (lines.drop m) (lines'.drop m) := by
  intro k hk
  rw [List.getElem?_drop, List.getElem?_drop]
  exact h (m + k) (Nat.add_le_add_left hk m)

/-- A text that agrees with one without lines has none. -/
lemma AgreeUpTo.eq_nil (h : AgreeUpTo n [] lines') : lines' = [] := by
  have hfirst := h 0 (Nat.zero_le n)
  rw [List.getElem?_nil, ← List.head?_eq_getElem?] at hfirst
  exact List.head?_eq_none_iff.mp hfirst

/-- A text that agrees with one that has a first line starts with that line. -/
lemma AgreeUpTo.exists_cons (h : AgreeUpTo n (line :: lines) lines') :
    ∃ below, lines' = line :: below := by
  have hfirst := h 0 (Nat.zero_le n)
  rw [List.getElem?_cons_zero, ← List.head?_eq_getElem?] at hfirst
  exact List.head?_eq_some_iff.mp hfirst

/-- The same, with the lines below the first one. -/
lemma AgreeUpTo.exists_cons_succ (h : AgreeUpTo (n + 1) (line :: lines) lines') :
    ∃ below, lines' = line :: below ∧ AgreeUpTo n lines below := by
  obtain ⟨below, rfl⟩ := h.exists_cons
  rw [Nat.add_comm] at h
  exact ⟨below, rfl, h.drop⟩

/-- Texts that agree mention the same words on their first lines. -/
lemma AgreeUpTo.mentionsAt_eq (h : AgreeUpTo n lines lines') (word : String) :
    mentionsAt word lines' 0 = mentionsAt word lines 0 := by
  rw [mentionsAt, h 0 (Nat.zero_le n), mentionsAt]

end Agreement

/-! ## The parts -/

section Parts

variable {grammar : Grammar} {n : Nat} {lines lines' : List String}

/-- The bullet lines end at the first line below them.

**Proof sketch.** Induction on the lines. A bullet line is shared by the two texts, which agree for
one line less below it; the line that ends the run is shared, too. -/
lemma bulletLines_of_agreeUpTo {bullet : String}
    (hagree : AgreeUpTo (Line.bulletLines bullet lines).length lines lines') :
    Line.bulletLines bullet lines' = Line.bulletLines bullet lines := by
  induction lines generalizing lines' with
  | nil => rw [hagree.eq_nil]
  | cons line lines ih =>
    cases hline : Line.mentions bullet line with
    | false =>
      obtain ⟨below, rfl⟩ := hagree.exists_cons
      rw [Line.bulletLines_cons, Line.bulletLines_cons, hline]
      rfl
    | true =>
      rw [Line.bulletLines_cons, hline, if_pos rfl, List.length_cons] at hagree
      obtain ⟨below, rfl, hbelow⟩ := hagree.exists_cons_succ
      rw [Line.bulletLines_cons, Line.bulletLines_cons, ih hbelow]

/-- **A list looks at its bullet lines and one line more.** -/
lemma bulletList_of_agreeUpTo {bullet keyword : String} {items : List String}
    (h : Line.bulletList bullet keyword lines = .ok items)
    (hagree : AgreeUpTo items.length lines lines') :
    Line.bulletList bullet keyword lines' = .ok items := by
  obtain ⟨rfl, -, -⟩ := Line.bulletList_eq_ok_iff.mp h
  rw [Line.length_items] at hagree
  rw [Line.bulletList_congr (bulletLines_of_agreeUpTo hagree), h]

/-- A part that may be left out looks at one line. -/
lemma readOptional_of_agreeUpTo {α : Type} (word : String) (parse : String → Except Error α)
    (absent : α) (hagree : AgreeUpTo n lines lines') :
    readOptional word parse absent lines' = readOptional word parse absent lines := by
  cases lines with
  | nil => rw [hagree.eq_nil]
  | cons line lines =>
    obtain ⟨below, rfl⟩ := hagree.exists_cons
    rfl

/-- The tags of a block look at one line. -/
lemma readTags_of_agreeUpTo (hagree : AgreeUpTo n lines lines') :
    readTags grammar lines' = readTags grammar lines := by
  rw [readTags_eq, readTags_eq, readOptional_of_agreeUpTo _ _ _ hagree]

/-- The description of a journey looks at one line. -/
lemma readJourneyDesc_of_agreeUpTo (hagree : AgreeUpTo n lines lines') :
    readJourneyDesc grammar lines' = readJourneyDesc grammar lines := by
  rw [readJourneyDesc_eq, readJourneyDesc_eq, readOptional_of_agreeUpTo _ _ _ hagree]

/-- The values of an example look at their lines and one line more. -/
lemma readVariables_of_agreeUpTo {values : OrderedSet String}
    (h : readVariables grammar lines = .ok (values, n)) (hagree : AgreeUpTo n lines lines') :
    readVariables grammar lines' = .ok (values, n) := by
  rw [readVariables_eq_ok_iff, hagree.mentionsAt_eq]
  rcases readVariables_eq_ok_iff.mp h with hnone | ⟨items, hword, hlist, rfl, rfl⟩
  · exact .inl hnone
  · exact .inr ⟨items, hword, bulletList_of_agreeUpTo hlist hagree.drop, rfl, rfl⟩

/-- The features of a component look at their lines and one line more. -/
lemma readFeatures_of_agreeUpTo {keyword : String} {features : List String}
    (h : readFeatures grammar keyword lines = .ok features)
    (hagree : AgreeUpTo (1 + features.length) lines lines') :
    readFeatures grammar keyword lines' = .ok features := by
  rw [readFeatures_eq_ok_iff, hagree.mentionsAt_eq]
  obtain ⟨hword, hlist⟩ := readFeatures_eq_ok_iff.mp h
  exact ⟨hword, bulletList_of_agreeUpTo hlist hagree.drop⟩

end Parts

/-! ## The blocks -/

section Blocks

variable {grammar : Grammar} {number consumed : Nat} {lines lines' : List String} {entity : Entity}

/-- **A block looks at its lines and one line more.**

**Proof sketch.** By the kind of the block. Each part takes the lines that it has read, and the two
texts agree on these and on the line below, where the next part starts or the block ends. -/
lemma Reads.of_agreeUpTo (h : Reads grammar number lines consumed entity)
    (hagree : AgreeUpTo consumed lines lines') (number' : Nat) :
    Reads grammar number' lines' consumed (entity.atLine number') := by
  cases h with
  | @ofComponent _ _ _ _ _ lines tags n features hkeyword hname hdesc htags hfeatures =>
    have hlines : 3 + n + features.length = n + (1 + features.length) + 1 + 1 := by omega
    rw [hlines] at hagree
    obtain ⟨below, rfl, hbelow⟩ := hagree.exists_cons_succ
    obtain ⟨parts, rfl, hparts⟩ := hbelow.exists_cons_succ
    rw [← readTags_of_agreeUpTo hparts] at htags
    exact .ofComponent hkeyword hname hdesc htags (readFeatures_of_agreeUpTo hfeatures hparts.drop)
  | @ofExample _ _ _ _ _ _ _ lines values tags m n hkeyword hcut hname hvalues htags =>
    have hlines : 2 + m + n = m + n + 1 + 1 := by omega
    rw [hlines] at hagree
    obtain ⟨below, rfl, hbelow⟩ := hagree.exists_cons_succ
    obtain ⟨parts, rfl, hparts⟩ := hbelow.exists_cons_succ
    have hvalues' := readVariables_of_agreeUpTo hvalues (hparts.mono (Nat.le_add_right m n))
    rw [← readTags_of_agreeUpTo hparts.drop] at htags
    exact .ofExample hkeyword hcut hname hvalues' htags
  | ofVariable hkeyword hname hvalues =>
    rw [Nat.add_comm] at hagree
    obtain ⟨below, rfl, hbelow⟩ := hagree.exists_cons_succ
    exact .ofVariable hkeyword hname (bulletList_of_agreeUpTo hvalues hbelow)
  | ofCrosscut hkeyword hname =>
    obtain ⟨below, rfl⟩ := hagree.exists_cons
    exact .ofCrosscut hkeyword hname
  | ofJourney hkeyword hname hdesc =>
    rw [Nat.add_comm] at hagree
    obtain ⟨below, rfl, hbelow⟩ := hagree.exists_cons_succ
    rw [← readJourneyDesc_of_agreeUpTo hbelow] at hdesc
    exact .ofJourney hkeyword hname hdesc

/-- Where no block starts, none does so whatever stands below. -/
lemma read_none_of_agreeUpTo (h : read grammar number lines = .ok ⟨consumed, none⟩)
    (hagree : AgreeUpTo consumed lines lines') (number' : Nat) :
    read grammar number' lines' = .ok ⟨consumed, none⟩ := by
  cases lines with
  | nil =>
    rw [hagree.eq_nil]
    exact h
  | cons line lines =>
    obtain ⟨below, rfl⟩ := hagree.exists_cons
    by_cases hkeyword : grammar.match? line = none
    · rw [read_of_not_keyword hkeyword] at h
      rw [read_of_not_keyword hkeyword, h]
    · obtain ⟨entity, n, hreading, -⟩ := read_shape hkeyword h
      cases hreading

/-- A failure does not depend on the number of the first line. -/
lemma read_error_of_number {error : Error} (h : read grammar number lines = .error error)
    (number' : Nat) : read grammar number' lines = .error error := by
  rw [← Nat.zero_add number, read_add, map_eq_error_iff] at h
  rw [← Nat.zero_add number', read_add, map_eq_error_iff]
  exact h

end Blocks

/-! ## Other positions in other texts -/

/-- **What is read at another position of another text.** Where the lines of a block and the line
below it are the same, or are missing alike, the same block is read, only at another line. Where all
lines from there on are the same, reading fails for the same reason. -/
theorem readAt_elsewhere (grammar : Grammar) (lines lines' : List String) (cursor cursor' : Nat) :
    (∀ consumed entity, readAt grammar lines cursor = .ok ⟨consumed, entity⟩ →
      (∀ k ≤ consumed, lines'[cursor' + k]? = lines[cursor + k]?) →
      readAt grammar lines' cursor' =
        .ok ⟨consumed, entity.map (Entity.atLine (cursor' + 1))⟩) ∧
    (∀ error, readAt grammar lines cursor = .error error →
      lines'.drop cursor' = lines.drop cursor →
      readAt grammar lines' cursor' = .error error) := by
  refine ⟨fun consumed entity hread hlines => ?_, fun error hread hdrop => ?_⟩
  · have hagree : AgreeUpTo consumed (lines.drop cursor) (lines'.drop cursor') := by
      intro k hk
      rw [List.getElem?_drop, List.getElem?_drop, hlines k hk]
    rw [readAt] at hread
    cases entity with
    | none => exact read_none_of_agreeUpTo hread hagree (cursor' + 1)
    | some entity =>
      exact read_eq_ok_iff.mpr ((read_eq_ok_iff.mp hread).of_agreeUpTo hagree (cursor' + 1))
  · rw [readAt, hdrop]
    exact read_error_of_number hread (cursor' + 1)

/-- The lines of a variable with two values. -/
def meansBlock : List String := ["# aerial:variable Means", "# * Card", "# * Cash"]

/-- The variable is read between other lines as it is at the start of a text. With a third bullet
line that is blank it is not read, in either place. -/
theorem readAt_elsewhere_meansBlock :
    readAt (.standard "aerial") (meansBlock ++ [""]) 0 =
        .ok ⟨3, some (.ofVariable ⟨"Means", .ofList ["Card", "Cash"], .unstamped 1⟩)⟩ ∧
      readAt (.standard "aerial") (["* ", "# aerial:todo", ""] ++ meansBlock ++ ["", "# * "]) 3 =
        .ok ⟨3, some (.ofVariable ⟨"Means", .ofList ["Card", "Cash"], .unstamped 4⟩)⟩ ∧
      readAt (.standard "aerial") (meansBlock ++ ["# * "]) 0 =
        .error (.emptyListItem "aerial:variable") ∧
      readAt (.standard "aerial") ("" :: (meansBlock ++ ["# * "])) 1 =
        .error (.emptyListItem "aerial:variable") := by
  have hread : readAt (.standard "aerial") (meansBlock ++ [""]) 0 =
      .ok ⟨3, some (.ofVariable ⟨"Means", .ofList ["Card", "Cash"], .unstamped 1⟩)⟩ := by
    decide +kernel
  have hfails : readAt (.standard "aerial") (meansBlock ++ ["# * "]) 0 =
      .error (.emptyListItem "aerial:variable") := by
    decide +kernel
  exact ⟨hread, (readAt_elsewhere _ _ _ 0 3).1 _ _ hread (by decide), hfails,
    (readAt_elsewhere _ _ _ 0 1).2 _ hfails rfl⟩

end Block

end LivingDocs
