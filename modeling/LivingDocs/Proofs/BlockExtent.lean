import LivingDocs.Proofs.BlockReading
import LivingDocs.Proofs.Ordered

/-!
# How far a block goes

The number of lines of a block follows from the words on the lines below its keyword line: which of
the parts that may be left out are there, and how many bullet lines its list has. It does not depend
on the items themselves, so an item that is repeated takes a line each time and counts once.

## Main definitions

* `LivingDocs.Entity.listed` — the items of the list that an entity is declared with.
* `LivingDocs.Entity.listStart?` — where that list starts.
* `LivingDocs.Entity.bulletLines` — the bullet lines of that list.
* `LivingDocs.Entity.extent` — the number of lines of a block.
* `LivingDocs.Block.Occupies` — the lines and items of a block are those that stand there.

## Main results

* `LivingDocs.Block.occupies_of_readAt` — a block that is read occupies its lines.
-/

set_option autoImplicit false

namespace LivingDocs

namespace Entity

open Block

/-- The items of the list that an entity is declared with. -/
def listed : Entity → OrderedSet String
  | ofComponent c => c.features
  | ofExample e => e.values
  | ofVariable v => v.values
  | ofCrosscut _ => ∅
  | ofJourney _ => ∅

/-- **Where the list of an entity starts** whose keyword line stands at the cursor: directly below
the line that introduces the list. -/
def listStart? (grammar : Grammar) (lines : List String) (cursor : Nat) : Entity → Option Nat
  | ofComponent _ => some (cursor + 3 + (mentionsAt grammar.tags lines (cursor + 2)).toNat)
  | ofExample _ => if mentionsAt grammar.values lines (cursor + 2) then some (cursor + 3) else none
  | ofVariable _ => some (cursor + 1)
  | ofCrosscut _ => none
  | ofJourney _ => none

/-- All lines from the start of the list of an entity on. -/
def listPart (grammar : Grammar) (lines : List String) (cursor : Nat) (entity : Entity) :
    List String :=
  match entity.listStart? grammar lines cursor with
  | some start => lines.drop start
  | none => []

/-- **The bullet lines of the list of an entity**: the longest run of them where the list starts. -/
def bulletLines (grammar : Grammar) (lines : List String) (cursor : Nat) (entity : Entity) :
    List String :=
  Line.bulletLines grammar.bullet (entity.listPart grammar lines cursor)

/-- **The number of lines of a block** with `k` bullet lines whose keyword line stands at the
cursor. -/
def extent (grammar : Grammar) (lines : List String) (cursor k : Nat) : Entity → Nat
  | ofComponent _ => 3 + (mentionsAt grammar.tags lines (cursor + 2)).toNat + k
  | ofExample _ =>
    let valueLines := if mentionsAt grammar.values lines (cursor + 2) then 1 + k else 0
    2 + valueLines + (mentionsAt grammar.tags lines (cursor + 2 + valueLines)).toNat
  | ofVariable _ => 1 + k
  | ofCrosscut _ => 1
  | ofJourney _ => 1 + (mentionsAt grammar.desc lines (cursor + 1)).toNat

end Entity

namespace Block

variable {grammar : Grammar} {lines : List String} {cursor consumed : Nat} {entity : Entity}

/-- The lines below the first of some lines. -/
lemma eq_drop_of_drop_eq_cons {line : String} {below : List String}
    (h : lines.drop cursor = line :: below) : below = lines.drop (cursor + 1) := by
  rw [← List.drop_drop, h]
  rfl

/-- The lines below the first two of some lines. -/
lemma eq_drop_of_drop_eq_cons_cons {line next : String} {below : List String}
    (h : lines.drop cursor = line :: next :: below) : below = lines.drop (cursor + 2) := by
  rw [← List.drop_drop, h]
  rfl

/-- The list of a component starts below its tags and the line that introduces the list. -/
lemma listPart_ofComponent (c : Component) :
    (Entity.ofComponent c).listPart grammar lines cursor =
      ((lines.drop (cursor + 2)).drop
        (mentionsAt grammar.tags (lines.drop (cursor + 2)) 0).toNat).drop 1 := by
  rw [List.drop_drop, List.drop_drop, mentionsAt_drop, Nat.add_zero]
  change lines.drop (cursor + 3 + _) = lines.drop (cursor + 2 + _ + 1)
  congr 1
  omega

/-- There is no list of values where no line introduces it. -/
lemma listPart_ofExample_of_not {e : Example}
    (h : mentionsAt grammar.values (lines.drop (cursor + 2)) 0 = false) :
    (Entity.ofExample e).listPart grammar lines cursor = [] ∧
      (Entity.ofExample e).listStart? grammar lines cursor = none := by
  have hstart : (Entity.ofExample e).listStart? grammar lines cursor = none := by
    rw [mentionsAt_drop] at h
    simp [Entity.listStart?, h]
  exact ⟨by rw [Entity.listPart, hstart], hstart⟩

/-- The list of values starts below the line that introduces it. -/
lemma listPart_ofExample {e : Example}
    (h : mentionsAt grammar.values (lines.drop (cursor + 2)) 0 = true) :
    (Entity.ofExample e).listPart grammar lines cursor = (lines.drop (cursor + 2)).drop 1 := by
  rw [mentionsAt_drop] at h
  rw [Entity.listPart, Entity.listStart?, List.drop_drop]
  simp [h]

/-- The lines that the values of an example take, counted from the line that may introduce them. -/
lemma valueLines_ofExample {e : Example} :
    (if mentionsAt grammar.values lines (cursor + 2) then
      1 + ((Entity.ofExample e).bulletLines grammar lines cursor).length else 0) =
    if mentionsAt grammar.values (lines.drop (cursor + 2)) 0 then
      1 + (Line.bulletLines grammar.bullet ((lines.drop (cursor + 2)).drop 1)).length else 0 := by
  cases hword : mentionsAt grammar.values (lines.drop (cursor + 2)) 0 with
  | false =>
    rw [mentionsAt_drop] at hword
    simp [hword]
  | true =>
    rw [Entity.bulletLines, listPart_ofExample hword]
    rw [mentionsAt_drop] at hword
    simp [hword]

/-- **The list of a block that is read**: there is a line in it, none of its items is blank, and
they are what the entity is declared with. -/
lemma Reads.listed_eq (h : Reads grammar (cursor + 1) (lines.drop cursor) consumed entity) :
    entity.listed = .ofList (Line.items grammar.bullet (entity.listPart grammar lines cursor)) ∧
      (entity.listStart? grammar lines cursor ≠ none →
        entity.bulletLines grammar lines cursor ≠ []) ∧
      "" ∉ Line.items grammar.bullet (entity.listPart grammar lines cursor) := by
  generalize hdrop : lines.drop cursor = block at h
  cases h with
  | ofComponent hkeyword hname hdesc htags hfeatures =>
    obtain rfl := eq_drop_of_drop_eq_cons_cons hdrop
    obtain rfl := lines_of_readTags htags
    obtain ⟨-, hlist⟩ := readFeatures_eq_ok_iff.mp hfeatures
    obtain ⟨rfl, hne, hblank⟩ := Line.bulletList_eq_ok_iff.mp hlist
    rw [Entity.bulletLines, listPart_ofComponent]
    exact ⟨rfl, fun _ => hne, hblank⟩
  | ofExample hkeyword hcut hname hvalues htags =>
    obtain rfl := eq_drop_of_drop_eq_cons_cons hdrop
    rcases readVariables_eq_ok_iff.mp hvalues with ⟨hnot, rfl, -⟩ | ⟨items, hword, hlist, rfl, -⟩
    · obtain ⟨hpart, hstart⟩ := listPart_ofExample_of_not hnot
      rw [hpart, hstart]
      exact ⟨rfl, fun hne => absurd rfl hne, List.not_mem_nil⟩
    · obtain ⟨rfl, hne, hblank⟩ := Line.bulletList_eq_ok_iff.mp hlist
      rw [Entity.bulletLines, listPart_ofExample hword]
      exact ⟨rfl, fun _ => hne, hblank⟩
  | ofVariable hkeyword hname hvalues =>
    obtain rfl := eq_drop_of_drop_eq_cons hdrop
    obtain ⟨rfl, hne, hblank⟩ := Line.bulletList_eq_ok_iff.mp hvalues
    exact ⟨rfl, fun _ => hne, hblank⟩
  | ofCrosscut => exact ⟨rfl, fun hne => absurd rfl hne, List.not_mem_nil⟩
  | ofJourney => exact ⟨rfl, fun hne => absurd rfl hne, List.not_mem_nil⟩

/-- **The number of lines of a block that is read.** -/
lemma Reads.consumed_eq (h : Reads grammar (cursor + 1) (lines.drop cursor) consumed entity) :
    consumed =
      entity.extent grammar lines cursor (entity.bulletLines grammar lines cursor).length := by
  generalize hdrop : lines.drop cursor = block at h
  cases h with
  | ofComponent hkeyword hname hdesc htags hfeatures =>
    obtain rfl := eq_drop_of_drop_eq_cons_cons hdrop
    obtain rfl := lines_of_readTags htags
    obtain ⟨-, hlist⟩ := readFeatures_eq_ok_iff.mp hfeatures
    obtain ⟨rfl, -, -⟩ := Line.bulletList_eq_ok_iff.mp hlist
    rw [Entity.bulletLines, listPart_ofComponent, Entity.extent, Line.length_items,
      mentionsAt_drop]
  | ofExample hkeyword hcut hname hvalues htags =>
    obtain rfl := eq_drop_of_drop_eq_cons_cons hdrop
    obtain rfl := lines_of_readTags htags
    have hvalueLines := lines_of_readVariables hvalues
    rw [Entity.extent, valueLines_ofExample, ← hvalueLines, List.drop_drop, mentionsAt_drop,
      Nat.add_zero]
  | ofVariable hkeyword hname hvalues =>
    obtain rfl := eq_drop_of_drop_eq_cons hdrop
    obtain ⟨rfl, -, -⟩ := Line.bulletList_eq_ok_iff.mp hvalues
    rw [Line.length_items]
    rfl
  | ofCrosscut => rfl
  | ofJourney hkeyword hname hdesc =>
    obtain rfl := eq_drop_of_drop_eq_cons hdrop
    rw [readJourneyDesc_eq] at hdesc
    obtain rfl := lines_of_readOptional hdesc
    rw [Entity.extent, mentionsAt_drop]

/-- **The items of a block that is read** are those of its bullet lines. -/
lemma Reads.mem_listed_iff (h : Reads grammar (cursor + 1) (lines.drop cursor) consumed entity)
    {item : String} : item ∈ entity.listed ↔
      ∃ line ∈ entity.bulletLines grammar lines cursor, Line.IsItem grammar.bullet line item := by
  rw [h.listed_eq.1, OrderedSet.mem_ofList, Line.mem_items_iff, Entity.bulletLines]

/-- **A block occupies its lines**: their number, the bullet lines of its list and its items are
those that stand there. -/
structure Occupies (grammar : Grammar) (lines : List String) (cursor consumed : Nat)
    (entity : Entity) : Prop where
  /-- The number of lines follows from the parts that are there and from the bullet lines. -/
  extent : consumed =
    entity.extent grammar lines cursor (entity.bulletLines grammar lines cursor).length
  /-- A list that is there has a bullet line. -/
  nonempty : entity.listStart? grammar lines cursor ≠ none →
    1 ≤ (entity.bulletLines grammar lines cursor).length
  /-- The items are those of the bullet lines, whether a line repeats another one or not. -/
  items : ∀ item, item ∈ entity.listed ↔
    ∃ line ∈ entity.bulletLines grammar lines cursor, Line.IsItem grammar.bullet line item
  /-- The block ends with the lines or before. -/
  within : cursor + consumed ≤ lines.length

/-- **A block that is read occupies its lines.**

**Proof sketch.** By the kind of the block. Each part that may be left out takes a line exactly if
its word is there, and a list takes one line for each of its items before repetitions are
dropped. -/
theorem occupies_of_readAt (grammar : Grammar) (lines : List String) (cursor consumed : Nat)
    (entity : Entity) (h : readAt grammar lines cursor = .ok ⟨consumed, some entity⟩) :
    Occupies grammar lines cursor consumed entity := by
  have hreads := readAt_eq_ok_iff.mp h
  refine ⟨hreads.consumed_eq, fun hlist => ?_, fun item => hreads.mem_listed_iff, ?_⟩
  · exact List.length_pos_iff.mpr (hreads.listed_eq.2.1 hlist)
  · rw [readAt] at h
    cases hdrop : lines.drop cursor with
    | nil =>
      rw [hdrop] at h
      cases h
    | cons line below =>
      rw [hdrop] at h
      have hle := consumed_le_of_read h
      have hlength := congrArg List.length hdrop
      rw [List.length_drop, List.length_cons] at hlength
      simp only at hle
      omega

/-- An example that lists one of its values twice and has tags. -/
def repeatedValue : List String :=
  ["import cats", "# aerial:how-to Booking", "# \"I fly\"", "# variables:", "# * Business class",
    "# * Vegan * menu", "#* Business class", "# tags: travel", "# * not a value"]

/-- The example with a repeated value has seven lines and two values. -/
theorem occupies_repeatedValue :
    readAt (.standard "aerial") repeatedValue 1 = .ok ⟨7, some (.ofExample
        ⟨"I fly", "Booking", .ofList ["Business class", "Vegan * menu"], .ofList ["travel"], .howTo,
          .unstamped 2⟩)⟩ ∧
      Occupies (.standard "aerial") repeatedValue 1 7 (.ofExample
        ⟨"I fly", "Booking", .ofList ["Business class", "Vegan * menu"], .ofList ["travel"], .howTo,
          .unstamped 2⟩) := by
  have hread : readAt (.standard "aerial") repeatedValue 1 = .ok ⟨7, some (.ofExample
      ⟨"I fly", "Booking", .ofList ["Business class", "Vegan * menu"], .ofList ["travel"], .howTo,
        .unstamped 2⟩)⟩ := by
    decide +kernel
  exact ⟨hread, occupies_of_readAt _ _ _ _ _ hread⟩

end Block

end LivingDocs
