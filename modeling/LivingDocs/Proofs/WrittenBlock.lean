import LivingDocs.Proofs.Cutting
import LivingDocs.Proofs.BlockShape
import LivingDocs.Proofs.KeywordTable
import LivingDocs.Proofs.Ordered

/-!
# Writing blocks

An entity is written as a block in the documented layout: every line starts with the same indent,
which may be a comment marker. On the keyword line stands what the block is about; below it follow
the name of an example in quotes, the description, the tags on one line, and lists with one bullet
line for each item. A block that is written so is read back exactly, whatever stands above and below
it, if no word that means something to the reader stands where it is not meant.

## Main definitions

* `LivingDocs.Entity.written` — the lines of an entity.
* `LivingDocs.Entity.WellFormed` — entities that can be written.
* `LivingDocs.Entity.Legible` — entities on whose lines each word stands only where it is meant.
* `LivingDocs.Block.EndsBlock` — lines that do not continue a block above them.

## Main results

* `LivingDocs.Block.readAt_written` — an entity that is written is read back.
-/

set_option autoImplicit false

namespace LivingDocs

namespace Block

/-! ## Lines -/

/-- A word behind the indent, and a text behind the word. -/
def introduced (indent word text : String) : String := indent ++ word ++ " " ++ text

/-- The line of an example's name. -/
def nameLine (indent name : String) : String := indent ++ "\"" ++ name ++ "\""

/-- The line of an item. -/
def itemLine (indent item : String) : String := indent ++ "* " ++ item

/-- One line for each item. -/
def itemLines (indent : String) (items : OrderedSet String) : List String :=
  items.toList.map (itemLine indent)

/-- A word and the items below it; there is no line if there are no items. -/
def listLines (indent word : String) (items : OrderedSet String) : List String :=
  if items.isEmpty then [] else (indent ++ word) :: itemLines indent items

/-- The line of the tags, if there are any. -/
def tagLines (indent : String) (tags : OrderedSet String) : List String :=
  if tags.isEmpty then [] else [introduced indent "tags:" (", ".intercalate tags.toList)]

/-- The line of the description, if there is one. -/
def descLines (indent desc : String) : List String :=
  if desc = "" then [] else [introduced indent "desc:" desc]

/-- **Lines that do not continue a block above them**: the first one mentions none of the words that
a block goes on with. -/
def EndsBlock (lines : List String) : Prop :=
  ∀ line ∈ lines.head?, ∀ word ∈ ["variables:", "tags:", "desc:", "* "],
    Line.mentions word line = false

instance (lines : List String) : Decidable (EndsBlock lines) :=
  inferInstanceAs (Decidable (∀ line ∈ lines.head?, _))

end Block

/-! ## Entities -/

namespace Entity

open Block Text

/-- The kind of the block that declares an entity. -/
def blockKind : Entity → Kind
  | ofComponent _ => .ofComponent
  | ofExample e => .ofExample e.kind
  | ofVariable _ => .ofVariable
  | ofCrosscut _ => .ofCrosscut
  | ofJourney _ => .ofJourney

/-- What stands on the keyword line: the category of an example, and the name of any other
entity. -/
def headline : Entity → String
  | ofComponent c => c.name
  | ofExample e => e.category
  | ofVariable v => v.name
  | ofCrosscut c => c.name
  | ofJourney j => j.name

/-- The description of an entity, which is empty if it has none. -/
def desc : Entity → String
  | ofComponent c => c.desc
  | ofJourney j => j.desc
  | _ => ""

/-- The tags of an entity. -/
def tags : Entity → OrderedSet String
  | ofComponent c => c.tags
  | ofExample e => e.tags
  | _ => ∅

/-- The lines below the keyword line. -/
def bodyLines (indent : String) : Entity → List String
  | ofComponent c =>
    descLines indent c.desc ++ (tagLines indent c.tags ++ listLines indent "features:" c.features)
  | ofExample e =>
    nameLine indent e.name :: (listLines indent "variables:" e.values ++ tagLines indent e.tags)
  | ofVariable v => itemLines indent v.values
  | ofCrosscut _ => []
  | ofJourney j => descLines indent j.desc

/-- The keyword line. -/
def keywordLine (stem indent : String) (entity : Entity) : String :=
  introduced indent (entity.blockKind.keyword stem) entity.headline

/-- **The lines of an entity** in the documented layout. -/
def written (stem indent : String) (entity : Entity) : List String :=
  entity.keywordLine stem indent :: entity.bodyLines indent

/-- **An entity that can be written**: all of its texts are tidy. Only the description of a journey
may be left out, a component has features and a variable has values, the name of an example stands
on one line and its quotes pair up, and no tag has a separator in it. -/
def WellFormed : Entity → Prop
  | ofComponent c => Tidy c.name ∧ Tidy c.desc ∧ (∀ tag ∈ c.tags, Tidy tag ∧ ',' ∉ tag.toList) ∧
      c.features ≠ ∅ ∧ ∀ feature ∈ c.features, Tidy feature
  | ofExample e => Tidy e.name ∧ '\n' ∉ e.name.toList ∧ e.name.toList.count '"' % 2 = 0 ∧
      Tidy e.category ∧ (∀ value ∈ e.values, Tidy value) ∧
      ∀ tag ∈ e.tags, Tidy tag ∧ ',' ∉ tag.toList
  | ofVariable v => Tidy v.name ∧ v.values ≠ ∅ ∧ ∀ value ∈ v.values, Tidy value
  | ofCrosscut c => Tidy c.name
  | ofJourney j => Tidy j.name ∧ (j.desc = "" ∨ Tidy j.desc)

instance (entity : Entity) : Decidable entity.WellFormed :=
  match entity with
  | ofComponent c => inferInstanceAs (Decidable (Tidy c.name ∧ Tidy c.desc ∧
      (∀ tag ∈ c.tags.toList, Tidy tag ∧ ',' ∉ tag.toList) ∧ c.features ≠ ∅ ∧
      ∀ feature ∈ c.features.toList, Tidy feature))
  | ofExample e => inferInstanceAs (Decidable (Tidy e.name ∧ '\n' ∉ e.name.toList ∧
      e.name.toList.count '"' % 2 = 0 ∧ Tidy e.category ∧ (∀ value ∈ e.values.toList, Tidy value) ∧
      ∀ tag ∈ e.tags.toList, Tidy tag ∧ ',' ∉ tag.toList))
  | ofVariable v => inferInstanceAs (Decidable (Tidy v.name ∧ v.values ≠ ∅ ∧
      ∀ value ∈ v.values.toList, Tidy value))
  | ofCrosscut c => inferInstanceAs (Decidable (Tidy c.name))
  | ofJourney j => inferInstanceAs (Decidable (Tidy j.name ∧ (j.desc = "" ∨ Tidy j.desc)))

/-- **Each word stands only where it is meant.** -/
@[mk_iff] structure Legible (stem indent : String) (entity : Entity) : Prop where
  /-- The indent has no quote. -/
  quote : '"' ∉ indent.toList
  /-- The indent has no bullet and no word that introduces a part of a block. -/
  words : ∀ word ∈ ["* ", "desc:", "tags:", "features:", "variables:"],
    Line.mentions word indent = false
  /-- The indent has no block keyword. -/
  keywords : ∀ entry ∈ (Grammar.standard stem).blocks, Line.mentions entry.1 indent = false
  /-- The only block keyword on the keyword line is the one behind the indent. -/
  keyword : ∀ entry ∈ (Grammar.standard stem).blocks,
    ∀ j ≤ (entity.keywordLine stem indent).toList.length,
      entry.1.toList <+: (entity.keywordLine stem indent).toList.drop j →
        entry.1 = entity.blockKind.keyword stem ∧ j = indent.toList.length
  /-- The line of the description has its word once. -/
  desc : ∀ line ∈ descLines indent entity.desc,
    OnlyAt "desc:".toList line.toList indent.toList.length
  /-- The line of the tags has its word once, and it is no line of values or items. -/
  tags : ∀ line ∈ tagLines indent entity.tags,
    OnlyAt "tags:".toList line.toList indent.toList.length ∧
      Line.mentions "variables:" line = false ∧ Line.mentions "* " line = false

instance (stem indent : String) (entity : Entity) : Decidable (entity.Legible stem indent) :=
  decidable_of_iff _ (legible_iff stem indent entity).symm

end Entity

namespace Block

open Text

/-! ## Reading single lines back -/

section Lines

variable {indent word text : String}

/-- A word stands on the line that it introduces. -/
lemma mentions_introduced (indent word text : String) :
    Line.mentions word (introduced indent word text) = true :=
  Line.mentions_iff.mpr ⟨indent.toList, " ".toList ++ text.toList, by simp [introduced]⟩

/-- **A line is cut at its only word** into the indent and the text. -/
lemma cut_introduced (htext : Tidy text)
    (h : OnlyAt word.toList (introduced indent word text).toList indent.toList.length) :
    Line.cut word (introduced indent word text) = .ok (indent, text) := by
  have hline : (introduced indent word text).toList =
      indent.toList ++ word.toList ++ ' ' :: text.toList := by
    simp [introduced]
  obtain ⟨hne, htrim⟩ := tidy_iff.mp htext
  rw [hline] at h
  rw [Line.cut, hline, splitLast?_of_onlyAt h]
  simp only [trim_cons_space, htrim, String.ofList_toList]

/-- The text behind the only word of a line. -/
lemma after_introduced (htext : Tidy text)
    (h : OnlyAt word.toList (introduced indent word text).toList indent.toList.length) :
    Line.after word (introduced indent word text) = .ok text := by
  rw [Line.after, cut_introduced htext h]
  rfl

/-- **An item is read back.** -/
lemma bulletItem?_itemLine {item : String} (hindent : Line.mentions "* " indent = false)
    (hitem : Tidy item) : Line.bulletItem? "* " (itemLine indent item) = some item := by
  have hcut : splitFirst? "* ".toList (itemLine indent item).toList =
      some (indent.toList, item.toList) := by
    have hline : (itemLine indent item).toList =
        indent.toList ++ "* ".toList ++ item.toList := by
      simp [itemLine]
    rw [hline]
    apply splitFirst?_append
    rintro j hj ⟨after, hafter⟩
    -- a bullet further left would stand in the indent, or two of its characters would be alike
    rw [List.append_assoc, List.drop_append_of_le_length hj.le] at hafter
    have hstart : "* ".toList <:+: indent.toList := by
      cases hdrop : indent.toList.drop j with
      | nil =>
        rw [List.drop_eq_nil_iff] at hdrop
        omega
      | cons c rest =>
        rw [hdrop] at hafter
        cases rest with
        | nil => simp at hafter
        | cons d rest =>
          obtain ⟨rfl, rfl, -⟩ :
              '*' = c ∧ ' ' = d ∧ after = rest ++ ("* ".toList ++ item.toList) := by
            simpa using hafter
          refine (List.IsPrefix.isInfix ?_).trans (List.drop_suffix j _).isInfix
          rw [hdrop]
          exact ⟨rest, rfl⟩
    rw [Line.mentions_iff.mpr hstart] at hindent
    cases hindent
  rw [Line.bulletItem?, hcut, Option.map_some, (tidy_iff.mp hitem).2, String.ofList_toList]

/-- The pieces of an indent without quotes and of a text on one line behind it. -/
lemma exists_segments_append {front text : List Char} (htext : '\n' ∉ text) (hfront : '"' ∉ front) :
    ∃ pieces last, segments '\n' (front ++ text) = pieces ++ [last ++ text] ∧
      (∀ piece ∈ pieces, '"' ∉ piece) ∧ '"' ∉ last := by
  induction front with
  | nil => exact ⟨[], [], by simp [segments_of_not_mem htext], by simp, by simp⟩
  | cons c front ih =>
    obtain ⟨hc, hfront⟩ := not_or.mp (List.mem_cons.not.mp hfront)
    obtain ⟨pieces, last, heq, hpieces, hlast⟩ := ih hfront
    rw [List.cons_append, segments, heq]
    split
    · exact ⟨[] :: pieces, last, rfl, by simpa using hpieces, hlast⟩
    · cases pieces with
      | nil => exact ⟨[], c :: last, rfl, by simp, by simp [hc, hlast]⟩
      | cons piece pieces =>
        refine ⟨(c :: piece) :: pieces, last, rfl, ?_, hlast⟩
        intro p hp
        rcases List.mem_cons.mp hp with rfl | hp
        · simp [hc, hpieces piece List.mem_cons_self]
        · exact hpieces p (List.mem_cons_of_mem piece hp)

/-- What stands in quotes behind an indent without quotes is found. -/
lemma quoted?_nameLine {name : String} (hindent : '"' ∉ indent.toList)
    (hname : '\n' ∉ name.toList) : Line.quoted? (nameLine indent name) = some name := by
  have hline : (nameLine indent name).toList =
      indent.toList ++ '"' :: (name.toList ++ ['"']) := by
    simp [nameLine]
  obtain ⟨pieces, last, hsegments, hpieces, hlast⟩ :=
    exists_segments_append (by simpa using hname : '\n' ∉ '"' :: (name.toList ++ ['"'])) hindent
  have hnone : pieces.findSome? Line.betweenQuotes? = none := by
    rw [List.findSome?_eq_none_iff]
    intro piece hpiece
    have hcut : splitFirst? ['"'] piece = none := by
      rw [splitFirst?_eq_none_iff, Bool.eq_false_iff]
      intro hoccurs
      exact hpieces piece hpiece ((occurs_iff.mp hoccurs).subset List.mem_cons_self)
    rw [Line.betweenQuotes?, hcut]
  have hsome : Line.betweenQuotes? (last ++ '"' :: (name.toList ++ ['"'])) = some name.toList := by
    rw [Line.betweenQuotes?, splitFirst?_singleton hlast]
    simp only [splitLast?_concat, Option.map_some]
  rw [Line.quoted?, hline, hsegments, List.findSome?_append, hnone, Option.none_or,
    List.findSome?_singleton, hsome, Option.map_some, String.ofList_toList]

/-- **The name of an example is read back.** -/
lemma exampleName_nameLine {name : String} (keyword other : String)
    (hindent : '"' ∉ indent.toList) (hname : Tidy name) (hline : '\n' ∉ name.toList)
    (hquotes : name.toList.count '"' % 2 = 0) :
    Line.exampleName keyword other (nameLine indent name) = .ok name := by
  have hcount : (nameLine indent name).toList.count '"' % 2 = 0 := by
    have hzero := List.count_eq_zero.mpr hindent
    simp only [nameLine, String.toList_append, List.count_append, hzero]
    have hquote : "\"".toList.count '"' = 1 := by decide
    omega
  rw [Line.exampleName, if_neg (by omega), quoted?_nameLine hindent hline, Option.getD_some,
    hname.2, if_neg hname.1]

end Lines

/-! ## Reading lists back -/

/-- The first of some lines, if there is one, does not mention a word. -/
def Clear (word : String) (lines : List String) : Prop :=
  ∀ line ∈ lines.head?, Line.mentions word line = false

section Lists

variable {indent word : String} {items : OrderedSet String} {rest : List String}

/-- **The items of bullet lines are those that were written**, as far as the lines go. -/
lemma items_map_itemLine {items : List String} (hindent : Line.mentions "* " indent = false)
    (hitems : ∀ item ∈ items, Tidy item) (hrest : Clear "* " rest) :
    Line.items "* " (items.map (itemLine indent) ++ rest) = items := by
  induction items with
  | nil =>
    cases rest with
    | nil => rfl
    | cons line rest => exact Line.items_of_not_mentions (hrest line rfl)
  | cons item items ih =>
    have hitem := bulletItem?_itemLine hindent (hitems item List.mem_cons_self)
    rw [List.map_cons, List.cons_append, Line.items_of_bulletItem? hitem,
      ih fun x hx => hitems x (List.mem_cons_of_mem item hx)]

/-- **A list of bullet lines is read back.** -/
lemma bulletList_itemLines (keyword : String) (hindent : Line.mentions "* " indent = false)
    (hne : items ≠ ∅) (hitems : ∀ item ∈ items, Tidy item) (hrest : Clear "* " rest) :
    Line.bulletList "* " keyword (itemLines indent items ++ rest) = .ok items.toList := by
  have hread := items_map_itemLine hindent hitems hrest
  rw [Line.bulletList_eq_ok_iff, Ne, ← Line.items_eq_nil_iff, itemLines, hread]
  exact ⟨rfl, OrderedSet.toList_ne_nil hne, fun hblank => (hitems "" hblank).1 rfl⟩

/-- There are no lines for no items. -/
lemma listLines_empty : listLines indent word ∅ = [] := rfl

/-- A word and one line for each item. -/
lemma listLines_of_ne (h : items ≠ ∅) :
    listLines indent word items = (indent ++ word) :: itemLines indent items := by
  rw [listLines, OrderedSet.isEmpty_eq_false h]
  rfl

/-- A word stands at the end of its line. -/
lemma mentions_append (indent word : String) : Line.mentions word (indent ++ word) = true :=
  Line.mentions_iff.mpr ⟨indent.toList, [], by simp⟩

/-- **The values of an example are read back.** -/
lemma readVariables_listLines (stem : String) (hindent : Line.mentions "* " indent = false)
    (hitems : ∀ item ∈ items, Tidy item) (hbullet : Clear "* " rest)
    (hvalues : Clear "variables:" rest) :
    readVariables (.standard stem) (listLines indent "variables:" items ++ rest) =
      .ok (items, (listLines indent "variables:" items).length) := by
  by_cases hne : items = ∅
  · subst hne
    rw [listLines_empty, List.nil_append]
    cases rest with
    | nil => rfl
    | cons line rest =>
      have hline : Line.mentions (Grammar.standard stem).values line = false := hvalues line rfl
      rw [readVariables, hline]
      rfl
  · have hword : Line.mentions (Grammar.standard stem).values (indent ++ "variables:") = true :=
      mentions_append indent "variables:"
    have hlist := bulletList_itemLines "variables:" hindent hne hitems hbullet
    rw [listLines_of_ne hne, List.cons_append, readVariables, hword, if_pos rfl]
    change (Line.bulletList "* " "variables:" _).map _ = _
    rw [hlist]
    simp [Except.map, itemLines, Nat.add_comm]

/-- **The features of a component are read back.** -/
lemma readFeatures_listLines (stem keyword : String) (hindent : Line.mentions "* " indent = false)
    (hne : items ≠ ∅) (hitems : ∀ item ∈ items, Tidy item) (hbullet : Clear "* " rest) :
    readFeatures (.standard stem) keyword (listLines indent "features:" items ++ rest) =
      .ok items.toList := by
  have hword : Line.mentions (Grammar.standard stem).features (indent ++ "features:") = true :=
    mentions_append indent "features:"
  rw [listLines_of_ne hne, List.cons_append, readFeatures, hword, if_pos rfl]
  exact bulletList_itemLines "features:" hindent hne hitems hbullet

end Lists

/-! ## Reading descriptions and tags back -/

section Parts

variable {indent : String} {rest : List String}

/-- The line of a description that is there. -/
lemma descLines_of_ne {desc : String} (h : desc ≠ "") :
    descLines indent desc = [introduced indent "desc:" desc] := if_neg h

/-- **The description of a journey is read back.** -/
lemma readJourneyDesc_descLines (stem : String) {desc : String} (hdesc : desc = "" ∨ Tidy desc)
    (hline : ∀ line ∈ descLines indent desc,
      OnlyAt "desc:".toList line.toList indent.toList.length)
    (hrest : Clear "desc:" rest) :
    readJourneyDesc (.standard stem) (descLines indent desc ++ rest) =
      .ok (desc, (descLines indent desc).length) := by
  rcases hdesc with rfl | htidy
  · have hnil : descLines indent "" = [] := if_pos rfl
    rw [hnil, List.nil_append]
    cases rest with
    | nil => rfl
    | cons line rest =>
      have hnot : Line.mentions (Grammar.standard stem).desc line = false := hrest line rfl
      rw [readJourneyDesc, hnot]
      rfl
  · rw [descLines_of_ne htidy.1] at hline ⊢
    have hword :
        Line.mentions (Grammar.standard stem).desc (introduced indent "desc:" desc) = true :=
      mentions_introduced indent "desc:" desc
    have hafter := after_introduced htidy (hline _ List.mem_cons_self)
    rw [List.cons_append, readJourneyDesc, hword, if_pos rfl]
    change (Line.after "desc:" _).map _ = _
    rw [hafter]
    rfl

/-- There is no line for no tags. -/
lemma tagLines_empty : tagLines indent ∅ = [] := rfl

/-- The line of tags that are there. -/
lemma tagLines_of_ne {tags : OrderedSet String} (h : tags ≠ ∅) :
    tagLines indent tags = [introduced indent "tags:" (", ".intercalate tags.toList)] := by
  rw [tagLines, OrderedSet.isEmpty_eq_false h]
  rfl

/-- The characters of the tags on their line. -/
lemma toList_intercalate_tags (tags : List String) : (", ".intercalate tags).toList =
    [',', ' '].intercalate (tags.map String.toList) := by
  rw [String.toList_intercalate]
  rfl

/-- Tidy tags stand on their line as a tidy text. -/
lemma tidy_intercalate {tags : List String} (hne : tags ≠ []) (h : ∀ tag ∈ tags, Tidy tag) :
    Tidy (", ".intercalate tags) := by
  have hitems : ∀ item ∈ tags.map String.toList, item ≠ [] ∧ trim item = item := by
    intro item hitem
    obtain ⟨tag, htag, rfl⟩ := List.mem_map.mp hitem
    exact tidy_iff.mp (h tag htag)
  rw [tidy_iff, toList_intercalate_tags]
  refine ⟨?_, trim_intercalate _ hitems⟩
  cases tags with
  | nil => exact absurd rfl hne
  | cons first others =>
    have hfirst : first.toList ≠ [] := (hitems _ List.mem_cons_self).1
    cases others <;> simp [hfirst]

/-- **A list on one line is read back.** -/
lemma inlineItems_introduced {word : String} {tags : OrderedSet String} (hne : tags ≠ ∅)
    (htags : ∀ tag ∈ tags, Tidy tag ∧ ',' ∉ tag.toList)
    (hline : OnlyAt word.toList
      (introduced indent word (", ".intercalate tags.toList)).toList indent.toList.length) :
    Line.inlineItems word ',' (introduced indent word (", ".intercalate tags.toList)) =
      .ok tags := by
  have hitems : ∀ item ∈ tags.toList.map String.toList,
      item ≠ [] ∧ trim item = item ∧ ',' ∉ item := by
    intro item hitem
    obtain ⟨tag, htag, rfl⟩ := List.mem_map.mp hitem
    obtain ⟨htidy, hcomma⟩ := htags tag htag
    obtain ⟨hnil, htrim⟩ := tidy_iff.mp htidy
    exact ⟨hnil, htrim, hcomma⟩
  have hlist : tags.toList ≠ [] := OrderedSet.toList_ne_nil hne
  have htidy := tidy_intercalate hlist fun tag htag => (htags tag htag).1
  have hsegments := map_trim_segments_intercalate (by decide : ',' ≠ ' ')
    (by rwa [Ne, List.map_eq_nil_iff]) (fun item hitem => (hitems item hitem).2.2)
    fun item hitem => (hitems item hitem).2.1
  have hfilter : (tags.toList.map String.toList).filter (fun item => !item.isEmpty) =
      tags.toList.map String.toList := by
    rw [List.filter_eq_self]
    intro item hitem
    simpa using (hitems item hitem).1
  rw [Line.inlineItems, after_introduced htidy hline]
  simp only [Except.map, toList_intercalate_tags, hsegments, hfilter, List.map_map]
  simp [Function.comp_def]

/-- **The tags are read back.** -/
lemma readTags_tagLines (stem : String) {tags : OrderedSet String}
    (htags : ∀ tag ∈ tags, Tidy tag ∧ ',' ∉ tag.toList)
    (hline : ∀ line ∈ tagLines indent tags,
      OnlyAt "tags:".toList line.toList indent.toList.length)
    (hrest : Clear "tags:" rest) :
    readTags (.standard stem) (tagLines indent tags ++ rest) =
      .ok (tags, (tagLines indent tags).length) := by
  by_cases hne : tags = ∅
  · subst hne
    rw [tagLines_empty, List.nil_append]
    cases rest with
    | nil => rfl
    | cons line rest =>
      have hnot : Line.mentions (Grammar.standard stem).tags line = false := hrest line rfl
      rw [readTags, hnot]
      rfl
  · rw [tagLines_of_ne hne] at hline ⊢
    have hword : Line.mentions (Grammar.standard stem).tags
        (introduced indent "tags:" (", ".intercalate tags.toList)) = true :=
      mentions_introduced indent "tags:" _
    have hitems := inlineItems_introduced hne htags (hline _ List.mem_cons_self)
    rw [List.cons_append, readTags, hword, if_pos rfl]
    change (Line.inlineItems "tags:" ',' _).map _ = _
    rw [hitems]
    rfl

end Parts

/-! ## Reading whole blocks back -/

/-- Lines that do not continue a block do not start with any of its words. -/
lemma EndsBlock.clear {lines : List String} (h : EndsBlock lines) {word : String}
    (hword : word ∈ ["variables:", "tags:", "desc:", "* "]) : Clear word lines :=
  fun line hline => h line hline word hword

/-- Lines without a word, followed by lines that do not start with it, do not start with it. -/
lemma Clear.append {word : String} {lines rest : List String}
    (hlines : ∀ line ∈ lines, Line.mentions word line = false) (hrest : Clear word rest) :
    Clear word (lines ++ rest) := by
  cases lines with
  | nil => exact hrest
  | cons line lines =>
    intro first hfirst
    obtain rfl : line = first := Option.some.inj hfirst
    exact hlines line List.mem_cons_self

/-- The line above a list of features is no line of tags. -/
lemma mentions_tags_features {indent : String} (h : Line.mentions "tags:" indent = false) :
    Line.mentions "tags:" (indent ++ "features:") = false := by
  rw [Bool.eq_false_iff] at h ⊢
  rw [Ne, Line.mentions_iff] at h ⊢
  intro hinfix
  rw [String.toList_append] at hinfix
  have hsplit : "features:".toList = 'f' :: "eatures:".toList := by decide
  rw [hsplit] at hinfix
  rcases infix_append_cons (by decide) hinfix with hindent | hrest
  · exact h hindent
  · exact absurd hrest (by decide)

section Blocks

variable {stem indent : String} {tail : List String} (number : Nat)

/-- A component is read back. -/
lemma readComponent_written {c : Component} (hform : (Entity.ofComponent c).WellFormed)
    (hlegible : (Entity.ofComponent c).Legible stem indent) (htail : EndsBlock tail)
    (hplace : c.location = .unstamped number)
    (hname : Line.after (Kind.keyword stem .ofComponent)
      ((Entity.ofComponent c).keywordLine stem indent) = .ok c.name) :
    readComponent (.standard stem) (Kind.keyword stem .ofComponent) number
        ((Entity.ofComponent c).keywordLine stem indent)
        ((Entity.ofComponent c).bodyLines indent ++ tail) =
      .ok ⟨((Entity.ofComponent c).written stem indent).length, some (.ofComponent c)⟩ := by
  obtain ⟨-, hdesc, htags, hne, hfeatures⟩ := hform
  have hbullet : Line.mentions "* " indent = false := hlegible.words _ (by simp)
  have hdescLine := hlegible.desc
  simp only [Entity.desc, descLines_of_ne hdesc.1, List.mem_singleton, forall_eq] at hdescLine
  have hclear : Clear "tags:" (listLines indent "features:" c.features ++ tail) := by
    rw [listLines_of_ne hne]
    intro line hline
    obtain rfl : indent ++ "features:" = line := Option.some.inj hline
    exact mentions_tags_features (hlegible.words _ (by simp))
  have hreadTags := readTags_tagLines stem htags (fun line hline => (hlegible.tags line hline).1)
    hclear
  have hreadFeatures := readFeatures_listLines stem (Kind.keyword stem .ofComponent) hbullet hne
    hfeatures (htail.clear (by simp))
  rw [Entity.bodyLines, descLines_of_ne hdesc.1, List.cons_append, List.cons_append,
    List.nil_append, List.append_assoc]
  refine bind_eq_ok_iff.mpr ⟨c.name, hname, ?_⟩
  refine bind_eq_ok_iff.mpr ⟨c.desc, after_introduced hdesc hdescLine, ?_⟩
  refine bind_eq_ok_iff.mpr ⟨_, hreadTags, ?_⟩
  simp only [List.drop_left]
  refine bind_eq_ok_iff.mpr ⟨_, hreadFeatures, ?_⟩
  have hlength : ((Entity.ofComponent c).written stem indent).length =
      3 + (tagLines indent c.tags).length + c.features.toList.length := by
    simp only [Entity.written, Entity.bodyLines, descLines_of_ne hdesc.1, listLines_of_ne hne,
      itemLines, List.length_cons, List.length_append, List.length_map, List.length_nil]
    omega
  rw [hlength, OrderedSet.ofList_toList, ← hplace]
  rfl

/-- An example is read back. -/
lemma readExample_written {e : Example} (hform : (Entity.ofExample e).WellFormed)
    (hlegible : (Entity.ofExample e).Legible stem indent) (htail : EndsBlock tail)
    (hplace : e.location = .unstamped number)
    (hcategory : Line.cut (Kind.keyword stem (.ofExample e.kind))
      ((Entity.ofExample e).keywordLine stem indent) = .ok (indent, e.category)) :
    readExample (.standard stem) (Kind.keyword stem (.ofExample e.kind)) e.kind number
        ((Entity.ofExample e).keywordLine stem indent)
        ((Entity.ofExample e).bodyLines indent ++ tail) =
      .ok ⟨((Entity.ofExample e).written stem indent).length, some (.ofExample e)⟩ := by
  obtain ⟨hname, hline, hquotes, -, hvalues, htags⟩ := hform
  have hbullet : Line.mentions "* " indent = false := hlegible.words _ (by simp)
  -- neither the line of the tags nor what follows is taken for a part of the values
  have hreadValues := readVariables_listLines stem hbullet hvalues
    (.append (fun line hline => (hlegible.tags line hline).2.2) (htail.clear (by simp)))
    (.append (fun line hline => (hlegible.tags line hline).2.1) (htail.clear (by simp)))
  have hreadTags := readTags_tagLines stem htags (fun line hline => (hlegible.tags line hline).1)
    (htail.clear (by simp))
  have hreadName := exampleName_nameLine (Kind.keyword stem (.ofExample e.kind)) indent
    hlegible.quote hname hline hquotes
  rw [Entity.bodyLines, List.cons_append, List.append_assoc]
  refine bind_eq_ok_iff.mpr ⟨_, hcategory, ?_⟩
  refine bind_eq_ok_iff.mpr ⟨_, hreadName, ?_⟩
  refine bind_eq_ok_iff.mpr ⟨_, hreadValues, ?_⟩
  simp only [List.drop_left]
  refine bind_eq_ok_iff.mpr ⟨_, hreadTags, ?_⟩
  have hlength : ((Entity.ofExample e).written stem indent).length =
      2 + (listLines indent "variables:" e.values).length + (tagLines indent e.tags).length := by
    simp only [Entity.written, Entity.bodyLines, List.length_cons, List.length_append]
    omega
  rw [hlength, ← hplace]
  rfl

/-- A variable is read back. -/
lemma readVariable_written {v : Variable} (hform : (Entity.ofVariable v).WellFormed)
    (hlegible : (Entity.ofVariable v).Legible stem indent) (htail : EndsBlock tail)
    (hplace : v.location = .unstamped number)
    (hname : Line.after (Kind.keyword stem .ofVariable)
      ((Entity.ofVariable v).keywordLine stem indent) = .ok v.name) :
    readVariable (.standard stem) (Kind.keyword stem .ofVariable) number
        ((Entity.ofVariable v).keywordLine stem indent)
        ((Entity.ofVariable v).bodyLines indent ++ tail) =
      .ok ⟨((Entity.ofVariable v).written stem indent).length, some (.ofVariable v)⟩ := by
  obtain ⟨-, hne, hvalues⟩ := hform
  have hbullet : Line.mentions "* " indent = false := hlegible.words _ (by simp)
  have hread := bulletList_itemLines (Kind.keyword stem .ofVariable) hbullet hne hvalues
    (htail.clear (by simp))
  refine bind_eq_ok_iff.mpr ⟨_, hname, ?_⟩
  refine bind_eq_ok_iff.mpr ⟨_, hread, ?_⟩
  have hlength : ((Entity.ofVariable v).written stem indent).length =
      1 + v.values.toList.length := by
    simp only [Entity.written, Entity.bodyLines, itemLines, List.length_cons, List.length_map]
    omega
  rw [hlength, OrderedSet.ofList_toList, ← hplace]
  rfl

/-- A journey is read back. -/
lemma readJourney_written {j : Journey} (hform : (Entity.ofJourney j).WellFormed)
    (hlegible : (Entity.ofJourney j).Legible stem indent) (htail : EndsBlock tail)
    (hplace : j.location = .unstamped number)
    (hname : Line.after (Kind.keyword stem .ofJourney)
      ((Entity.ofJourney j).keywordLine stem indent) = .ok j.name) :
    readJourney (.standard stem) (Kind.keyword stem .ofJourney) number
        ((Entity.ofJourney j).keywordLine stem indent)
        ((Entity.ofJourney j).bodyLines indent ++ tail) =
      .ok ⟨((Entity.ofJourney j).written stem indent).length, some (.ofJourney j)⟩ := by
  have hread := readJourneyDesc_descLines stem hform.2 hlegible.desc (htail.clear (by simp))
  refine bind_eq_ok_iff.mpr ⟨_, hname, ?_⟩
  refine bind_eq_ok_iff.mpr ⟨_, hread, ?_⟩
  have hlength : ((Entity.ofJourney j).written stem indent).length =
      1 + (descLines indent j.desc).length := by
    simp only [Entity.written, Entity.bodyLines, List.length_cons]
    omega
  rw [hlength, ← hplace]
  rfl

end Blocks

section Keyword

variable {stem indent : String} {entity : Entity}

/-- The text on the keyword line is tidy. -/
lemma tidy_headline (h : entity.WellFormed) : Tidy entity.headline := by
  cases entity with
  | ofComponent c => exact h.1
  | ofExample e => exact h.2.2.2.1
  | ofVariable v => exact h.1
  | ofCrosscut c => exact h
  | ofJourney j => exact h.1

/-- The keyword line is cut at its keyword. -/
lemma cut_keywordLine (hform : entity.WellFormed) (h : entity.Legible stem indent) :
    Line.cut (entity.blockKind.keyword stem) (entity.keywordLine stem indent) =
      .ok (indent, entity.headline) := by
  have hmem : (entity.blockKind.keyword stem, entity.blockKind) ∈
      (Grammar.standard stem).blocks := mem_blocks_standard_iff.mpr rfl
  exact cut_introduced (tidy_headline hform) fun j hj hstands => (h.keyword _ hmem j hj hstands).2

/-- **The keyword line is recognized**: no other keyword is found on it. -/
lemma match?_keywordLine (h : entity.Legible stem indent) :
    (Grammar.standard stem).match? (entity.keywordLine stem indent) =
      some (entity.blockKind.keyword stem, entity.blockKind) := by
  have hentry : (entity.blockKind.keyword stem, entity.blockKind) ∈
      (Grammar.standard stem).blocks := mem_blocks_standard_iff.mpr rfl
  have hstands : (entity.blockKind.keyword stem).toList <:+:
      (entity.keywordLine stem indent).toList :=
    Line.mentions_iff.mp (mentions_introduced indent _ entity.headline)
  obtain ⟨found, hfound⟩ := Option.isSome_iff_exists.mp
    (Grammar.match?_isSome_iff.mpr ⟨_, hentry, hstands⟩)
  obtain ⟨hmem, before, after, heq⟩ := Grammar.mem_and_infix_of_match? hfound
  -- the keyword that is found stands where the intended one does
  obtain ⟨hkeyword, -⟩ := h.keyword found hmem before.length
    (by rw [← heq]; simp only [List.length_append]; omega)
    (by rw [← heq, List.append_assoc, List.drop_left]; exact List.prefix_append _ _)
  obtain ⟨kind, rfl⟩ : ∃ kind : Kind, found = (kind.keyword stem, kind) :=
    ⟨found.2, mem_blocks_standard_iff.mp hmem⟩
  rw [hfound, Kind.keyword_injective hkeyword]

end Keyword

/-- **An entity that is written is read back**, with its line and the number of its lines, whatever
stands above it and below it.

**Proof sketch.** The keyword line is recognized and cut at its keyword. Below it each part is read
back from its own lines, since the first line of what follows is not taken for a part of it. -/
theorem readAt_written (stem indent : String) (entity : Entity) (above tail : List String)
    (hform : entity.WellFormed) (hlegible : entity.Legible stem indent)
    (hplace : entity.location = .unstamped (above.length + 1)) (htail : EndsBlock tail) :
    readAt (.standard stem) (above ++ entity.written stem indent ++ tail) above.length =
      .ok ⟨(entity.written stem indent).length, some entity⟩ := by
  have hcut := cut_keywordLine hform hlegible
  have hafter : Line.after (entity.blockKind.keyword stem) (entity.keywordLine stem indent) =
      .ok entity.headline := by
    rw [Line.after, hcut]
    rfl
  have hmatch := match?_keywordLine hlegible
  rw [readAt, List.append_assoc, List.drop_left, Entity.written, List.cons_append, read, hmatch]
  cases entity with
  | ofComponent c => exact readComponent_written _ hform hlegible htail hplace hafter
  | ofExample e => exact readExample_written _ hform hlegible htail hplace hcut
  | ofVariable v => exact readVariable_written _ hform hlegible htail hplace hafter
  | ofCrosscut c =>
    refine bind_eq_ok_iff.mpr ⟨_, hafter, ?_⟩
    rw [← (hplace : c.location = _)]
    rfl
  | ofJourney j => exact readJourney_written _ hform hlegible htail hplace hafter

/-- An example with values, with tags, and with quotes in its name. -/
def bookedFlight : Entity := .ofExample {
  name := "I book \"a flight\" for my cat"
  category := "Booking flights"
  values := .ofList ["Business class", "* class"]
  tags := .ofList ["pet-friendly", "travel"]
  kind := .howTo
  location := .unstamped 2 }

/-- The example is read back from comment lines, between a line of code and another block. -/
theorem readAt_written_bookedFlight :
    bookedFlight.WellFormed ∧ bookedFlight.Legible "aerial" "// " ∧
      bookedFlight.location = .unstamped (["import cats"].length + 1) ∧
      EndsBlock ["// aerial:cross-cut Audit log"] ∧
      readAt (.standard "aerial") (["import cats"] ++ bookedFlight.written "aerial" "// " ++
        ["// aerial:cross-cut Audit log"]) 1 = .ok ⟨6, some bookedFlight⟩ := by
  have hform : bookedFlight.WellFormed := by decide +kernel
  have hlegible : bookedFlight.Legible "aerial" "// " := by decide +kernel
  have htail : EndsBlock ["// aerial:cross-cut Audit log"] := by decide +kernel
  exact ⟨hform, hlegible, rfl, htail,
    readAt_written "aerial" "// " bookedFlight ["import cats"] _ hform hlegible rfl htail⟩

end Block

end LivingDocs
