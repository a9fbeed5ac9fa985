import LivingDocs.Proofs.Search
import Mathlib.Data.List.Infix
import Mathlib.Data.List.Nodup

/-!
# The table of keywords

A line is searched for the keywords of a table one after the other, and the first one that is found
decides. In the standard grammar no keyword stands inside another one, whatever the stem is: a
keyword has its last colon right behind the stem, so that one keyword could stand inside another
one only at its start, and no name starts with another name. Hence the order of the table matters
only on a line that holds several keywords, and there it may give any of them.

## Main definitions

* `LivingDocs.Block.Kind.keyword` — the keyword of a kind of blocks under a stem.
* `LivingDocs.Block.Grammar.Unambiguous` — no keyword of the table stands inside another one.
* `LivingDocs.Block.Grammar.OnlyKeyword` — a line holds one keyword of the table and no other.

## Main results

* `LivingDocs.Text.prefix_of_infix_append_cons` — what stands inside a text with the same last mark
  stands at its start.
* `LivingDocs.Block.Grammar.unambiguous_standard` — the standard table under any stem.
* `LivingDocs.Block.Grammar.match?_standard_reordered` — what a line gives under every order of the
  standard table.
-/

set_option autoImplicit false

namespace LivingDocs

/-- **What stands inside a text with the same last mark stands at its start.** The texts agree up to
the mark `c`, and no other `c` follows in the longer one.

**Proof sketch.** The mark of the needle falls on some `c` of the text. It cannot fall behind the
last one, so nothing is left in front of the needle. -/
lemma Text.prefix_of_infix_append_cons {c : Char} {front needle text : List Char} (hc : c ∉ text)
    (h : front ++ c :: needle <:+: front ++ c :: text) : needle <+: text := by
  obtain ⟨before, after, heq⟩ := h
  have hmarks : (before ++ front) ++ c :: (needle ++ after) = front ++ c :: text := by
    simpa using heq
  rcases List.append_eq_append_iff.mp hmarks with ⟨gap, hfront, hgap⟩ | ⟨gap, hfront, hgap⟩
  · have hlength := congrArg List.length hfront
    simp only [List.length_append] at hlength
    obtain rfl : gap = [] := List.eq_nil_of_length_eq_zero (by omega)
    exact ⟨after, (List.cons.inj hgap).2⟩
  · cases gap with
    | nil => exact ⟨after, (List.cons.inj hgap).2.symm⟩
    | cons d gap =>
      obtain ⟨-, rfl⟩ := List.cons.inj hgap
      exact absurd (List.mem_append_right gap List.mem_cons_self) hc

namespace Block

/-! ## Keywords of the standard grammar -/

namespace Kind

/-- The kinds, in the order in which a line is searched for their keywords. -/
def all : List Kind :=
  [.ofExample .howTo, .ofExample .todo, .ofExample .plain, .ofCrosscut, .ofComponent, .ofVariable,
    .ofJourney]

/-- What stands behind the stem in the keyword of a kind. -/
def ending : Kind → String
  | ofExample .howTo => ":how-to"
  | ofExample .todo => ":todo"
  | ofExample .plain => ":example"
  | ofCrosscut => ":cross-cut"
  | ofComponent => ":component"
  | ofVariable => ":variable"
  | ofJourney => ":journey"

/-- **The keyword of a kind** under a stem. -/
def keyword (stem : String) (kind : Kind) : String := stem ++ kind.ending

/-- What stands behind the colon in the keyword of a kind. -/
def name (kind : Kind) : List Char := kind.ending.toList.tail

/-- Every kind is one of those that are searched for. -/
lemma mem_all (kind : Kind) : kind ∈ all := by
  rcases kind with (_ | _ | _) | _ | _ | _ | _ <;> decide

/-- The kinds that are searched for are all different. -/
lemma nodup_all : all.Nodup := by decide

/-- A keyword is the stem and a name, with a colon between. -/
lemma toList_keyword (stem : String) (kind : Kind) :
    (kind.keyword stem).toList = stem.toList ++ ':' :: kind.name := by
  have hall : ∀ kind ∈ all, kind.ending.toList = ':' :: kind.name := by decide
  rw [keyword, String.toList_append, hall kind (mem_all kind)]

/-- No colon stands in a name. -/
lemma colon_not_mem_name (kind : Kind) : ':' ∉ kind.name := by
  have hall : ∀ kind ∈ all, ':' ∉ kind.name := by decide
  exact hall kind (mem_all kind)

/-- No name starts with another name. -/
lemma eq_of_prefix_name {a b : Kind} (h : a.name <+: b.name) : a = b := by
  have hall : ∀ a ∈ all, ∀ b ∈ all, a.name <+: b.name → a = b := by decide
  exact hall a (mem_all a) b (mem_all b) h

/-- **No keyword stands inside another one.** -/
lemma eq_of_infix_keyword {stem : String} {a b : Kind}
    (h : (a.keyword stem).toList <:+: (b.keyword stem).toList) : a = b := by
  rw [toList_keyword, toList_keyword] at h
  exact eq_of_prefix_name (Text.prefix_of_infix_append_cons (colon_not_mem_name b) h)

/-- Different kinds have different keywords. -/
lemma keyword_injective {stem : String} {a b : Kind} (h : a.keyword stem = b.keyword stem) :
    a = b := by
  apply eq_of_infix_keyword
  rw [h]

end Kind

/-- The table of the standard grammar has one keyword for each kind. -/
lemma blocks_standard (stem : String) :
    (Grammar.standard stem).blocks = Kind.all.map fun kind => (kind.keyword stem, kind) := rfl

/-- The entries of the table are the kinds with their keywords. -/
lemma mem_blocks_standard_iff {stem : String} {entry : String × Kind} :
    entry ∈ (Grammar.standard stem).blocks ↔ entry = (entry.2.keyword stem, entry.2) := by
  rw [blocks_standard, List.mem_map]
  constructor
  · rintro ⟨kind, -, rfl⟩
    rfl
  · intro h
    exact ⟨entry.2, Kind.mem_all entry.2, h.symm⟩

/-! ## Tables in any order -/

namespace Grammar

/-- **A table without ambiguity**: no keyword stands inside another one. -/
def Unambiguous (grammar : Grammar) : Prop :=
  grammar.blocks.Pairwise fun a b =>
    ¬ a.1.toList <:+: b.1.toList ∧ ¬ b.1.toList <:+: a.1.toList

/-- **The standard table is without ambiguity**, whatever the stem is. -/
lemma unambiguous_standard (stem : String) : (standard stem).Unambiguous := by
  rw [Unambiguous, blocks_standard, List.pairwise_map]
  refine Kind.nodup_all.imp fun hne => ⟨fun h => hne ?_, fun h => hne ?_⟩
  · exact Kind.eq_of_infix_keyword h
  · exact (Kind.eq_of_infix_keyword h).symm

variable {grammar other : Grammar} {line : String} {entry : String × Kind}

/-- An unambiguous table has no keyword twice. -/
lemma Unambiguous.eq_of_keyword_eq (h : grammar.Unambiguous) {a b : String × Kind}
    (ha : a ∈ grammar.blocks) (hb : b ∈ grammar.blocks) (heq : a.1 = b.1) : a = b := by
  have hkeys : (grammar.blocks.map Prod.fst).Nodup := by
    refine List.pairwise_map.mpr (h.imp fun hapart hkeyword => hapart.1 ?_)
    rw [hkeyword]
  exact List.inj_on_of_nodup_map hkeys ha hb heq

/-- **The only keyword on a line**: the entry is in the table, and of all keywords of the table the
line holds its keyword and no other. -/
def OnlyKeyword (grammar : Grammar) (line : String) (entry : String × Kind) : Prop :=
  entry ∈ grammar.blocks ∧
    ∀ other ∈ grammar.blocks, other.1.toList <:+: line.toList ↔ other.1 = entry.1

instance (grammar : Grammar) (line : String) (entry : String × Kind) :
    Decidable (grammar.OnlyKeyword line entry) :=
  inferInstanceAs (Decidable (_ ∧ _))

/-- Whether a line gives something does not depend on the order of the table. -/
lemma match?_isSome_of_perm (hperm : grammar.blocks.Perm other.blocks) :
    (grammar.match? line).isSome = (other.match? line).isSome := by
  rw [Bool.eq_iff_iff, match?_isSome_iff, match?_isSome_iff]
  exact exists_congr fun entry => and_congr_left fun _ => hperm.mem_iff

/-- **The only keyword on a line is found** under every order of the table. -/
lemma Unambiguous.match?_of_onlyKeyword (h : grammar.Unambiguous)
    (honly : grammar.OnlyKeyword line entry) (hperm : other.blocks.Perm grammar.blocks) :
    other.match? line = some entry := by
  obtain ⟨hentry, hline⟩ := honly
  have hsome : (other.match? line).isSome = true :=
    match?_isSome_iff.mpr ⟨entry, hperm.mem_iff.mpr hentry, (hline entry hentry).mpr rfl⟩
  obtain ⟨found, hfound⟩ := Option.isSome_iff_exists.mp hsome
  obtain ⟨hmem, hinfix⟩ := mem_and_infix_of_match? hfound
  have hfoundMem := hperm.mem_iff.mp hmem
  rw [hfound, h.eq_of_keyword_eq hfoundMem hentry ((hline found hfoundMem).mp hinfix)]

/-- **Orders that disagree on a line** find two keywords there.

**Proof sketch.** Either both orders find a keyword or neither does. What they find stands on the
line, and different entries of the table have different keywords. -/
lemma Unambiguous.keywords_of_match?_ne {another : Grammar} (h : grammar.Unambiguous)
    (hother : other.blocks.Perm grammar.blocks) (hanother : another.blocks.Perm grammar.blocks)
    (hne : other.match? line ≠ another.match? line) :
    ∃ a ∈ grammar.blocks, ∃ b ∈ grammar.blocks, other.match? line = some a ∧
      another.match? line = some b ∧ a.1 ≠ b.1 ∧ a.1.toList <:+: line.toList ∧
      b.1.toList <:+: line.toList := by
  have hsame : (other.match? line).isSome = (another.match? line).isSome :=
    match?_isSome_of_perm (hother.trans hanother.symm)
  cases ha : other.match? line with
  | none =>
    rw [ha, Option.isSome_none, eq_comm, Option.isSome_eq_false_iff, Option.isNone_iff_eq_none]
      at hsame
    exact absurd (ha.trans hsame.symm) hne
  | some a =>
    rw [ha, Option.isSome_some, eq_comm] at hsame
    obtain ⟨b, hb⟩ := Option.isSome_iff_exists.mp hsame
    obtain ⟨hmemA, hlineA⟩ := mem_and_infix_of_match? ha
    obtain ⟨hmemB, hlineB⟩ := mem_and_infix_of_match? hb
    have haTable := hother.mem_iff.mp hmemA
    have hbTable := hanother.mem_iff.mp hmemB
    refine ⟨a, haTable, b, hbTable, rfl, hb, fun hkeyword => hne ?_, hlineA, hlineB⟩
    rw [ha, hb, h.eq_of_keyword_eq haTable hbTable hkeyword]

/-- Any keyword that stands on a line is found if its entry comes first in the table. -/
lemma exists_perm_match? (hentry : entry ∈ grammar.blocks)
    (hline : entry.1.toList <:+: line.toList) :
    ∃ other : Grammar, other.blocks.Perm grammar.blocks ∧ other.match? line = some entry := by
  refine ⟨{ grammar with blocks := entry :: grammar.blocks.erase entry },
    (List.perm_cons_erase hentry).symm, ?_⟩
  rw [match?, List.find?_cons_of_pos]
  exact Line.mentions_iff.mpr hline

/-- **What a line gives under every order of the standard table.** No keyword of the table stands
inside another one. So the only keyword on a line is found, with its kind, wherever it stands in the
table. Where two orders disagree, they find different keywords that both stand on the line, and each
keyword on a line is found under some order. -/
theorem match?_standard_reordered (stem : String) :
    (standard stem).Unambiguous ∧
      (∀ (grammar : Grammar) (line : String) (entry : String × Kind),
        grammar.blocks.Perm (standard stem).blocks → (standard stem).OnlyKeyword line entry →
        grammar.match? line = some entry) ∧
      (∀ (grammar other : Grammar) (line : String),
        grammar.blocks.Perm (standard stem).blocks → other.blocks.Perm (standard stem).blocks →
        grammar.match? line ≠ other.match? line →
        ∃ a ∈ (standard stem).blocks, ∃ b ∈ (standard stem).blocks,
          grammar.match? line = some a ∧ other.match? line = some b ∧ a.1 ≠ b.1 ∧
          a.1.toList <:+: line.toList ∧ b.1.toList <:+: line.toList) ∧
      (∀ (line : String) (entry : String × Kind), entry ∈ (standard stem).blocks →
        entry.1.toList <:+: line.toList →
        ∃ grammar : Grammar, grammar.blocks.Perm (standard stem).blocks ∧
          grammar.match? line = some entry) := by
  have hunambiguous := unambiguous_standard stem
  refine ⟨hunambiguous, ?_, ?_, ?_⟩
  · intro grammar line entry hperm honly
    exact hunambiguous.match?_of_onlyKeyword honly hperm
  · intro grammar other line hgrammar hother hne
    exact hunambiguous.keywords_of_match?_ne hgrammar hother hne
  · intro line entry hentry hline
    exact exists_perm_match? hentry hline

/-- The standard table from the end, under a stem that is itself a colon and a name. -/
def backwards : Grammar :=
  { standard ":todo" with blocks := (standard ":todo").blocks.reverse }

/-- Under a stem that looks like a keyword, a line with one keyword gives the same from the start
and from the end of the table, and a line on which two keywords overlap does not. -/
theorem match?_standard_reordered_backwards :
    (standard ":todo").OnlyKeyword "# :todo:todo Pay" (":todo:todo", .ofExample .todo) ∧
      backwards.match? "# :todo:todo Pay" = some (":todo:todo", .ofExample .todo) ∧
      backwards.match? "# :todo:todo:example Pay" ≠
        (standard ":todo").match? "# :todo:todo:example Pay" ∧
      ∃ a ∈ (standard ":todo").blocks, ∃ b ∈ (standard ":todo").blocks,
        backwards.match? "# :todo:todo:example Pay" = some a ∧
        (standard ":todo").match? "# :todo:todo:example Pay" = some b ∧ a.1 ≠ b.1 ∧
        a.1.toList <:+: "# :todo:todo:example Pay".toList ∧
        b.1.toList <:+: "# :todo:todo:example Pay".toList := by
  obtain ⟨-, hsole, hdiffer, -⟩ := match?_standard_reordered ":todo"
  have hperm : backwards.blocks.Perm (standard ":todo").blocks := List.reverse_perm _
  have honly : (standard ":todo").OnlyKeyword "# :todo:todo Pay"
      (":todo:todo", .ofExample .todo) := by decide +kernel
  have hne : backwards.match? "# :todo:todo:example Pay" ≠
      (standard ":todo").match? "# :todo:todo:example Pay" := by decide +kernel
  exact ⟨honly, hsole _ _ _ hperm honly, hne, hdiffer _ _ _ hperm (.refl _) hne⟩

end Grammar

end Block

end LivingDocs
