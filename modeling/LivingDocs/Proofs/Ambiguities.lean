import LivingDocs.Proofs.Lookup

/-!
# Ambiguous declarations

A lookup notes an ambiguity when a declaration takes an item away from another name. It looks only
at the name that has the item at that moment, and not at all the names that have had it. Still
nothing escapes it: the ambiguities that are noted about an item are the changes in the sequence of
all names that declare it, so there are some exactly if the item is declared under two names, and
the last of them tells the name that the item belongs to in the end.

## Main definitions

* `LivingDocs.Collation.changes` — where a sequence of names changes.
* `LivingDocs.Collation.declarers` — the names that declare an item, in order.
* `LivingDocs.Collation.Lookup.about` — the ambiguities that are noted about an item.
* `LivingDocs.Collation.Lookup.Tells` — a lookup tells about all declarations of its entries.

## Main results

* `LivingDocs.Collation.changes_ne_nil_iff`, `LivingDocs.Collation.second_of_getLast?_changes` —
  when names change, and what the last change leads to.
* `LivingDocs.Collation.about_declared` — what is noted about an item.
* `LivingDocs.Collation.lookups_tell` — both lookups of a report tell about all declarations.
-/

set_option autoImplicit false

namespace LivingDocs.Collation

/-! ## Changes in a sequence of names -/

/-- **Where the names of an item change**: one ambiguity for each two names that follow each other
and differ. -/
def changes (item : String) (names : List String) : List Ambiguity :=
  ((names.zip names.tail).filter fun pair => pair.1 ≠ pair.2).map fun pair =>
    ⟨item, pair.1, pair.2⟩

/-- The change from the name that has an item, if one has it, to the name that gets it. -/
def changeTo (item : String) (previous : Option String) (name : String) : List Ambiguity :=
  match previous with
  | none => []
  | some first => if first = name then [] else [⟨item, first, name⟩]

section Changes

variable {item : String} {names : List String}

/-- The first name changes to the second one, and so on from there. -/
lemma changes_cons_cons (item first second : String) (names : List String) :
    changes item (first :: second :: names) =
      changeTo item (some first) second ++ changes item (second :: names) := by
  by_cases h : first = second <;> simp [changes, changeTo, h]

/-- One more name changes from the last one before it. -/
lemma changes_concat (item : String) (names : List String) (name : String) :
    changes item (names ++ [name]) = changes item names ++ changeTo item names.getLast? name := by
  induction names with
  | nil => rfl
  | cons first names ih =>
    cases names with
    | nil => simpa [changes] using changes_cons_cons item first name []
    | cons second names =>
      rw [List.cons_append, List.cons_append, changes_cons_cons, ← List.cons_append, ih,
        changes_cons_cons, List.append_assoc, List.getLast?_cons_cons]

/-- **Names change exactly if they are not all the same.**

**Proof sketch.** Without a change each name is the one before it, so all of them are the first. -/
lemma changes_ne_nil_iff :
    changes item names ≠ [] ↔ ∃ a ∈ names, ∃ b ∈ names, a ≠ b := by
  have hsame : changes item names = [] ↔ ∀ a ∈ names, ∀ b ∈ names, a = b := by
    induction names with
    | nil => simp [changes]
    | cons first names ih =>
      cases names with
      | nil => simp [changes]
      | cons second names =>
        have hfirst : changeTo item (some first) second = [] ↔ first = second := by
          simp [changeTo]
        rw [changes_cons_cons, List.append_eq_nil_iff, hfirst, ih]
        constructor
        · rintro ⟨rfl, hall⟩ a ha b hb
          exact hall a (by simpa using ha) b (by simpa using hb)
        · intro hall
          exact ⟨hall first (by simp) second (by simp), fun a ha b hb =>
            hall a (List.mem_cons_of_mem first ha) b (List.mem_cons_of_mem first hb)⟩
  rw [ne_eq, hsame]
  push Not
  rfl

/-- **The last change leads to the last name.**

**Proof sketch.** Induction on the names from the end. If the last name differs from the one before
it, the last change is the one to it. Otherwise it is the last change before, which leads to that
same name. -/
lemma second_of_getLast?_changes {last : Ambiguity}
    (h : (changes item names).getLast? = some last) : names.getLast? = some last.second := by
  induction names using List.reverseRecOn with
  | nil => cases h
  | append_singleton names name ih =>
    rw [List.getLast?_concat]
    rw [changes_concat, List.getLast?_append] at h
    unfold changeTo at h
    split at h
    · next hnone =>
      rw [List.getLast?_eq_none_iff.mp hnone] at h
      cases h
    · next first hfirst =>
      split at h
      · next hsame =>
        rw [← hsame, ← hfirst]
        exact ih h
      · cases h
        rfl

end Changes

/-! ## What is noted about an item -/

/-- The ambiguities that are noted about an item, in order. -/
def Lookup.about (lookup : Lookup) (item : String) : List Ambiguity :=
  lookup.ambiguities.filter fun ambiguity => ambiguity.item = item

/-- One more declaration notes the change to its name, if it is one. -/
lemma about_declare (lookup : Lookup) (item name k : String) :
    (lookup.declare item name).about k =
      lookup.about k ++ if k = item then changeTo k (lookup.index.get? k) name else [] := by
  unfold Lookup.about Lookup.declare
  by_cases hk : k = item
  · subst hk
    cases lookup.index.get? k with
    | none => simp [changeTo]
    | some previous => by_cases hsame : previous = name <;> simp [changeTo, hsame]
  · cases lookup.index.get? item with
    | none => simp [hk]
    | some previous => by_cases hsame : previous = name <;> simp [hk, hsame, Ne.symm hk]

/-- The declarations of one entry note one change at most, however often the entry repeats an
item. -/
lemma about_foldl_declare (name k : String) (items : List String) (lookup : Lookup) :
    ((items.map fun item => (item, name)).foldl (fun l d => l.declare d.1 d.2) lookup).about k =
      lookup.about k ++ if k ∈ items then changeTo k (lookup.index.get? k) name else [] := by
  induction items generalizing lookup with
  | nil => simp
  | cons item items ih =>
    have hagain : changeTo k (some name) name = [] := by simp [changeTo]
    rw [List.map_cons, List.foldl_cons, ih, about_declare, get?_declare]
    by_cases hitem : k = item
    · simp [hitem, hitem ▸ hagain]
    · simp [hitem]

section Declared

variable {α : Type} (items : α → List String) (name : α → String)

/-- **The names that declare an item**, one for each entry, in order. -/
def declarers (entries : List α) (item : String) : List String :=
  (entries.filter fun entry => item ∈ items entry).map name

/-- The names that declare an item are those of the entries that do. -/
lemma mem_declarers {entries : List α} {item owner : String} :
    owner ∈ declarers items name entries item ↔
      ∃ entry ∈ entries, item ∈ items entry ∧ name entry = owner := by
  simp [declarers, and_assoc]

/-- One more entry declares its own items. -/
lemma declarers_concat (entries : List α) (entry : α) (item : String) :
    declarers items name (entries ++ [entry]) item =
      declarers items name entries item ++ if item ∈ items entry then [name entry] else [] := by
  by_cases h : item ∈ items entry <;> simp [declarers, h]

/-- An item belongs to the last name that declares it. -/
lemma get?_declared_eq_getLast? (entries : List α) (item : String) :
    (Lookup.ofDeclarations
      (entries.flatMap fun e => (items e).map fun item => (item, name e))).index.get? item =
      (declarers items name entries item).getLast? := by
  rw [get?_declared, declarers, List.getLast?_map, List.getLast?_eq_head?_reverse,
    ← List.filter_reverse, List.head?_filter]

/-- **What is noted about an item are the changes in the names that declare it.**

**Proof sketch.** Induction on the entries from the end. The last entry adds its name if it declares
the item. The lookup compares that name with the one that has the item by then, which is the last
of the names before it. -/
theorem about_declared (entries : List α) (item : String) :
    (Lookup.ofDeclarations
      (entries.flatMap fun e => (items e).map fun item => (item, name e))).about item =
      changes item (declarers items name entries item) := by
  induction entries using List.reverseRecOn with
  | nil => rfl
  | append_singleton entries entry ih =>
    have hlast := get?_declared_eq_getLast? items name entries item
    rw [Lookup.ofDeclarations] at ih hlast ⊢
    rw [List.flatMap_append, List.foldl_append, List.flatMap_singleton, about_foldl_declare, ih,
      hlast, declarers_concat]
    by_cases h : item ∈ items entry
    · rw [if_pos h, if_pos h, changes_concat]
    · rw [if_neg h, if_neg h, List.append_nil, List.append_nil]

/-- **A lookup tells about all declarations of its entries.** -/
structure Lookup.Tells (lookup : Lookup) (entries : List α) : Prop where
  /-- Exactly the items that some entry declares belong to a name. -/
  declared : ∀ item, lookup.index.get? item ≠ none ↔ ∃ entry ∈ entries, item ∈ items entry
  /-- Each of them belongs to the name of the last entry that declares it. -/
  last : ∀ item owner, lookup.index.get? item = some owner ↔
    ∃ entry, IsLast (fun e => item ∈ items e) entries entry ∧ name entry = owner
  /-- What is noted about an item are the changes in the names that declare it, in order. -/
  noted : ∀ item, lookup.about item = changes item (declarers items name entries item)
  /-- Something is noted exactly if two names declare the item. -/
  ambiguous : ∀ item, lookup.about item ≠ [] ↔
    ∃ a ∈ entries, ∃ b ∈ entries, item ∈ items a ∧ item ∈ items b ∧ name a ≠ name b
  /-- What is noted last leads to the name that the item belongs to. -/
  kept : ∀ item ambiguity, (lookup.about item).getLast? = some ambiguity →
    lookup.index.get? item = some ambiguity.second

/-- The lookup of the declarations of entries tells about all of them. -/
lemma tells_ofDeclarations (entries : List α) :
    (Lookup.ofDeclarations
      (entries.flatMap fun e => (items e).map fun item => (item, name e))).Tells
        items name entries := by
  refine ⟨fun item => ?_, fun item owner => ?_, fun item => ?_, fun item => ?_, ?_⟩
  · rw [ne_eq, get?_declared_eq_none_iff]
    push Not
    rfl
  · exact get?_declared_eq_some_iff items name
  · exact about_declared items name entries item
  · rw [about_declared, changes_ne_nil_iff]
    simp only [mem_declarers]
    constructor
    · rintro ⟨_, ⟨a, ha, hitem, rfl⟩, _, ⟨b, hb, hitem', rfl⟩, hne⟩
      exact ⟨a, ha, b, hb, hitem, hitem', hne⟩
    · rintro ⟨a, ha, b, hb, hitem, hitem', hne⟩
      exact ⟨_, ⟨a, ha, hitem, rfl⟩, _, ⟨b, hb, hitem', rfl⟩, hne⟩
  · intro item ambiguity h
    rw [about_declared] at h
    rw [get?_declared_eq_getLast? items name, second_of_getLast?_changes h]

end Declared

/-- **Both lookups of a report tell about all declarations**: that of the values about the
variables, and that of the features about the components. -/
theorem lookups_tell :
    (∀ entries : List Report.VariableEntry,
      (ofValues entries).Tells Report.VariableEntry.values Report.VariableEntry.name entries) ∧
    ∀ components : List Report.ComponentEntry,
      (ofFeatures components).Tells Report.ComponentEntry.features Report.ComponentEntry.name
        components :=
  ⟨tells_ofDeclarations _ _, tells_ofDeclarations _ _⟩

/-- A name that gets an item back has lost it twice: both changes are noted. -/
example :
    (ofValues [⟨"Means", ["Cash", "Card", "Cash"], ⟨"billing", 7⟩⟩,
      ⟨"Currency", ["Cash"], ⟨"shop", 2⟩⟩, ⟨"Means", ["Cash"], ⟨"guide", 5⟩⟩]).about "Cash" =
      [⟨"Cash", "Means", "Currency"⟩, ⟨"Cash", "Currency", "Means"⟩] := by
  decide +kernel

end LivingDocs.Collation
