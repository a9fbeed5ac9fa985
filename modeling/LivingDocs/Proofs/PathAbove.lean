import LivingDocs.Proofs.Destination

/-!
# The paths above a path

One step up leaves out the last part of a path. Of its spelling the shortest start remains that is
about the other parts, so no separators and no idle pieces are left at the end. The paths above a
path are those that one step after the other leads to, until there is no part left but the root.

## Main definitions

* `LivingDocs.Path.followedBy` — a path with one more piece behind a separator.
* `LivingDocs.Path.Tight` — a path that no shorter start of its spelling could replace.
* `LivingDocs.Path.StepsUp` — one path is one step above another one.
* `LivingDocs.Path.Climbs` — a path and those that steps up lead to, as far as there are any.

## Main results

* `LivingDocs.Path.parent?_eq_some_iff` — the path above a path is one step above it.
* `LivingDocs.Path.climbs_iff` — the chain of steps up from a path.
* `LivingDocs.Path.Climbs.length_eq` — how long that chain is.
-/

set_option autoImplicit false

namespace LivingDocs.Path

/-! ## One piece after the other -/

/-- The path with one more piece behind a separator. -/
def followedBy (front : Path) (piece : String) : Path := ⟨front.text ++ "/" ++ piece⟩

/-- Two paths with the same characters are the same. -/
lemma eq_of_toList_eq {a b : Path} (h : a.text.toList = b.text.toList) : a = b := by
  cases a
  cases b
  rw [Path.mk.injEq]
  exact String.toList_inj.mp h

@[simp] lemma toList_followedBy (front : Path) (piece : String) :
    (front.followedBy piece).text.toList = front.text.toList ++ '/' :: piece.toList := by
  simp [followedBy]

section Pieces

variable {front path : Path} {piece : String}

/-- **Every path is put together piece by piece**: it is a single piece, or a path that is followed
by one more. -/
theorem piecewise {motive : Path → Prop} (lone : ∀ piece, '/' ∉ piece.toList → motive ⟨piece⟩)
    (more : ∀ front piece, '/' ∉ piece.toList → motive front → motive (followedBy front piece))
    (path : Path) : motive path := by
  obtain ⟨text⟩ := path
  induction hn : text.length using Nat.strong_induction_on generalizing text with
  | _ n ih =>
    by_cases hslash : '/' ∈ text.toList
    · obtain ⟨front, piece, htext, hpiece⟩ := Text.exists_last_of_mem hslash
      have hlength : (String.ofList front).length < n := by
        rw [← hn, ← String.length_toList, ← String.length_toList, htext, String.toList_ofList,
          List.length_append, List.length_cons]
        omega
      have hpath : (⟨text⟩ : Path) = followedBy ⟨String.ofList front⟩ (String.ofList piece) :=
        eq_of_toList_eq (by simp [htext])
      rw [hpath]
      exact more _ _ (by rwa [String.toList_ofList]) (ih _ hlength _ rfl)
    · exact lone text hslash

lemma pieces_lone (h : '/' ∉ piece.toList) : (⟨piece⟩ : Path).pieces = [piece] := by
  rw [pieces, Text.segments_of_not_mem h]
  simp

lemma pieces_followedBy (h : '/' ∉ piece.toList) :
    (front.followedBy piece).pieces = front.pieces ++ [piece] := by
  rw [pieces, toList_followedBy, Text.segments_append, Text.segments_of_not_mem h, List.map_append,
    ← pieces]
  simp

/-- The parts of a path that more pieces follow; an empty one is the root then. -/
def frontParts (path : Path) : List Part := if path.text = "" then [.root] else path.parts

lemma parts_lone (h : '/' ∉ piece.toList) :
    (⟨piece⟩ : Path).parts = (firstPart? piece false).toList := by
  rw [parts, pieces_lone h]
  simp

/-- **The parts of a path with one more piece.** -/
lemma parts_followedBy (h : '/' ∉ piece.toList) :
    (front.followedBy piece).parts = front.frontParts ++ (innerPart? piece).toList := by
  cases hpieces : front.pieces with
  | nil => exact absurd hpieces front.pieces_ne_nil
  | cons first rest =>
    have hmore : (front.followedBy piece).pieces = first :: (rest ++ [piece]) := by
      rw [pieces_followedBy h, hpieces, List.cons_append]
    rw [parts_of_pieces_concat hmore, frontParts, parts, hpieces]
    cases rest with
    | nil =>
      -- only here does it matter whether more pieces follow
      rw [text_eq_of_pieces_singleton hpieces]
      by_cases hfirst : first = ""
      · simp [hfirst, firstPart?]
      · simp [hfirst, firstPart?]
    | cons next rest =>
      have htext : front.text ≠ "" := by
        intro hempty
        rw [pieces, hempty] at hpieces
        cases hpieces
      simp [htext]

lemma length_parts_le_frontParts (path : Path) : path.parts.length ≤ path.frontParts.length := by
  rw [frontParts]
  split_ifs with htext
  · rw [parts, pieces, htext]
    exact Nat.zero_le _
  · exact le_rfl

/-- A piece that is not empty adds a part at the start of a path. -/
lemma exists_firstPart? (h : piece ≠ "") :
    ∃ part, firstPart? piece false = some part ∧ part ≠ .root := by
  rw [firstPart?, if_neg h, innerPart?]
  split_ifs <;> simp_all

/-- A piece that adds a part to a path does not add the root. -/
lemma ne_root_of_innerPart? {part : Part} (h : innerPart? piece = some part) : part ≠ .root := by
  rintro rfl
  rw [innerPart?] at h
  split_ifs at h <;> cases h

/-- Different pieces add different parts at the start of a path. -/
lemma firstPart?_injective {piece' : String} (h : piece ≠ "")
    (heq : (firstPart? piece' false).toList = (firstPart? piece false).toList) :
    piece' = piece := by
  simp only [firstPart?, innerPart?] at heq
  split_ifs at heq <;> simp_all

/-- Different pieces that add a part add different ones. -/
lemma innerPart?_injective {piece' : String} (h : innerPart? piece ≠ none)
    (heq : (innerPart? piece').toList = (innerPart? piece).toList) : piece' = piece := by
  simp only [innerPart?] at h heq
  split_ifs at h heq <;> simp_all

/-- A piece that adds a part still does so when it goes on. -/
lemma innerPart?_ne_none_of_prefix {piece' : String} (hbegins : piece'.toList <+: piece.toList)
    (h : innerPart? piece' ≠ none) : innerPart? piece ≠ none := by
  have hnone (name : String) : innerPart? name = none ↔ name = "" ∨ name = "." := by
    rw [innerPart?]
    split_ifs <;> simp_all
  rw [Ne, hnone] at h ⊢
  rintro (rfl | rfl)
  · exact h (.inl (String.toList_inj.mp (List.prefix_nil.mp hbegins)))
  · rcases List.prefix_cons_iff.mp hbegins with hnil | ⟨rest, hcons, hrest⟩
    · exact h (.inl (String.toList_inj.mp hnil))
    · obtain rfl := List.prefix_nil.mp hrest
      exact h (.inr (String.toList_inj.mp hcons))

end Pieces

/-! ## Shorter spellings -/

section Spelling

variable {front path start : Path} {piece : String}

/-- A start of a path with one more piece ends in front of the separator, or in that piece. -/
lemma prefix_followedBy (h : start.text.toList <+: (front.followedBy piece).text.toList) :
    start.text.toList <+: front.text.toList ∨
      ∃ piece', piece'.toList <+: piece.toList ∧ start = front.followedBy piece' := by
  rw [toList_followedBy] at h
  rcases List.prefix_or_prefix_of_prefix h (List.prefix_append _ _) with hstart | ⟨more, hmore⟩
  · exact .inl hstart
  · rw [← hmore, List.prefix_append_right_inj, List.prefix_cons_iff] at h
    rcases h with rfl | ⟨rest, rfl, hrest⟩
    · rw [List.append_nil] at hmore
      exact .inl (hmore ▸ List.prefix_refl _)
    · exact .inr ⟨String.ofList rest, by rwa [String.toList_ofList],
        eq_of_toList_eq (by simp [hmore])⟩

/-- **A start of a path has no more parts.** -/
lemma length_parts_le_of_prefix (h : start.text.toList <+: path.text.toList) :
    start.parts.length ≤ path.parts.length := by
  induction path using piecewise generalizing start with
  | lone piece hpiece =>
    have hstart : '/' ∉ start.text.toList := fun hslash => hpiece (h.subset hslash)
    rw [parts_lone hpiece, parts_lone hstart]
    by_cases hempty : start.text = ""
    · rw [hempty]
      exact Nat.zero_le _
    · have hne : piece ≠ "" := by
        rintro rfl
        exact hempty (String.toList_inj.mp (List.prefix_nil.mp h))
      obtain ⟨part, hpart, -⟩ := exists_firstPart? hne
      rw [hpart]
      exact Option.length_toList_le
  | more front piece hpiece ih =>
    rw [parts_followedBy hpiece, List.length_append]
    rcases prefix_followedBy h with hfront | ⟨piece', hbegins, rfl⟩
    · have hle := ih hfront
      have hrooted := front.length_parts_le_frontParts
      omega
    · rw [parts_followedBy fun hslash => hpiece (hbegins.subset hslash), List.length_append]
      cases hpart : innerPart? piece' with
      | none => simp
      | some part =>
        have hne := innerPart?_ne_none_of_prefix hbegins (by simp [hpart])
        obtain ⟨part', hpart'⟩ := Option.ne_none_iff_exists'.mp hne
        simp [hpart']

/-- **A path that no shorter start of its spelling could replace**, since none has the same
parts. -/
def Tight (path : Path) : Prop :=
  ∀ start : Path, start.text.toList <+: path.text.toList → start.parts = path.parts → start = path

/-- A single piece that is not empty is tight. -/
lemma tight_lone (h : '/' ∉ piece.toList) (hne : piece ≠ "") : Tight ⟨piece⟩ := by
  intro start hbegins hparts
  have hstart : '/' ∉ start.text.toList := fun hslash => h (hbegins.subset hslash)
  rw [parts_lone h, parts_lone hstart] at hparts
  exact eq_of_toList_eq (congrArg String.toList (firstPart?_injective hne hparts))

/-- A path that ends with a piece that adds a part is tight.

**Proof sketch.** A start that ends in front of the last piece has too few parts, and one that ends
within it ends with another part. -/
lemma tight_followedBy (h : '/' ∉ piece.toList) (hne : innerPart? piece ≠ none) :
    Tight (front.followedBy piece) := by
  intro start hbegins hparts
  rcases prefix_followedBy hbegins with hfront | ⟨piece', hpiece', rfl⟩
  · obtain ⟨part, hpart⟩ := Option.ne_none_iff_exists'.mp hne
    have hlength := congrArg List.length hparts
    rw [parts_followedBy h, hpart, List.length_append, Option.toList_some,
      List.length_singleton] at hlength
    have hle := length_parts_le_of_prefix hfront
    have hrooted := front.length_parts_le_frontParts
    omega
  · rw [parts_followedBy h, parts_followedBy fun hslash => h (hpiece'.subset hslash),
      List.append_cancel_left_eq] at hparts
    rw [innerPart?_injective hne hparts]

end Spelling

/-! ## One step up -/

section Up

variable {front path above : Path} {piece : String}

/-- A path is its pieces, with separators between them. -/
lemma intercalate_pieces (path : Path) : "/".intercalate path.pieces = path.text := by
  rw [← String.toList_inj, String.toList_intercalate, pieces, List.map_map]
  have hself : String.toList ∘ String.ofList = id := by
    funext cs
    exact String.toList_ofList
  rw [hself, List.map_id]
  exact Text.intercalate_segments '/' path.text.toList

/-- Above a single piece there is the empty path, if anything. -/
lemma parents_lone (h : '/' ∉ piece.toList) :
    (⟨piece⟩ : Path).parents = if piece = "" then [] else [⟨""⟩] := by
  rw [parents, pieces_lone h, List.reverse_singleton, parentsOfReversed]

/-- Above a path with one more piece there is the path without it, and what is above that; a piece
that adds no part does not count. -/
lemma parents_followedBy (h : '/' ∉ piece.toList) : (front.followedBy piece).parents =
    if innerPart? piece = none then front.parents else front.trimmed :: front.parents := by
  rw [parents, pieces_followedBy h, List.reverse_concat, trimmed, parents]
  cases hpieces : front.pieces.reverse with
  | nil => exact absurd (List.reverse_eq_nil_iff.mp hpieces) front.pieces_ne_nil
  | cons before rest => simp only [parentsOfReversed, Option.isNone_iff_eq_none]

/-- A single piece has nothing at its end that adds no part; an empty one stands for the root. -/
lemma trimmed_lone (h : '/' ∉ piece.toList) :
    (⟨piece⟩ : Path).trimmed = if piece = "" then ⟨"/"⟩ else ⟨piece⟩ := by
  rw [trimmed, pieces_lone h, List.reverse_singleton, dropIdle]
  split_ifs with hempty
  · rw [hempty, ofReversed]
  · rw [ofReversed]
    · simp
    · simpa using hempty

/-- A piece at the end that adds no part is left out. -/
lemma trimmed_followedBy (h : '/' ∉ piece.toList) : (front.followedBy piece).trimmed =
    if innerPart? piece = none then front.trimmed else front.followedBy piece := by
  rw [trimmed, pieces_followedBy h, List.reverse_concat, trimmed]
  cases hpieces : front.pieces.reverse with
  | nil => exact absurd (List.reverse_eq_nil_iff.mp hpieces) front.pieces_ne_nil
  | cons before rest =>
    simp only [dropIdle, Option.isNone_iff_eq_none]
    split_ifs
    · rfl
    · rw [ofReversed, ← hpieces, ← List.reverse_concat, List.reverse_reverse,
        ← pieces_followedBy h, intercalate_pieces]
      simp

lemma frontParts_followedBy : (front.followedBy piece).frontParts =
    (front.followedBy piece).parts := by
  have hne : (front.followedBy piece).text ≠ "" := by
    rw [Ne, ← String.toList_inj, toList_followedBy]
    simp
  rw [frontParts, if_neg hne]

/-- **What is left out at the end of a path adds no part.** -/
lemma parts_trimmed (path : Path) : path.trimmed.parts = path.frontParts := by
  induction path using piecewise with
  | lone piece hpiece =>
    rw [trimmed_lone hpiece, frontParts]
    split_ifs
    · decide
    · rfl
  | more front piece hpiece ih =>
    rw [trimmed_followedBy hpiece, frontParts_followedBy]
    split_ifs with hidle
    · rw [ih, parts_followedBy hpiece, hidle, Option.toList_none, List.append_nil]
    · rfl

/-- What is left out at the end of a path makes no difference above it. -/
lemma parents_trimmed (path : Path) : path.trimmed.parents = path.parents := by
  induction path using piecewise with
  | lone piece hpiece =>
    rw [trimmed_lone hpiece]
    split_ifs with hempty
    · rw [hempty]
      decide
    · rfl
  | more front piece hpiece ih =>
    rw [trimmed_followedBy hpiece, parents_followedBy hpiece]
    split_ifs with hidle
    · exact ih
    · rw [parents_followedBy hpiece, if_neg hidle]

/-- Nothing is changed but at the end; only the root gets a separator that may follow. -/
lemma prefix_trimmed (path : Path) :
    path.trimmed.text.toList <+: path.text.toList ++ ['/'] := by
  induction path using piecewise with
  | lone piece hpiece =>
    rw [trimmed_lone hpiece]
    split_ifs with hempty
    · rw [hempty]
      exact List.prefix_refl _
    · exact List.prefix_append _ _
  | more front piece hpiece ih =>
    rw [trimmed_followedBy hpiece]
    split_ifs
    · refine ih.trans ?_
      rw [toList_followedBy]
      exact ⟨piece.toList ++ ['/'], by simp⟩
    · exact List.prefix_append _ _

/-- **Without what adds no part at its end, a path is tight.** -/
lemma tight_trimmed (path : Path) : path.trimmed.Tight := by
  induction path using piecewise with
  | lone piece hpiece =>
    rw [trimmed_lone hpiece]
    split_ifs with hempty
    · intro start hbegins hparts
      rcases List.prefix_cons_iff.mp hbegins with hnil | ⟨rest, hcons, hrest⟩
      · obtain rfl : start = ⟨""⟩ := eq_of_toList_eq hnil
        exact absurd hparts (by decide)
      · obtain rfl := List.prefix_nil.mp hrest
        exact eq_of_toList_eq hcons
    · exact tight_lone hpiece hempty
  | more front piece hpiece ih =>
    rw [trimmed_followedBy hpiece]
    split_ifs with hidle
    · exact ih
    · exact tight_followedBy hpiece hidle

/-- **One path is one step above another one**: it is about all parts but the last one, which is not
the root, and it is the shortest start of the spelling that is about these. -/
structure StepsUp (path above : Path) : Prop where
  parts : ∃ part, part ≠ .root ∧ path.parts = above.parts ++ [part]
  start : above.text.toList <+: path.text.toList
  tight : above.Tight

/-- There is one path at most that is one step above another one. -/
lemma StepsUp.unique {above' : Path} (h : StepsUp path above) (h' : StepsUp path above') :
    above = above' := by
  obtain ⟨part, -, hparts⟩ := h.parts
  obtain ⟨part', -, hparts'⟩ := h'.parts
  have heq : above.parts = above'.parts :=
    (List.append_inj' (hparts.symm.trans hparts') (by simp)).1
  rcases List.prefix_or_prefix_of_prefix h.start h'.start with hbegins | hbegins
  · exact h'.tight above hbegins heq
  · exact (h.tight above' hbegins heq.symm).symm

/-- The first of the paths above a path is one step above it. -/
lemma stepsUp_of_parent? (h : path.parent? = some above) : StepsUp path above := by
  rw [parent?] at h
  induction path using piecewise with
  | lone piece hpiece =>
    rw [parents_lone hpiece] at h
    split_ifs at h with hempty
    · cases h
    · obtain rfl : (⟨""⟩ : Path) = above := Option.some.inj h
      obtain ⟨part, hpart, hroot⟩ := exists_firstPart? hempty
      refine ⟨⟨part, hroot, ?_⟩, List.nil_prefix, fun start hbegins _ => ?_⟩
      · rw [parts_lone hpiece, hpart]
        rfl
      · exact eq_of_toList_eq (List.prefix_nil.mp hbegins)
  | more front piece hpiece ih =>
    rw [parents_followedBy hpiece] at h
    have hstart : front.text.toList ++ ['/'] <+: (front.followedBy piece).text.toList := by
      rw [toList_followedBy]
      exact ⟨piece.toList, by simp⟩
    split_ifs at h with hidle
    · have hfront := ih h
      obtain ⟨part, hroot, hparts⟩ := hfront.parts
      have hne : front.text ≠ "" := by
        intro hempty
        rw [parents, pieces, hempty] at h
        cases h
      refine ⟨⟨part, hroot, ?_⟩, ?_, hfront.tight⟩
      · rw [parts_followedBy hpiece, frontParts, if_neg hne, hparts, hidle]
        simp
      · exact hfront.start.trans ((List.prefix_append _ _).trans hstart)
    · obtain rfl : front.trimmed = above := Option.some.inj h
      obtain ⟨part, hpart⟩ := Option.ne_none_iff_exists'.mp hidle
      refine ⟨⟨part, ne_root_of_innerPart? hpart, ?_⟩, front.prefix_trimmed.trans hstart,
        front.tight_trimmed⟩
      rw [parts_followedBy hpiece, parts_trimmed, hpart]
      rfl

/-- A path with none above it has no part but the root. -/
lemma eq_root_of_parents_eq_nil (h : path.parents = []) : ∀ part ∈ path.parts, part = .root := by
  induction path using piecewise with
  | lone piece hpiece =>
    rw [parents_lone hpiece] at h
    split_ifs at h with hempty
    rw [parts_lone hpiece, hempty]
    exact nofun
  | more front piece hpiece ih =>
    rw [parents_followedBy hpiece] at h
    split_ifs at h with hidle
    rw [parts_followedBy hpiece, hidle, Option.toList_none, List.append_nil, frontParts]
    split_ifs
    · simp
    · exact ih h

/-- **The path above a path is the one that is one step above it.** -/
theorem parent?_eq_some_iff : path.parent? = some above ↔ StepsUp path above := by
  refine ⟨stepsUp_of_parent?, fun h => ?_⟩
  cases hparent : path.parent? with
  | none =>
    obtain ⟨part, hroot, hparts⟩ := h.parts
    have hall := eq_root_of_parents_eq_nil (List.head?_eq_none_iff.mp hparent)
    exact absurd (hall part (by simp [hparts])) hroot
  | some above' => rw [(stepsUp_of_parent? hparent).unique h]

/-- **Above the path above a path** there are the other paths above it. -/
lemma parents_eq_of_parent? (h : path.parent? = some above) :
    path.parents = above :: above.parents := by
  rw [parent?] at h
  induction path using piecewise with
  | lone piece hpiece =>
    rw [parents_lone hpiece] at h ⊢
    split_ifs at h ⊢ with hempty
    · cases h
    · obtain rfl : (⟨""⟩ : Path) = above := Option.some.inj h
      decide
  | more front piece hpiece ih =>
    rw [parents_followedBy hpiece] at h ⊢
    split_ifs at h ⊢ with hidle
    · exact ih h
    · obtain rfl : front.trimmed = above := Option.some.inj h
      rw [parents_trimmed]

end Up

/-! ## All steps up -/

section Climb

variable {path above : Path} {chain : List Path}

/-- **A path and those that steps up lead to**, one after the other, until there is no further step
up. -/
inductive Climbs : Path → List Path → Prop
  | top {path : Path} (htop : ∀ above, ¬ StepsUp path above) : Climbs path [path]
  | up {path above : Path} {chain : List Path} (hup : StepsUp path above)
      (hchain : Climbs above chain) : Climbs path (path :: chain)

/-- The chain of steps up from a path ends.

**Proof sketch.** The paths above a path are one more than those above its parent, so the climb goes
on with fewer of them. -/
lemma climbs_ancestors (path : Path) : Climbs path path.ancestors := by
  induction hn : path.parents.length generalizing path with
  | zero =>
    have hnil := List.length_eq_zero_iff.mp hn
    rw [ancestors, hnil]
    refine .top fun above hup => ?_
    have hparent := parent?_eq_some_iff.mpr hup
    rw [parent?, hnil] at hparent
    cases hparent
  | succ n ih =>
    cases hparents : path.parents with
    | nil =>
      rw [hparents] at hn
      cases hn
    | cons above rest =>
      have hparent : path.parent? = some above := by rw [parent?, hparents, List.head?_cons]
      have heq := parents_eq_of_parent? hparent
      rw [heq, List.length_cons] at hn
      rw [ancestors, heq]
      exact .up (stepsUp_of_parent? hparent) (ih above (Nat.succ.inj hn))

/-- There is no other chain of steps up from a path. -/
lemma Climbs.unique {chain' : List Path} (h : Climbs path chain) (h' : Climbs path chain') :
    chain = chain' := by
  induction h generalizing chain' with
  | top htop =>
    cases h' with
    | top => rfl
    | up hup => exact absurd hup (htop _)
  | up hup _ ih =>
    cases h' with
    | top htop => exact absurd hup (htop _)
    | up hup' hchain' =>
      obtain rfl := hup.unique hup'
      rw [ih hchain']

/-- **The chain of steps up from a path** is the path and all paths above it. -/
theorem climbs_iff : Climbs path chain ↔ chain = path.ancestors :=
  ⟨fun h => h.unique (climbs_ancestors path), fun h => h ▸ climbs_ancestors path⟩

/-- **There is one step up for each part but the root.** -/
lemma Climbs.length_eq (h : Climbs path chain) :
    chain.length = path.parts.countP (· ≠ .root) + 1 := by
  induction h with
  | @top path htop =>
    have hnone : path.parents = [] := by
      rw [← List.head?_eq_none_iff]
      by_contra hsome
      obtain ⟨above, habove⟩ := Option.ne_none_iff_exists'.mp hsome
      exact htop above (stepsUp_of_parent? habove)
    have hcount : path.parts.countP (· ≠ .root) = 0 := by
      rw [List.countP_eq_zero]
      intro part hpart
      simp [eq_root_of_parents_eq_nil hnone part hpart]
    rw [hcount]
    rfl
  | up hup _ ih =>
    obtain ⟨part, hroot, hparts⟩ := hup.parts
    rw [List.length_cons, ih, hparts, List.countP_append]
    simp [hroot]

end Climb

end LivingDocs.Path
