import LivingDocs.Proofs.BlockShape
import LivingDocs.Proofs.Moving

/-!
# Blank lines keep blocks apart

No block goes on below a blank line, since all words of the standard grammar can be seen. So a text
with a blank line in it is read like the two texts above and below that line. Only a block that the
end of the upper text cuts short fails for another reason: the blank line stands where a part of it
has to stand.

## Main definitions

* `LivingDocs.Block.Grammar.Legible` — all words of a grammar can be seen.
* `LivingDocs.Block.Error.beforeBlank` — the reason of a failure when a blank line is added below.
* `LivingDocs.Corpus.KeptApart` — a text is read like the two texts above and below a line of it.

## Main results

* `LivingDocs.Block.steps_append_blank` — the run through two texts with a blank line between them.
* `LivingDocs.Corpus.keptApart_of_isAllBlank` — the corpus of two texts with a blank line between
  them.
-/

set_option autoImplicit false

namespace LivingDocs

/-! ## What a blank line does not hold -/

/-- A piece of a text has no other characters than the text. -/
lemma Text.mem_of_mem_segments {separator c : Char} {text piece : List Char}
    (hpiece : piece ∈ segments separator text) (hc : c ∈ piece) : c ∈ text := by
  induction text generalizing piece with
  | nil =>
    obtain rfl := List.mem_singleton.mp hpiece
    cases hc
  | cons d text ih =>
    rw [segments] at hpiece
    split at hpiece
    · rcases List.mem_cons.mp hpiece with rfl | hpiece
      · cases hc
      · exact List.mem_cons_of_mem d (ih hpiece hc)
    · cases hpieces : segments separator text with
      | nil => exact absurd hpieces (segments_ne_nil separator text)
      | cons first pieces =>
        rw [hpieces, consFirst] at hpiece
        rcases List.mem_cons.mp hpiece with rfl | hpiece
        · rcases List.mem_cons.mp hc with rfl | hc
          · exact List.mem_cons_self
          · exact List.mem_cons_of_mem d (ih (by simp [hpieces]) hc)
        · exact List.mem_cons_of_mem d (ih (by simp [hpieces, hpiece]) hc)

namespace Block

namespace Line

open Text

variable {keyword indent line : String}

/-- No text stands between quotes where there are no quotes. -/
lemma quoted?_eq_none (h : '"' ∉ line.toList) : quoted? line = none := by
  rw [quoted?, Option.map_eq_none_iff, List.findSome?_eq_none_iff]
  intro piece hpiece
  have hfirst : splitFirst? ['"'] piece = none := by
    rw [splitFirst?_eq_none_iff, Bool.eq_false_iff]
    intro hoccurs
    have hquote : '"' ∈ piece := (occurs_iff.mp hoccurs).subset List.mem_cons_self
    exact h (mem_of_mem_segments hpiece hquote)
  rw [betweenQuotes?, hfirst]

/-- A blank line is blank without its indent, too. -/
lemma isAllBlank_dropIndent (h : isAllBlank line = true) :
    isAllBlank (dropIndent indent line) = true := by
  unfold dropIndent
  split
  · next rest hrest =>
    rw [isAllBlank, dropStart?_eq_some_iff.mp hrest, List.all_append, Bool.and_eq_true] at h
    simpa [isAllBlank] using h.2
  · exact h

/-- **No example has its name on a blank line.** -/
lemma exampleName_blank (h : isAllBlank line = true) :
    exampleName keyword indent line = .error (.emptyName keyword) := by
  have hquote : '"' ∉ line.toList := by
    intro hmem
    exact absurd (List.all_eq_true.mp h _ hmem) (by decide)
  have hname : trimmed ((quoted? line).getD (dropIndent indent line)) = "" := by
    rw [quoted?_eq_none hquote, Option.getD_none, trimmed,
      trim_eq_nil (isAllBlank_dropIndent h)]
  rw [exampleName, List.count_eq_zero.mpr hquote, if_neg (by decide), hname]
  rfl

end Line

/-- **All words of a grammar can be seen.** -/
structure Grammar.Legible (grammar : Grammar) : Prop where
  blocks : ∀ entry ∈ grammar.blocks, Text.Visible entry.1
  desc : Text.Visible grammar.desc
  tags : Text.Visible grammar.tags
  features : Text.Visible grammar.features
  values : Text.Visible grammar.values
  bullet : Text.Visible grammar.bullet

/-- All words of a standard grammar can be seen, since a colon stands in the block keywords. -/
lemma Grammar.legible_standard (stem : String) : (Grammar.standard stem).Legible where
  blocks := by
    intro entry hentry
    simp only [Grammar.standard, List.mem_cons, List.not_mem_nil, or_false] at hentry
    rcases hentry with rfl | rfl | rfl | rfl | rfl | rfl | rfl <;>
      exact Text.Visible.append stem (by decide)
  desc := (by decide : Text.Visible "desc:")
  tags := (by decide : Text.Visible "tags:")
  features := (by decide : Text.Visible "features:")
  values := (by decide : Text.Visible "variables:")
  bullet := (by decide : Text.Visible "* ")

/-! ## Blocks above a blank line -/

/-- **Why a block cannot be read, once a blank line stands below it.** A block that the end of the
input cuts short finds the blank line instead; any other failure stays as it is. -/
def Error.beforeBlank (grammar : Grammar) (blank : String) : Error → Error
  | unexpectedEnd keyword .exampleName => emptyName keyword
  | unexpectedEnd _ .description => missingKeyword grammar.desc blank
  | unexpectedEnd _ .featureList => missingKeyword grammar.features blank
  | error => error

/-- **A result that does not depend on whether the input ends**: it is no failure for that
reason. -/
def Settled {α : Type} (result : Except Error α) : Prop :=
  ∀ keyword part, result ≠ .error (.unexpectedEnd keyword part)

section Settled

variable {α β : Type} {grammar : Grammar} {keyword line blank : String} {lines : List String}

/-- A success is settled. -/
lemma settled_ok (a : α) : Settled (.ok a) := by
  intro _ _ h
  cases h

/-- A change of the value leaves a result settled. -/
lemma Settled.map {result : Except Error α} (f : α → β) (h : Settled result) :
    Settled (result.map f) := by
  intro keyword part hmap
  exact h keyword part (map_eq_error_iff.mp hmap)

/-- A blank line below does not change the reason of a settled failure. -/
lemma Settled.beforeBlank_eq {error : Error} (h : Settled (.error error : Except Error α)) :
    error.beforeBlank grammar blank = error := by
  cases error with
  | unexpectedEnd keyword part => exact absurd rfl (h keyword part)
  | _ => rfl

/-- A blank line below does not change a result that is settled. -/
lemma Settled.mapError_eq {result : Except Error α} (h : Settled result) :
    result.mapError (Error.beforeBlank grammar blank) = result := by
  cases result with
  | ok a => rfl
  | error error => rw [Except.mapError, h.beforeBlank_eq]

/-- Cutting a line looks at that line only. -/
lemma settled_cut : Settled (Line.cut keyword line) := by
  intro _ _ h
  unfold Line.cut at h
  split at h
  · cases h
  · split at h <;> cases h

/-- The text after a keyword is settled by its line. -/
lemma settled_after : Settled (Line.after keyword line) := settled_cut.map _

/-- The name of an example is settled by its line. -/
lemma settled_exampleName {indent : String} : Settled (Line.exampleName keyword indent line) := by
  intro _ _ h
  unfold Line.exampleName at h
  split at h
  · cases h
  · dsimp only at h
    split at h <;> cases h

/-- A list of bullet lines may well end with the input. -/
lemma settled_bulletList {bullet : String} : Settled (Line.bulletList bullet keyword lines) := by
  rw [Line.bulletList_eq]
  split_ifs
  · intro _ _ h
    cases h
  · intro _ _ h
    cases h
  · exact settled_ok _

/-- The tags may be left out, at the end of the input, too. -/
lemma settled_readTags : Settled (readTags grammar lines) := by
  unfold readTags
  split
  · exact settled_ok _
  · split
    · exact (settled_after.map _).map _
    · exact settled_ok _

/-- The values may be left out, at the end of the input, too. -/
lemma settled_readVariables : Settled (readVariables grammar lines) := by
  unfold readVariables
  split
  · exact settled_ok _
  · split
    · exact settled_bulletList.map _
    · exact settled_ok _

/-- The description of a journey may be left out, at the end of the input, too. -/
lemma settled_readJourneyDesc : Settled (readJourneyDesc grammar lines) := by
  unfold readJourneyDesc
  split
  · exact settled_ok _
  · split
    · exact settled_after.map _
    · exact settled_ok _

/-- A blank line below changes a computation whose first part is settled as it changes the second
part. -/
lemma Settled.bind_eq_mapError {x : Except Error α} {f g : α → Except Error β} (hx : Settled x)
    (hfg : ∀ a, x = .ok a → f a = (g a).mapError (Error.beforeBlank grammar blank)) :
    (x >>= f) = (x >>= g).mapError (Error.beforeBlank grammar blank) := by
  cases x with
  | error error => exact congrArg Except.error hx.beforeBlank_eq.symm
  | ok a => exact hfg a rfl

end Settled

section Append

variable {grammar : Grammar} {keyword blank : String} {lines below : List String}
  (hg : grammar.Legible) (hblank : Text.isAllBlank blank = true)

include hg hblank

/-- A list of bullet lines ends at a blank line. -/
lemma bulletList_append_blank :
    Line.bulletList grammar.bullet keyword (lines ++ blank :: below) =
      Line.bulletList grammar.bullet keyword lines :=
  Line.bulletList_congr
    (Line.bulletLines_append_cons lines below (Line.mentions_blank hg.bullet hblank))

/-- There are no tags on a blank line. -/
lemma readTags_append_blank :
    readTags grammar (lines ++ blank :: below) = readTags grammar lines := by
  cases lines with
  | nil => simp [readTags, Line.mentions_blank hg.tags hblank]
  | cons line lines => rfl

/-- There are no values on a blank line. -/
lemma readVariables_append_blank :
    readVariables grammar (lines ++ blank :: below) = readVariables grammar lines := by
  cases lines with
  | nil => simp [readVariables, Line.mentions_blank hg.values hblank]
  | cons line lines =>
    rw [List.cons_append, readVariables, readVariables, bulletList_append_blank hg hblank]

/-- There is no description of a journey on a blank line. -/
lemma readJourneyDesc_append_blank :
    readJourneyDesc grammar (lines ++ blank :: below) = readJourneyDesc grammar lines := by
  cases lines with
  | nil => simp [readJourneyDesc, Line.mentions_blank hg.desc hblank]
  | cons line lines => rfl

/-- There are no features on a blank line, where a component needs them. -/
lemma readFeatures_append_blank :
    readFeatures grammar keyword (lines ++ blank :: below) =
      (readFeatures grammar keyword lines).mapError (Error.beforeBlank grammar blank) := by
  cases lines with
  | nil =>
    simp only [List.nil_append, readFeatures, Line.mentions_blank hg.features hblank]
    rfl
  | cons line lines =>
    rw [List.cons_append, readFeatures, readFeatures, bulletList_append_blank hg hblank]
    split
    · exact settled_bulletList.mapError_eq.symm
    · rfl

/-- An example above a blank line. -/
lemma readExample_append_blank (kind : ExampleKind) (number : Nat) (line : String) :
    readExample grammar keyword kind number line (lines ++ blank :: below) =
      (readExample grammar keyword kind number line lines).mapError
        (Error.beforeBlank grammar blank) := by
  refine settled_cut.bind_eq_mapError ?_
  rintro ⟨indent, category⟩ -
  cases lines with
  | nil =>
    simp only [List.nil_append, Line.exampleName_blank hblank]
    rfl
  | cons nameLine lines =>
    rw [List.cons_append]
    refine settled_exampleName.bind_eq_mapError ?_
    rintro name -
    rw [readVariables_append_blank hg hblank]
    refine settled_readVariables.bind_eq_mapError ?_
    rintro ⟨values, m⟩ hvalues
    have hm : m ≤ lines.length := (continued_of_readVariables hvalues).1
    simp only [List.drop_append_of_le_length hm, readTags_append_blank hg hblank]
    refine settled_readTags.bind_eq_mapError ?_
    rintro ⟨tags, n⟩ -
    rfl

/-- A component above a blank line. -/
lemma readComponent_append_blank (number : Nat) (line : String) :
    readComponent grammar keyword number line (lines ++ blank :: below) =
      (readComponent grammar keyword number line lines).mapError
        (Error.beforeBlank grammar blank) := by
  refine settled_after.bind_eq_mapError ?_
  rintro name -
  cases lines with
  | nil =>
    have hdesc := Line.after_of_not_mentions (Line.mentions_blank hg.desc hblank)
    simp only [List.nil_append, hdesc]
    rfl
  | cons descLine lines =>
    rw [List.cons_append]
    refine settled_after.bind_eq_mapError ?_
    rintro desc -
    rw [readTags_append_blank hg hblank]
    refine settled_readTags.bind_eq_mapError ?_
    rintro ⟨tags, n⟩ htags
    have hn : n ≤ lines.length := (continued_of_readTags htags).1
    simp only [List.drop_append_of_le_length hn, readFeatures_append_blank hg hblank]
    -- the features themselves may be what the end of the input cuts off
    cases readFeatures grammar keyword (lines.drop n) with
    | error error => rfl
    | ok features => rfl

/-- **The block at the start of the lines above a blank line.** -/
theorem read_append_blank (number : Nat) (line : String) :
    read grammar number (line :: (lines ++ blank :: below)) =
      (read grammar number (line :: lines)).mapError (Error.beforeBlank grammar blank) := by
  rw [read, read]
  split
  · rfl
  · exact readExample_append_blank hg hblank _ number line
  · exact readComponent_append_blank hg hblank number line
  · refine settled_after.bind_eq_mapError ?_
    rintro name -
    rw [bulletList_append_blank hg hblank]
    refine settled_bulletList.bind_eq_mapError ?_
    rintro values -
    rfl
  · refine settled_after.bind_eq_mapError ?_
    rintro name -
    rfl
  · refine settled_after.bind_eq_mapError ?_
    rintro name -
    rw [readJourneyDesc_append_blank hg hblank]
    refine settled_readJourneyDesc.bind_eq_mapError ?_
    rintro ⟨desc, n⟩ -
    rfl

/-- No block starts at a blank line. -/
lemma read_blank (number : Nat) :
    read grammar number (blank :: below) = .ok .nothing := by
  apply read_of_not_keyword
  rw [Grammar.match?, List.find?_eq_none]
  intro entry hentry
  simp [Line.mentions_blank (hg.blocks entry hentry) hblank]

end Append

/-! ## A run across a blank line -/

/-- The step, once a blank line stands below the lines. -/
def Step.beforeBlank (grammar : Grammar) (blank : String) (step : Step) : Step :=
  { step with result := step.result.mapError (Error.beforeBlank grammar blank) }

section Run

variable {grammar : Grammar} {blank : String}

/-- A step passes over as many lines when a blank line stands below them. -/
lemma Step.further_beforeBlank (step : Step) :
    (step.beforeBlank grammar blank).further = step.further := by
  obtain ⟨number, result⟩ := step
  cases result <;> rfl

/-- A step finds the same entity when a blank line stands below the lines. -/
lemma Step.entity?_beforeBlank (step : Step) :
    (step.beforeBlank grammar blank).entity? = step.entity? := by
  obtain ⟨number, result⟩ := step
  cases result <;> rfl

/-- A step meets a fault at the same line when a blank line stands below the lines. -/
lemma Step.fault?_beforeBlank (step : Step) :
    (step.beforeBlank grammar blank).fault? =
      step.fault?.map fun f => (f.1, f.2.beforeBlank grammar blank) := by
  obtain ⟨number, result⟩ := step
  cases result <;> rfl

variable (hg : grammar.Legible) (hblank : Text.isAllBlank blank = true)

include hg hblank

/-- **The run through two texts with a blank line between them** is the run through the upper one,
a step over the blank line, and the run through the lower one.

**Proof sketch.** Induction along the steps through the upper text. A block of it ends with its
lines or before, so what is left of the whole is what is left of the upper text, then the blank
line and the lower text. -/
theorem steps_append_blank (number : Nat) (above below : List String) :
    steps grammar number (above ++ blank :: below) =
      (steps grammar number above).map (Step.beforeBlank grammar blank) ++
        ⟨number + above.length, .ok .nothing⟩ ::
          steps grammar (number + above.length + 1) below := by
  fun_induction steps grammar number above with
  | case1 number =>
    rw [List.nil_append, steps, read_blank hg hblank]
    rfl
  | case2 number line lines step ih =>
    have hstep : (⟨number, read grammar number (line :: (lines ++ blank :: below))⟩ : Step) =
        step.beforeBlank grammar blank := by
      rw [read_append_blank hg hblank]
      rfl
    have hfurther : step.further ≤ lines.length := by
      unfold Step.further
      split
      · next reading hok =>
        have hle := consumed_le_of_read hok
        omega
      · exact Nat.zero_le _
    rw [List.cons_append, steps, hstep, Step.further_beforeBlank,
      List.drop_append_of_le_length hfurther, ih, List.map_cons, List.cons_append]
    have hend : number + 1 + step.further + (lines.drop step.further).length =
        number + (line :: lines).length := by
      rw [List.length_drop, List.length_cons]
      omega
    rw [hend]

/-- The entities of two texts with a blank line between them. -/
lemma entities_append_blank (number : Nat) (above below : List String) :
    entities grammar number (above ++ blank :: below) =
      entities grammar number above ++
        (entities grammar number below).map (Entity.moveDown (above.length + 1)) := by
  have habove : ((steps grammar number above).map (Step.beforeBlank grammar blank)).filterMap
      Step.entity? = entities grammar number above := by
    rw [List.filterMap_map]
    congr 1
    funext step
    exact Step.entity?_beforeBlank step
  rw [entities, steps_append_blank hg hblank, List.filterMap_append, habove,
    List.filterMap_cons_none rfl, Nat.add_assoc]
  exact congrArg _ (entities_add grammar number (above.length + 1) below)

/-- The malformed blocks of two texts with a blank line between them. -/
lemma faults_append_blank (number : Nat) (above below : List String) :
    faults grammar number (above ++ blank :: below) =
      ((faults grammar number above).map fun f => (f.1, f.2.beforeBlank grammar blank)) ++
        (faults grammar number below).map fun f => (f.1 + (above.length + 1), f.2) := by
  have habove : ((steps grammar number above).map (Step.beforeBlank grammar blank)).filterMap
      Step.fault? =
        (faults grammar number above).map fun f => (f.1, f.2.beforeBlank grammar blank) := by
    rw [List.filterMap_map, faults, List.map_filterMap]
    congr 1
    funext step
    exact Step.fault?_beforeBlank step
  rw [faults, steps_append_blank hg hblank, List.filterMap_append, habove,
    List.filterMap_cons_none rfl, Nat.add_assoc]
  exact congrArg _ (faults_add grammar number (above.length + 1) below)

end Run

end Block

namespace Corpus

open Block

/-! ## The corpora of two texts -/

/-- **A corpus has the entities of two others**, kind by kind. -/
structure IsUnion (whole upper lower : Corpus) : Prop where
  components : whole.components = upper.components ∪ lower.components
  examples : whole.examples = upper.examples ∪ lower.examples
  vars : whole.vars = upper.vars ∪ lower.vars
  crosscuts : whole.crosscuts = upper.crosscuts ∪ lower.crosscuts
  journeys : whole.journeys = upper.journeys ∪ lower.journeys

/-- A corpus that holds what two others hold has the entities of both. -/
lemma isUnion_of_holds {whole upper lower : Corpus}
    (h : ∀ x, whole.Holds x ↔ upper.Holds x ∨ lower.Holds x) : IsUnion whole upper lower where
  components := OrderedSet.ext_mem fun c => (h (.ofComponent c)).trans OrderedSet.mem_union.symm
  examples := OrderedSet.ext_mem fun e => (h (.ofExample e)).trans OrderedSet.mem_union.symm
  vars := OrderedSet.ext_mem fun v => (h (.ofVariable v)).trans OrderedSet.mem_union.symm
  crosscuts := OrderedSet.ext_mem fun c => (h (.ofCrosscut c)).trans OrderedSet.mem_union.symm
  journeys := OrderedSet.ext_mem fun j => (h (.ofJourney j)).trans OrderedSet.mem_union.symm

/-- **A line keeps the texts above and below it apart**: the corpus of the whole is made of the
corpora of the two texts, the one of the lower text moved down. -/
structure KeptApart (grammar : Grammar) (file : String) (above : List String) (blank : String)
    (below : List String) : Prop where
  /-- The entities are those of the two texts. -/
  entities : IsUnion (ofLines grammar file (above ++ [blank] ++ below))
    (ofLines grammar file above) ((ofLines grammar file below).moveDown (above.length + 1))
  /-- The messages about the upper text are those about its malformed blocks. -/
  upper : (ofLines grammar file above).errors = messages file (faults grammar 1 above)
  /-- The messages about the lower text are those about its malformed blocks. -/
  lower : (ofLines grammar file below).errors = messages file (faults grammar 1 below)
  /-- The messages about the whole are about the same blocks, in the same order. -/
  errors : (ofLines grammar file (above ++ [blank] ++ below)).errors =
    messages file ((faults grammar 1 above).map fun f => (f.1, f.2.beforeBlank grammar blank)) ++
      messages file ((faults grammar 1 below).map fun f => (f.1 + (above.length + 1), f.2))
  /-- Only for a block that the end of the upper text cuts short does the reason change. -/
  reasons : ∀ f ∈ faults grammar 1 above, f.2.beforeBlank grammar blank = f.2 ∨
    ∃ keyword part, f.2 = .unexpectedEnd keyword part

/-- Two texts with a blank line between them hold what each of them holds. -/
lemma holds_ofLines_append_blank {grammar : Grammar} (hg : grammar.Legible) {blank : String}
    (hblank : Text.isAllBlank blank = true) (file : String) (above below : List String)
    (x : Entity) :
    (ofLines grammar file (above ++ blank :: below)).Holds x ↔
      (ofLines grammar file above).Holds x ∨
        ((ofLines grammar file below).moveDown (above.length + 1)).Holds x := by
  rw [holds_moveDown_iff, holds_ofLines_iff, entities_append_blank hg hblank, holds_ofLines_iff]
  simp only [List.mem_append, List.mem_map, or_and_right, exists_or, holds_ofLines_iff]
  apply or_congr_right
  constructor
  · rintro ⟨_, ⟨entity, hmem, rfl⟩, rfl⟩
    exact ⟨entity.stamp file, ⟨entity, hmem, rfl⟩, Entity.stamp_moveDown _ entity file⟩
  · rintro ⟨_, ⟨entity, hmem, rfl⟩, rfl⟩
    exact ⟨_, ⟨entity, hmem, rfl⟩, (Entity.stamp_moveDown _ entity file).symm⟩

/-- **A blank line keeps the texts above and below it apart.** -/
theorem keptApart_of_isAllBlank (stem file : String) (above below : List String) (blank : String)
    (hblank : Text.isAllBlank blank = true) :
    KeptApart (.standard stem) file above blank below := by
  have hg := Grammar.legible_standard stem
  have hwhole : above ++ [blank] ++ below = above ++ blank :: below := by simp
  refine ⟨?_, errors_ofLines _ _ _, errors_ofLines _ _ _, ?_, ?_⟩
  · rw [hwhole]
    exact isUnion_of_holds (holds_ofLines_append_blank hg hblank file above below)
  · rw [hwhole, errors_ofLines, faults_append_blank hg hblank, messages, List.map_append]
    rfl
  · rintro ⟨number, error⟩ -
    cases error with
    | unexpectedEnd keyword part => exact .inr ⟨keyword, part, rfl⟩
    | _ => exact .inl rfl

/-- A component that the end of the upper text cuts short is kept apart from a crosscut below. -/
theorem keptApart_cut_component :
    Text.isAllBlank " \t" = true ∧
      readAt (.standard "aerial") ["# aerial:cross-cut Audit log", "# aerial:component Cart"] 1 =
        .error (.unexpectedEnd "aerial:component" .description) ∧
      KeptApart (.standard "aerial") "shop"
        ["# aerial:cross-cut Audit log", "# aerial:component Cart"] " \t"
        ["# aerial:cross-cut Audit log", "# aerial:variable Means"] :=
  ⟨by decide, by decide +kernel, keptApart_of_isAllBlank _ _ _ _ _ (by decide)⟩

end Corpus

end LivingDocs
