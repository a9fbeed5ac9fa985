import LivingDocs.Glob

/-!
# Names that fit a pattern

What it means for a text to fit the tokens of a pattern is said by recursion on the tokens: a token
for a run of characters may leave any end of the text to the tokens after it. Trying all the ends
anew for each such token takes time exponential in their number. So a name is tested with verdicts
on all its ends at once, which are worked out from the last token to the first one.

## Main definitions

* `LivingDocs.Glob.fits` — whether a text as a whole fits a list of tokens.
* `LivingDocs.Glob.verdicts` — for each end of a text whether it fits.
* `LivingDocs.Glob.covers` — whether a name as a whole fits a pattern.

## Main results

* `LivingDocs.Glob.verdicts_eq` — the verdicts say which ends of the text fit.
* `LivingDocs.Glob.covers_eq_fits` — a pattern covers the names that fit its tokens.
-/

set_option autoImplicit false

namespace LivingDocs.Glob

/-! ## Texts that fit tokens -/

/-- All ends of a text, the whole text first. -/
def suffixes : List Char → List (List Char)
  | [] => [[]]
  | c :: text => (c :: text) :: suffixes text

/-- The ends of a text that stand directly after a separator. -/
def afterSeparators : List Char → List (List Char)
  | [] => []
  | c :: text => if c = '/' then text :: afterSeparators text else afterSeparators text

/-- The ends of a text that whole path components can be followed by: the text itself, each end
after a separator, and nothing at all. -/
def componentSuffixes (text : List Char) : List (List Char) :=
  text :: afterSeparators text ++ [[]]

/-- **Whether a text as a whole fits a list of tokens.** -/
def fits : List Token → List Char → Bool
  | [], text => text.isEmpty
  | .anySequence :: tokens, text => (suffixes text).any (fits tokens)
  | .anyComponents :: tokens, text => (componentSuffixes text).any (fits tokens)
  | _ :: _, [] => false
  | token :: tokens, c :: text => token.accepts c && fits tokens text

/-! ## Verdicts on all ends of a text

A row holds one verdict for each end of a text, the one on the whole text first. -/

/-- The row for a token for one character, from the row for the tokens after it. -/
def charRow (token : Token) : List Char → List Bool → List Bool
  | [], _ => [false]
  | c :: text, row => (token.accepts c && row.tail.headD false) :: charRow token text row.tail

/-- For each end of a text whether the row holds for it or for a later one. -/
def sequenceRow : List Char → List Bool → List Bool
  | [], row => [row.headD false]
  | _ :: text, row =>
    let later := sequenceRow text row.tail
    (row.headD false || later.headD false) :: later

/-- For each end of a text whether the row holds for what stands directly after one of its
separators. -/
def separatorRow : List Char → List Bool → List Bool
  | [], _ => [false]
  | c :: text, row =>
    let later := separatorRow text row.tail
    (c == '/' && row.tail.headD false || later.headD false) :: later

/-- For each end of a text whether the row holds for what whole path components can be followed by
there. -/
def componentRow (text : List Char) (row : List Bool) : List Bool :=
  List.zipWith (fun here after => here || (after || row.getLastD false)) row
    (separatorRow text row)

/-- **For each end of a text whether it fits the tokens.** -/
def verdicts : List Token → List Char → List Bool
  | [], text => (suffixes text).map List.isEmpty
  | .anySequence :: tokens, text => sequenceRow text (verdicts tokens text)
  | .anyComponents :: tokens, text => componentRow text (verdicts tokens text)
  | token :: tokens, text => charRow token text (verdicts tokens text)

/-- The first end of a text is the text. -/
theorem headD_map_suffixes (f : List Char → Bool) (text : List Char) (other : Bool) :
    ((suffixes text).map f).headD other = f text := by
  cases text <;> rfl

/-- The last end of a text is empty. -/
theorem getLastD_map_suffixes (f : List Char → Bool) (text : List Char) (other : Bool) :
    ((suffixes text).map f).getLastD other = f [] := by
  induction text generalizing other with
  | nil => rfl
  | cons c text ih =>
    rw [suffixes, List.map_cons, List.getLastD_cons]
    exact ih (f (c :: text))

/-- The row for a token for one character. -/
theorem charRow_map (token : Token) (f : List Char → Bool) (text : List Char) :
    charRow token text ((suffixes text).map f) =
      (suffixes text).map fun
        | [] => false
        | c :: rest => token.accepts c && f rest := by
  induction text with
  | nil => rfl
  | cons c text ih =>
    rw [suffixes, List.map_cons, charRow, List.tail_cons, headD_map_suffixes, ih, List.map_cons]

/-- The row for a token for any run of characters. -/
theorem sequenceRow_map (f : List Char → Bool) (text : List Char) :
    sequenceRow text ((suffixes text).map f) =
      (suffixes text).map fun rest => (suffixes rest).any f := by
  induction text with
  | nil => simp [sequenceRow, suffixes]
  | cons c text ih =>
    rw [suffixes, List.map_cons, sequenceRow, List.tail_cons, ih, headD_map_suffixes,
      List.map_cons]
    rfl

/-- The row for what stands directly after a separator. -/
theorem separatorRow_map (f : List Char → Bool) (text : List Char) :
    separatorRow text ((suffixes text).map f) =
      (suffixes text).map fun rest => (afterSeparators rest).any f := by
  induction text with
  | nil => rfl
  | cons c text ih =>
    rw [suffixes, List.map_cons, separatorRow, List.tail_cons, ih, headD_map_suffixes,
      headD_map_suffixes, List.map_cons, afterSeparators]
    by_cases h : c = '/' <;> simp [h]

/-- The row for a token for any run of path components. -/
theorem componentRow_map (f : List Char → Bool) (text : List Char) :
    componentRow text ((suffixes text).map f) =
      (suffixes text).map fun rest => (componentSuffixes rest).any f := by
  rw [componentRow, separatorRow_map, getLastD_map_suffixes, List.zipWith_map, List.zipWith_self]
  simp [componentSuffixes]

/-- **The verdicts say which ends of the text fit.**

**Proof sketch.** By induction on the tokens; each row is worked out from the one for the tokens
after it as `fits` says. -/
theorem verdicts_eq (tokens : List Token) (text : List Char) :
    verdicts tokens text = (suffixes text).map (fits tokens) := by
  induction tokens with
  | nil =>
    rw [verdicts]
    exact List.map_congr_left fun rest _ => by rw [fits]
  | cons token tokens ih =>
    have hchar (h₁ : token ≠ .anySequence) (h₂ : token ≠ .anyComponents) :
        charRow token text (verdicts tokens text) =
          (suffixes text).map (fits (token :: tokens)) := by
      rw [ih, charRow_map]
      refine List.map_congr_left fun rest _ => ?_
      cases rest <;> cases token <;> simp_all [fits]
    cases token with
    | anySequence =>
      rw [verdicts, ih, sequenceRow_map]
      exact List.map_congr_left fun rest _ => by rw [fits]
    | anyComponents =>
      rw [verdicts, ih, componentRow_map]
      exact List.map_congr_left fun rest _ => by rw [fits]
    | char c => exact hchar nofun nofun
    | anyChar => exact hchar nofun nofun
    | within ranges => exact hchar nofun nofun
    | except ranges => exact hchar nofun nofun

/-! ## Names -/

/-- **Whether a name as a whole fits the pattern.** -/
def covers (glob : Glob) (name : String) : Bool :=
  (verdicts glob.tokens name.toList).headD false

/-- **A pattern covers the names that fit its tokens.** -/
theorem covers_eq_fits (glob : Glob) (name : String) :
    glob.covers name = fits glob.tokens name.toList := by
  rw [covers, verdicts_eq, headD_map_suffixes]

/-- Whether a name fits one of several patterns. -/
def anyCovers (globs : List Glob) (name : String) : Bool :=
  globs.any fun glob => glob.covers name

end LivingDocs.Glob
