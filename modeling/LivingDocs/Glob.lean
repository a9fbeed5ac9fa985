import LivingDocs.Text.Search

/-!
# Name patterns

A pattern describes the names of files and directories. `?` stands for one character, `*` for any
run of characters, `**` for whole path components, and a class in brackets for one character in it
or, after `!`, not in it. All else stands for itself.

## Main definitions

* `LivingDocs.Glob.Error` — why a pattern is none, and where.
* `LivingDocs.Glob.Token`, `LivingDocs.Glob` — a pattern as a list of tokens.
* `LivingDocs.Glob.compile` — the pattern that a text describes.

## Main results

* `LivingDocs.Glob.length_lt_of_class?` — what follows a class is shorter than the text that the
  class starts, so reading a pattern ends.
-/

set_option autoImplicit false

namespace LivingDocs

namespace Glob

/-- What is wrong with a pattern. -/
inductive Fault where
  /-- Three or more stars in a row. -/
  | wildcards
  /-- Two stars next to something else than a path separator. -/
  | recursiveWildcards
  /-- A class that is empty or has no end. -/
  | invalidRange
  deriving DecidableEq, Repr

/-- The fault in words. -/
def Fault.message : Fault → String
  | wildcards => "wildcards are either regular `*` or recursive `**`"
  | recursiveWildcards => "recursive wildcards must form a single path component"
  | invalidRange => "invalid range pattern"

/-- **Why a text describes no pattern**, and the position of the fault, counted in characters from
zero. -/
structure Error where
  position : Nat
  fault : Fault
  deriving DecidableEq, Repr

/-- The error in words. -/
def Error.message (error : Error) : String :=
  s!"Pattern syntax error near position {error.position}: {error.fault.message}"

/-- A part of a class: the characters from `low` to `high`. -/
structure Range where
  low : Char
  high : Char
  deriving DecidableEq, Repr

/-- Whether the character lies in the range; none does if the range is inverted. -/
def Range.contains (range : Range) (c : Char) : Bool := range.low ≤ c && c ≤ range.high

/-- A part of a pattern. -/
inductive Token where
  /-- The character itself. -/
  | char (c : Char)
  /-- Any one character. -/
  | anyChar
  /-- Any run of characters. -/
  | anySequence
  /-- Any run of path components. -/
  | anyComponents
  /-- One character in the class. -/
  | within (ranges : List Range)
  /-- One character that is not in the class. -/
  | except (ranges : List Range)
  deriving DecidableEq, Repr

/-- Whether a token for one character stands for `c`. -/
def Token.accepts : Token → Char → Bool
  | char d, c => c == d
  | anyChar, _ => true
  | within ranges, c => ranges.any fun range => range.contains c
  | except ranges, c => !ranges.any fun range => range.contains c
  | anySequence, _ => false
  | anyComponents, _ => false

/-- The parts of a class: three characters with a minus sign between are a range, any other
character is a range of its own. -/
def classRanges : List Char → List Range
  | low :: '-' :: high :: rest => ⟨low, high⟩ :: classRanges rest
  | c :: rest => ⟨c, c⟩ :: classRanges rest
  | [] => []

/-- The class that starts after an opening bracket, and what follows its closing bracket. The
first character is part of the class even if it is a closing bracket. -/
def class? : List Char → Option (Token × List Char)
  | '!' :: first :: text =>
    (Text.splitFirst? [']'] text).map fun parts =>
      (.except (classRanges (first :: parts.1)), parts.2)
  | '!' :: [] => none
  | first :: text =>
    (Text.splitFirst? [']'] text).map fun parts =>
      (.within (classRanges (first :: parts.1)), parts.2)
  | [] => none

/-- What follows a class is shorter than the text that the class starts. -/
theorem length_lt_of_class? {text rest : List Char} {token : Token}
    (h : class? text = some (token, rest)) : rest.length < text.length := by
  have split {t : List Char} {parts : List Char × List Char}
      (h : Text.splitFirst? [']'] t = some parts) : parts.2.length ≤ t.length := by
    have h := Text.append_of_splitFirst? h
    rw [h]
    simp only [List.length_append]
    omega
  unfold class? at h
  split at h
  all_goals
    first
    | cases h
    | (obtain ⟨parts, hparts, h⟩ := Option.map_eq_some_iff.mp h
       obtain ⟨-, rfl⟩ := Prod.mk.inj h
       have := split hparts
       simp only [List.length_cons]
       omega)

/-- Puts a token in front of a pattern. -/
def cons (token : Token) (result : Except Error (List Token)) : Except Error (List Token) :=
  result.map (token :: ·)

/-- The pattern that a text describes, from a position on; `before` is the character before it. -/
def compileFrom (position : Nat) (before : Option Char) : List Char →
    Except Error (List Token)
  | [] => .ok []
  | '?' :: text => cons .anyChar (compileFrom (position + 1) (some '?') text)
  | '*' :: '*' :: '*' :: _ => .error ⟨position + 2, .wildcards⟩
  | '*' :: '*' :: text =>
    if before = none ∨ before = some '/' then
      match text with
      | [] => .ok [.anyComponents]
      | '/' :: text => cons .anyComponents (compileFrom (position + 3) (some '/') text)
      | _ => .error ⟨position + 2, .recursiveWildcards⟩
    else .error ⟨position - 1, .recursiveWildcards⟩
  | '*' :: text => cons .anySequence (compileFrom (position + 1) (some '*') text)
  | '[' :: text =>
    match _h : class? text with
    | some (token, rest) =>
      cons token (compileFrom (position + 1 + (text.length - rest.length)) (some ']') rest)
    | none => .error ⟨position, .invalidRange⟩
  | c :: text => cons (.char c) (compileFrom (position + 1) (some c) text)
termination_by text => text.length
decreasing_by
  all_goals simp only [List.length_cons]
  all_goals try omega
  exact Nat.lt_succ_of_lt (length_lt_of_class? _h)

end Glob

/-- **A pattern for names.** -/
structure Glob where
  tokens : List Glob.Token
  deriving DecidableEq, Repr

namespace Glob

/-- **The pattern that a text describes.** -/
def compile (text : String) : Except Error Glob := (compileFrom 0 none text.toList).map Glob.mk

end Glob

end LivingDocs
