/-!
# Malformed blocks

What can be wrong with an annotation block, and the message that says so.

## Main definitions

* `LivingDocs.Block.Part` — a line that a block needs below its keyword line.
* `LivingDocs.Block.Error` — the reason why a block cannot be read.
* `LivingDocs.Block.Error.message` — the reason in words.
-/

set_option autoImplicit false

namespace LivingDocs.Block

/-- A line that a block needs below its keyword line. -/
inductive Part where
  | exampleName
  | description
  | featureList
  deriving DecidableEq, Repr

/-- The part in words. -/
def Part.phrase : Part → String
  | exampleName => "an example name"
  | description => "a description"
  | featureList => "a feature list"

/-- **Why a block cannot be read.** Each reason names the keyword that asked for what is missing. -/
inductive Error where
  /-- A line has to hold the keyword and does not. -/
  | missingKeyword (keyword text : String)
  /-- Nothing but blanks follows the keyword. -/
  | blankAfterKeyword (keyword : String)
  /-- The input ends before a part of the block. -/
  | unexpectedEnd (keyword : String) (expected : Part)
  /-- The name of an example is blank. -/
  | emptyName (keyword : String)
  /-- The line with the name of an example has an odd number of quotes. -/
  | unmatchedQuotes (keyword text : String)
  /-- Nothing but blanks follows a bullet. -/
  | emptyListItem (keyword : String)
  /-- No bullet line follows where a list has to stand. -/
  | emptyList (keyword : String)
  deriving DecidableEq, Repr

/-- The reason in words. -/
def Error.message : Error → String
  | missingKeyword keyword text =>
    s!"Expected keyword [{keyword}], but failed to find it in text [{text}]!"
  | blankAfterKeyword keyword => s!"Expected text after keyword [{keyword}], but it was blank!"
  | unexpectedEnd keyword expected =>
    s!"Expected {expected.phrase} after [{keyword}], but reached the end of input!"
  | emptyName keyword => s!"Empty example name after [{keyword}]!"
  | unmatchedQuotes keyword text =>
    s!"Unmatched quotes in example name after [{keyword}]: [{text}]!"
  | emptyListItem keyword => s!"Empty list item after [{keyword}]!"
  | emptyList keyword => s!"List after [{keyword}] has no items!"

end LivingDocs.Block
