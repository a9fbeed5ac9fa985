import LivingDocs.Block.Error
import LivingDocs.OrderedSet
import LivingDocs.Text.Blank
import LivingDocs.Text.Search

/-!
# Reading single lines

Keywords are looked for anywhere on a line, so that every comment marker and every indentation in
front of them is tolerated. What follows a keyword is cut at its rightmost occurrence; an item of
a list is cut at the leftmost bullet.

## Main definitions

* `LivingDocs.Block.Line.mentions` — whether a line holds a keyword.
* `LivingDocs.Block.Line.cut`, `LivingDocs.Block.Line.after` — a line around its keyword.
* `LivingDocs.Block.Line.inlineItems` — a list on one line.
* `LivingDocs.Block.Line.bulletItem?`, `LivingDocs.Block.Line.bulletList` — a list of bullet lines.
* `LivingDocs.Block.Line.quoted?`, `LivingDocs.Block.Line.exampleName` — the name of an example.
-/

set_option autoImplicit false

namespace LivingDocs.Block.Line

/-- Whether `keyword` stands anywhere on the line. -/
def mentions (keyword line : String) : Bool := Text.occurs keyword.toList line.toList

/-- The indent, which is all that stands before the rightmost `keyword`, and the text after it
without its blank ends. -/
def cut (keyword line : String) : Except Error (String × String) :=
  match Text.splitLast? keyword.toList line.toList with
  | none => .error (.missingKeyword keyword line)
  | some (indent, rest) =>
    match Text.trim rest with
    | [] => .error (.blankAfterKeyword keyword)
    | text => .ok (String.ofList indent, String.ofList text)

/-- The text after the rightmost `keyword`. -/
def after (keyword line : String) : Except Error String := (cut keyword line).map Prod.snd

/-- The items after `keyword`, between separators; blank items do not count. -/
def inlineItems (keyword : String) (separator : Char) (line : String) :
    Except Error (OrderedSet String) :=
  (after keyword line).map fun text =>
    let items := (Text.segments separator text.toList).map Text.trim
    OrderedSet.ofList ((items.filter fun item => !item.isEmpty).map String.ofList)

/-- The text after the leftmost `bullet`, or `none` for a line without one. -/
def bulletItem? (bullet line : String) : Option String :=
  (Text.splitFirst? bullet.toList line.toList).map fun parts =>
    String.ofList (Text.trim parts.2)

/-- The items of the bullet lines at the start of `lines`, in order. -/
def bulletRun (bullet keyword : String) : List String → Except Error (List String)
  | [] => .ok []
  | line :: lines =>
    match bulletItem? bullet line with
    | none => .ok []
    | some item =>
      if item = "" then .error (.emptyListItem keyword)
      else (bulletRun bullet keyword lines).map (item :: ·)

/-- The items of the bullet lines at the start of `lines`, of which there has to be one at least.
`keyword` is the keyword that asks for the list. -/
def bulletList (bullet keyword : String) (lines : List String) : Except Error (List String) :=
  match bulletRun bullet keyword lines with
  | .ok [] => .error (.emptyList keyword)
  | result => result

/-- The text between the first and the last quote of a character list that has two. -/
def betweenQuotes? (text : List Char) : Option (List Char) :=
  match Text.splitFirst? ['"'] text with
  | none => none
  | some (_, rest) => (Text.splitLast? ['"'] rest).map Prod.fst

/-- The text between the first and the last quote of the first piece between line feeds that has
two quotes. -/
def quoted? (text : String) : Option String :=
  ((Text.segments '\n' text.toList).findSome? betweenQuotes?).map String.ofList

/-- The line without `indent`, if it starts with it. -/
def dropIndent (indent line : String) : String :=
  match Text.dropStart? indent.toList line.toList with
  | some rest => String.ofList rest
  | none => line

/-- **The name of an example**: the quoted text of its line, or else the line without the indent of
the keyword line, in both cases without blank ends. Quotes have to pair up. -/
def exampleName (keyword indent line : String) : Except Error String :=
  if line.toList.count '"' % 2 = 1 then .error (.unmatchedQuotes keyword line)
  else
    let name := Text.trimmed ((quoted? line).getD (dropIndent indent line))
    if name = "" then .error (.emptyName keyword) else .ok name

end LivingDocs.Block.Line
