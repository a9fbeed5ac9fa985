import LivingDocs.Glob
import LivingDocs.Text.Blank

/-!
# Names worth looking at

Which files are scanned is decided by their names alone, and by patterns for names that an ignore
file lists, one on a line.

## Main definitions

* `LivingDocs.Selection.isWanted` — whether a file of that name is scanned.
* `LivingDocs.Selection.standardExclusions` — the patterns that exclude names everywhere.
* `LivingDocs.Selection.exclusion?` — the pattern on a line of an ignore file.
-/

set_option autoImplicit false

namespace LivingDocs.Selection

/-- The patterns that exclude names of files and directories everywhere. -/
def standardExclusions : List String :=
  [".*", "__*", "*.css", "*.scss", "*.less", "*.png", "*.jpg", "*.jpeg", "*.ico", "*.svg",
    "*.json", "*.yml", "*.xml", "*.lock", "*.jar"]

/-- A file with this in its name is always scanned. -/
def marker : String := "aerial"

/-- Whether a text stands somewhere in a name. -/
def mentions (text : String) (name : List Char) : Bool := Text.occurs text.toList name

/-- Whether a name looks like one of a test. Capital letters count as small ones; only the
letters from A to Z matter here, because no other character has one of `test` as its small
letter. -/
def isTest (name : String) : Bool := mentions "test" (name.toList.map Char.toLower)

/-- Whether a name has an extension: something stands behind its last dot. -/
def hasExtension (name : String) : Bool :=
  match Text.splitLast? ['.'] name.toList with
  | some (_, extension) => !extension.isEmpty
  | none => false

/-- **Whether a file of that name is scanned**: it carries the marker, or it is a test with an
extension, where either demand can be lifted. -/
def isWanted (name : String) (nonTests extensionless : Bool) : Bool :=
  mentions marker name.toList ||
    (nonTests || isTest name) && (extensionless || hasExtension name)

/-- What is left of a text without an end that it has. -/
def dropEnd? (ending text : List Char) : Option (List Char) :=
  (Text.dropStart? ending.reverse text.reverse).map List.reverse

/-- **The pattern on a line of an ignore file.** A comment starts with `#`, a blank line has no
pattern, and a directory is meant by its name, with or without a star behind it. -/
def exclusion? (line : String) : Option String :=
  let pattern := Text.trim (line.toList.takeWhile (· ≠ '#'))
  match dropEnd? ['/', '*'] pattern, dropEnd? ['/'] pattern with
  | some directory, _ => some (String.ofList (directory ++ ['*']))
  | none, some directory => some (String.ofList directory)
  | none, none => if pattern.isEmpty then none else some (String.ofList pattern)

/-- The patterns of an ignore file. -/
def exclusions (lines : List String) : List String := lines.filterMap exclusion?

end LivingDocs.Selection
