import LivingDocs.Json.Value

/-!
# Writing JSON

Values are written over several lines, each level indented by two spaces; an empty array or object
takes one line. In a string only the quote, the backslash and the control characters are escaped.

## Main definitions

* `LivingDocs.Json.quote` — a string in quotes.
* `LivingDocs.Json.layout` — a value at a level of indentation.
* `LivingDocs.Json.pretty` — the text of a value.
-/

set_option autoImplicit false

namespace LivingDocs.Json

/-- A hexadecimal digit, as a lower case letter from ten on. -/
def hexDigit (n : Nat) : Char := Nat.digitChar (n % 16)

/-- A character inside a string. -/
def escape (c : Char) : List Char :=
  if c = '"' then ['\\', '"']
  else if c = '\\' then ['\\', '\\']
  else if c = '\n' then ['\\', 'n']
  else if c = '\r' then ['\\', 'r']
  else if c = '\t' then ['\\', 't']
  else if c = '\x08' then ['\\', 'b']
  else if c = '\x0c' then ['\\', 'f']
  else if c.toNat < 0x20 then ['\\', 'u', '0', '0', hexDigit (c.toNat / 16), hexDigit c.toNat]
  else [c]

/-- A string in quotes. -/
def quote (text : List Char) : List Char := '"' :: (text.flatMap escape ++ ['"'])

/-- A string or a key; one that has no text is written as the empty string. -/
def quoteText (text : Option String) : List Char := quote (text.getD "").toList

/-- The start of a line at a level of indentation. -/
def newLine (level : Nat) : List Char := '\n' :: List.replicate (2 * level) ' '

mutual

/-- A value at a level of indentation. -/
def layout (level : Nat) : Json → List Char
  | null => ['n', 'u', 'l', 'l']
  | bool true => ['t', 'r', 'u', 'e']
  | bool false => ['f', 'a', 'l', 's', 'e']
  | number n => n.text
  | string text => quoteText text
  | array [] => ['[', ']']
  | array (item :: items) =>
    '[' :: (newLine (level + 1) ++ layout (level + 1) item ++ layoutItems (level + 1) items ++
      newLine level ++ [']'])
  | object [] => ['\x7b', '\x7d']
  | object ((key, value) :: members) =>
    '\x7b' :: (newLine (level + 1) ++ quoteText key ++ [':', ' '] ++ layout (level + 1) value ++
      layoutMembers (level + 1) members ++ newLine level ++ ['\x7d'])

/-- The items of an array after the first one. -/
def layoutItems (level : Nat) : List Json → List Char
  | [] => []
  | item :: items => ',' :: (newLine level ++ layout level item ++ layoutItems level items)

/-- The members of an object after the first one. -/
def layoutMembers (level : Nat) : List (Option String × Json) → List Char
  | [] => []
  | (key, value) :: members =>
    ',' :: (newLine level ++ quoteText key ++ [':', ' '] ++ layout level value ++
      layoutMembers level members)

end

/-- **The text of a value.** -/
def pretty (value : Json) : String := String.ofList (layout 0 value)

end LivingDocs.Json
