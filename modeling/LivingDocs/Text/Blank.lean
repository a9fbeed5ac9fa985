/-!
# Blank characters

The characters that separate words without being part of them, and the removal of blank ends
from a text. The class is the Unicode property `White_Space`: 25 characters, among them the
no-break spaces, and not the zero-width space.

## Main definitions

* `LivingDocs.Text.isBlank` — membership in the class.
* `LivingDocs.Text.trim` — a character list without its blank ends.
* `LivingDocs.Text.trimmed` — the same for a string.
-/

set_option autoImplicit false

namespace LivingDocs.Text

/-- Whether `c` has the Unicode property `White_Space`. -/
def isBlank (c : Char) : Bool :=
  (0x09 ≤ c.toNat && c.toNat ≤ 0x0D) || c.toNat == 0x20 || c.toNat == 0x85 || c.toNat == 0xA0 ||
  c.toNat == 0x1680 || (0x2000 ≤ c.toNat && c.toNat ≤ 0x200A) || c.toNat == 0x2028 ||
  c.toNat == 0x2029 || c.toNat == 0x202F || c.toNat == 0x205F || c.toNat == 0x3000

/-- A character list without its leading blanks. -/
def trimStart (cs : List Char) : List Char := cs.dropWhile isBlank

/-- A character list without its trailing blanks. -/
def trimEnd (cs : List Char) : List Char := (cs.reverse.dropWhile isBlank).reverse

/-- A character list without its blank ends. -/
def trim (cs : List Char) : List Char := trimEnd (trimStart cs)

/-- A string without its blank ends. -/
def trimmed (s : String) : String := String.ofList (trim s.toList)

/-- Whether a string has no other characters than blanks. -/
def isAllBlank (s : String) : Bool := s.toList.all isBlank

end LivingDocs.Text
