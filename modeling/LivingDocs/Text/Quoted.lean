import LivingDocs.Text.Printable

/-!
# Quoted text

A text between double quotes, in one line and with every character visible: double quotes,
backslashes and the common control characters are written with a backslash and a letter, all other
characters that do not show by themselves with their code point.

## Main definitions

* `LivingDocs.Text.escaped` — how a character is written between quotes.
* `LivingDocs.Text.quoted` — a text between quotes.
-/

set_option autoImplicit false

namespace LivingDocs.Text

/-- The letter that stands for a character after a backslash, if it has one. -/
def escapeLetter? (c : Char) : Option Char :=
  if c = Char.ofNat 0 then some '0'
  else if c = '\t' then some 't'
  else if c = '\r' then some 'r'
  else if c = '\n' then some 'n'
  else if c = '"' ∨ c = '\\' then some c
  else none

/-- A character by its code point in hexadecimal digits. -/
def codeEscape (c : Char) : List Char :=
  "\\u\x7b".toList ++ Nat.toDigits 16 c.toNat ++ ['\x7d']

/-- How a character is written between quotes. -/
def escaped (c : Char) : List Char :=
  match escapeLetter? c with
  | some letter => ['\\', letter]
  | none => if isPrintable c then [c] else codeEscape c

/-- **A text between quotes.** -/
def quoted (text : String) : String :=
  "\"" ++ String.ofList (text.toList.flatMap escaped) ++ "\""

end LivingDocs.Text
