import LivingDocs.Json.Number

/-!
# Tokens of a JSON text

A text is cut into tokens one character at a time. What is neither punctuation nor a string is a
word, which goes as far as letters, digits, signs and points do; a word is a literal or a number.

Escapes in a string denote characters, or halves of a surrogate pair. Two halves that belong
together are one character; a string with a half left over has no text.

## Main definitions

* `LivingDocs.Json.Token` — a token.
* `LivingDocs.Json.Lexer` — how far a text has been cut into tokens.
* `LivingDocs.Json.tokens?` — the tokens of a text.
-/

set_option autoImplicit false

namespace LivingDocs.Json

/-- A token of a JSON text. A string is `none` if it names an unpaired surrogate. -/
inductive Token where
  | openArray
  | closeArray
  | openObject
  | closeObject
  | colon
  | comma
  | null
  | bool (b : Bool)
  | number (n : Number)
  | string (text : Option String)
  deriving DecidableEq, Repr

/-- The punctuation tokens. -/
def Token.ofPunctuation? : Char → Option Token
  | '[' => some openArray
  | ']' => some closeArray
  | '\x7b' => some openObject
  | '\x7d' => some closeObject
  | ':' => some colon
  | ',' => some comma
  | _ => none

/-- A word is a literal or a number. -/
def Token.ofWord? (word : List Char) : Option Token :=
  if word = ['n', 'u', 'l', 'l'] then some null
  else if word = ['t', 'r', 'u', 'e'] then some (bool true)
  else if word = ['f', 'a', 'l', 's', 'e'] then some (bool false)
  else (Number.parse? word).map number

/-- One step in a string: a character, or half of a surrogate pair. -/
inductive CodeUnit where
  | char (c : Char)
  | surrogate (code : Nat)
  deriving DecidableEq, Repr

/-- The step that four hexadecimal digits denote. -/
def CodeUnit.ofCode (code : Nat) : CodeUnit :=
  if 0xD800 ≤ code ∧ code ≤ 0xDFFF then surrogate code else char (Char.ofNat code)

/-- The text of a string, if every half of a surrogate pair has its other half. -/
def CodeUnit.text? : List CodeUnit → Option (List Char)
  | [] => some []
  | char c :: units => (text? units).map (c :: ·)
  | surrogate high :: surrogate low :: units =>
    if high < 0xDC00 ∧ 0xDC00 ≤ low then
      (text? units).map (Char.ofNat (0x10000 + (high - 0xD800) * 0x400 + (low - 0xDC00)) :: ·)
    else none
  | surrogate _ :: _ => none

/-- The value of a hexadecimal digit. -/
def hexValue? (c : Char) : Option Nat :=
  if '0' ≤ c ∧ c ≤ '9' then some (c.toNat - '0'.toNat)
  else if 'a' ≤ c ∧ c ≤ 'f' then some (c.toNat - 'a'.toNat + 10)
  else if 'A' ≤ c ∧ c ≤ 'F' then some (c.toNat - 'A'.toNat + 10)
  else none

/-- The character that a one-letter escape denotes. -/
def escaped? : Char → Option Char
  | '"' => some '"'
  | '\\' => some '\\'
  | '/' => some '/'
  | 'b' => some '\x08'
  | 'f' => some '\x0c'
  | 'n' => some '\n'
  | 'r' => some '\r'
  | 't' => some '\t'
  | _ => none

/-- Where in a token a text has been read to. What has been read of a token is kept backwards. -/
inductive Lexer.Mode where
  | between
  | word (letters : List Char)
  | text (units : List CodeUnit)
  | escape (units : List CodeUnit)
  | hex (units : List CodeUnit) (code digits : Nat)
  deriving DecidableEq, Repr

/-- **How far a text has been cut into tokens**: the tokens so far, the last one first, and the
place in the current one. -/
structure Lexer where
  emitted : List Token
  mode : Lexer.Mode
  deriving DecidableEq, Repr

namespace Lexer

/-- Whether a character may stand between tokens. -/
def isBlank (c : Char) : Bool := c = ' ' || c = '\n' || c = '\r' || c = '\t'

/-- Whether a character may stand in a word. -/
def isWordChar (c : Char) : Bool := c.isAlphanum || c = '+' || c = '-' || c = '.'

/-- Reads a character between two tokens. -/
def start (emitted : List Token) (c : Char) : Option Lexer :=
  if isBlank c then some ⟨emitted, .between⟩
  else if isWordChar c then some ⟨emitted, .word [c]⟩
  else if c = '"' then some ⟨emitted, .text []⟩
  else (Token.ofPunctuation? c).map fun token => ⟨token :: emitted, .between⟩

/-- Reads one more character. -/
def push (lexer : Lexer) (c : Char) : Option Lexer :=
  match lexer.mode with
  | .between => start lexer.emitted c
  | .word letters =>
    if isWordChar c then some ⟨lexer.emitted, .word (c :: letters)⟩
    else (Token.ofWord? letters.reverse).bind fun token => start (token :: lexer.emitted) c
  | .text units =>
    if c = '"' then
      let text := (CodeUnit.text? units.reverse).map String.ofList
      some ⟨.string text :: lexer.emitted, .between⟩
    else if c = '\\' then some ⟨lexer.emitted, .escape units⟩
    else if c.toNat < 0x20 then none
    else some ⟨lexer.emitted, .text (.char c :: units)⟩
  | .escape units =>
    if c = 'u' then some ⟨lexer.emitted, .hex units 0 0⟩
    else (escaped? c).map fun e => ⟨lexer.emitted, .text (.char e :: units)⟩
  | .hex units code digits =>
    (hexValue? c).map fun value =>
      let code := code * 16 + value
      if digits = 3 then ⟨lexer.emitted, .text (.ofCode code :: units)⟩
      else ⟨lexer.emitted, .hex units code (digits + 1)⟩

/-- The tokens, once there are no more characters. -/
def finish (lexer : Lexer) : Option (List Token) :=
  match lexer.mode with
  | .between => some lexer.emitted.reverse
  | .word letters =>
    (Token.ofWord? letters.reverse).map fun token => (token :: lexer.emitted).reverse
  | _ => none

end Lexer

/-- **The tokens of a text**, if it can be cut into tokens. -/
def tokens? (text : List Char) : Option (List Token) :=
  (text.foldlM Lexer.push ⟨[], .between⟩).bind Lexer.finish

end LivingDocs.Json
