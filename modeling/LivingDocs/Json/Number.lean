/-!
# Numbers in JSON

A number is kept as it is written: a sign, digits, and maybe a fraction and an exponent. Two
questions are asked of it: whether it is written as a natural number, and whether its value goes
beyond what a double can hold.

The second question is answered for the value `m · 10 ^ e`, where the significand `m` takes digits
as long as it fits in 64 bits, and where both factors are rounded to doubles before they are
multiplied.

## Main definitions

* `LivingDocs.Json.Number` — a number as it is written.
* `LivingDocs.Json.Number.parse?`, `LivingDocs.Json.Number.text` — reading and writing.
* `LivingDocs.Json.Number.toNat?`, `LivingDocs.Json.Number.ofNat` — natural numbers.
* `LivingDocs.Json.Number.overflows` — whether the value is beyond all doubles.
-/

set_option autoImplicit false

namespace LivingDocs.Json

/-- **A number as it is written.** All characters are decimal digits. -/
structure Number where
  negative : Bool
  /-- The digits before the point. -/
  whole : List Char
  /-- The digits after the point; none if there is no point. -/
  fraction : List Char
  /-- The sign and the digits of the exponent, with `true` for a minus sign. -/
  exponent : Option (Bool × List Char)
  deriving DecidableEq, Repr

namespace Number

/-- A number without a fraction and an exponent. -/
def ofNat (n : Nat) : Number := ⟨false, Nat.toDigits 10 n, [], none⟩

/-- The value of some digits. -/
def value (digits : List Char) : Nat := Nat.ofDigitChars 10 digits 0

/-- The natural number that is written without a sign, a fraction and an exponent. -/
def toNat? (number : Number) : Option Nat :=
  if number.negative || !number.fraction.isEmpty || number.exponent.isSome then none
  else some (value number.whole)

/-- A natural number is read back. -/
@[simp] theorem toNat?_ofNat (n : Nat) : (ofNat n).toNat? = some n := by
  simp [toNat?, ofNat, value, Nat.ofDigitChars_toDigits]

/-! ## Reading and writing -/

/-- The number in characters. -/
def text (number : Number) : List Char :=
  (if number.negative then ['-'] else []) ++ number.whole ++
  (if number.fraction.isEmpty then [] else '.' :: number.fraction) ++
  match number.exponent with
  | none => []
  | some (minus, digits) => 'e' :: (if minus then '-' :: digits else digits)

/-- The digits at the start of a text, of which there has to be one at least, and the rest. -/
def digits? (text : List Char) : Option (List Char × List Char) :=
  match text.takeWhile Char.isDigit with
  | [] => none
  | digits => some (digits, text.dropWhile Char.isDigit)

/-- The sign at the start of a text, if there is one, and the rest; `true` is a minus sign. -/
def sign : List Char → Bool × List Char
  | '-' :: text => (true, text)
  | '+' :: text => (false, text)
  | text => (false, text)

/-- The fraction at the start of a text: a point and digits, or nothing. -/
def fraction? : List Char → Option (List Char × List Char)
  | '.' :: text => digits? text
  | text => some ([], text)

/-- The exponent at the start of a text: a letter, a sign and digits, or nothing. -/
def exponent? : List Char → Option (Option (Bool × List Char) × List Char)
  | [] => some (none, [])
  | c :: text =>
    if c = 'e' ∨ c = 'E' then
      (digits? (sign text).2).map fun parts => (some ((sign text).1, parts.1), parts.2)
    else some (none, c :: text)

/-- Whether digits before the point start with a zero that should not be there. -/
def hasLeadingZero : List Char → Bool
  | '0' :: _ :: _ => true
  | _ => false

/-- Reads a number that a text without a minus sign consists of. -/
def parseUnsigned? (negative : Bool) (text : List Char) : Option Number := do
  let (whole, text) ← digits? text
  if hasLeadingZero whole then none
  else
    let (fraction, text) ← fraction? text
    match ← exponent? text with
    | (exponent, []) => some ⟨negative, whole, fraction, exponent⟩
    | _ => none

/-- Reads a number that a text consists of. -/
def parse? : List Char → Option Number
  | '-' :: text => parseUnsigned? true text
  | text => parseUnsigned? false text

/-! ## Size -/

/-- The greatest significand. -/
def maxSignificand : Nat := Nat.pow 2 64 - 1

/-- Appends digits to a significand as long as it stays within bounds, and gives back the digits
that found no place. -/
def absorb : Nat → List Char → Nat × List Char
  | significand, [] => (significand, [])
  | significand, c :: digits =>
    let next := significand * 10 + (c.toNat - '0'.toNat)
    if next ≤ maxSignificand then absorb next digits else (significand, c :: digits)

/-- The natural number with 53 significant bits that is nearest to `n`; a tie goes to the even
one. -/
def roundToDouble (n : Nat) : Nat :=
  let shift := n.log2 + 1 - 53
  if shift = 0 then n
  else
    let unit := Nat.pow 2 shift
    let quotient := n / unit
    let rest := n % unit
    let half := unit / 2
    if half < rest ∨ (rest = half ∧ quotient % 2 = 1) then (quotient + 1) * unit
    else quotient * unit

/-- The least natural number that rounds beyond the greatest double. -/
def doubleBound : Nat := Nat.pow 2 1024 - Nat.pow 2 970

/-- The greatest power of ten that is a finite double. -/
def maxPower : Int := 308

/-- Whether `significand · 10 ^ power` is beyond all doubles. -/
def isBeyondDoubles (significand : Nat) (power : Int) : Bool :=
  if significand = 0 ∨ power < 0 then false
  else if maxPower < power then true
  else doubleBound ≤ roundToDouble significand * roundToDouble (Nat.pow 10 power.toNat)

/-- **Whether the value is beyond all doubles.** -/
def overflows (number : Number) : Bool :=
  let (significand, dropped) := absorb 0 number.whole
  let (significand, unused) := absorb significand number.fraction
  let power : Int := (dropped.length : Int) - (number.fraction.length - unused.length : Nat)
  let written : Int :=
    match number.exponent with
    | none => 0
    | some (minus, digits) => if minus then - (value digits : Int) else value digits
  isBeyondDoubles significand (power + written)

end Number

end LivingDocs.Json
