/-!
# Reading UTF-8 octets

Octets are read one at a time by a machine that remembers how far into a character it is. Where
the octets are no UTF-8, the longest stretch that could still have started a character stands for
one replacement character, and reading goes on with the octet that broke it off.

## Main definitions

* `LivingDocs.Text.Utf8.Decoder` — how far octets have been read.
* `LivingDocs.Text.Utf8.decodeLossy` — the text of any octet sequence.
* `LivingDocs.Text.Utf8.decode?` — the text of an octet sequence that is UTF-8 throughout.
* `LivingDocs.Text.Utf8.encode` — the octets of a text.

## Main results

* `LivingDocs.Text.Utf8.decode?_encode` — a text is read back from its octets.
-/

set_option autoImplicit false

namespace LivingDocs.Text.Utf8

/-- **A character that is being read**: the value of the octets so far, the number of octets still
owed (one at least) and the range in which the next of them has to lie. -/
structure Pending where
  value : Nat
  owed : Nat
  low : Nat
  high : Nat

/-- What the first octet of a character says. -/
inductive Lead where
  /-- A character of one octet. -/
  | single
  /-- The start of a longer character. -/
  | start (pending : Pending)
  /-- No character starts so. -/
  | invalid

/-- Reads the first octet of a character. The ranges for the octet after `E0`, `ED`, `F0` and `F4`
leave out overlong forms, surrogates and what lies above the last code point. -/
def lead (octet : Nat) : Lead :=
  if octet < 0x80 then .single
  else if octet < 0xC2 then .invalid
  else if octet < 0xE0 then .start ⟨octet - 0xC0, 1, 0x80, 0xBF⟩
  else if octet = 0xE0 then .start ⟨0, 2, 0xA0, 0xBF⟩
  else if octet = 0xED then .start ⟨0xD, 2, 0x80, 0x9F⟩
  else if octet < 0xF0 then .start ⟨octet - 0xE0, 2, 0x80, 0xBF⟩
  else if octet = 0xF0 then .start ⟨0, 3, 0x90, 0xBF⟩
  else if octet < 0xF4 then .start ⟨octet - 0xF0, 3, 0x80, 0xBF⟩
  else if octet = 0xF4 then .start ⟨4, 3, 0x80, 0x8F⟩
  else .invalid

/-- The character that stands for octets that are no UTF-8. -/
def replacement : Char := Char.ofNat 0xFFFD

/-- **How far the octets have been read**: the characters so far, the last one first, and the
character that is being read, if there is one. -/
structure Decoder where
  decoded : List Char
  pending : Option Pending

/-- Reads an octet between two characters. -/
def Decoder.start (decoded : List Char) (octet : Nat) : Decoder :=
  match lead octet with
  | .single => ⟨Char.ofNat octet :: decoded, none⟩
  | .start pending => ⟨decoded, some pending⟩
  | .invalid => ⟨replacement :: decoded, none⟩

/-- Reads one more octet. An octet that breaks off a character is read again from the start. -/
def Decoder.push (decoder : Decoder) (octet : UInt8) : Decoder :=
  match decoder.pending with
  | none => start decoder.decoded octet.toNat
  | some pending =>
    if pending.low ≤ octet.toNat ∧ octet.toNat ≤ pending.high then
      let value := pending.value * 64 + (octet.toNat - 0x80)
      if pending.owed ≤ 1 then ⟨Char.ofNat value :: decoder.decoded, none⟩
      else ⟨decoder.decoded, some ⟨value, pending.owed - 1, 0x80, 0xBF⟩⟩
    else start (replacement :: decoder.decoded) octet.toNat

/-- The characters read, once there are no more octets. -/
def Decoder.finish (decoder : Decoder) : List Char :=
  match decoder.pending with
  | none => decoder.decoded.reverse
  | some _ => (replacement :: decoder.decoded).reverse

/-- The text of an octet sequence, with one replacement character for each longest stretch that
starts a character and does not finish it. -/
def decodeLossy (octets : ByteArray) : String :=
  String.ofList (octets.data.toList.foldl Decoder.push ⟨[], none⟩).finish

/-- The text of an octet sequence, if it is UTF-8 throughout. -/
def decode? (octets : ByteArray) : Option String := String.fromUTF8? octets

/-- The octets of a text. -/
def encode (s : String) : ByteArray := s.toUTF8

/-- A text is read back from its octets. -/
theorem decode?_encode (s : String) : decode? (encode s) = some s := by
  simp [decode?, encode, String.fromUTF8?, String.fromUTF8, s.isValidUTF8]

end LivingDocs.Text.Utf8
