import LivingDocs.Json.Printer
import LivingDocs.Json.Reader
import Mathlib.Data.List.TakeWhile

/-!
# A JSON text gives its value back

The text of a value is cut into the tokens of that value, and these are put together into the
value again. Both hold one character and one token at a time: a text adds its tokens to those
before it, wherever it stands, and the tokens of a value put that value where it belongs, whatever
is still open around it.

This takes values that a text can hold: plain ones, whose strings have texts and whose numbers are
natural ones.

## Main definitions

* `LivingDocs.Json.Lexer.Spells`, `LivingDocs.Json.Lexer.Continues` — which tokens a text adds
  between two tokens, and which it adds wherever a token can end.
* `LivingDocs.Json.tokens` — the tokens of a value.
* `LivingDocs.Json.Plain` — values that a text can hold, nested up to some depth.

## Main results

* `LivingDocs.Json.Number.parse?_toDigits`, `LivingDocs.Json.Number.overflows_ofNat` — natural
  numbers are read back and are not too large for a double.
* `LivingDocs.Json.Lexer.spells_quote` — a string is read back, whatever characters it has.
* `LivingDocs.Json.ofTokens?_tokens` — a value is put together from its tokens.
* `LivingDocs.Json.Plain.parse?_pretty`, `LivingDocs.Json.Plain.parse?_pretty_line` — a plain value
  is read back from its text.
* `LivingDocs.Json.Plain.isReadable` — a plain value can be read in full.
-/

set_option autoImplicit false

namespace LivingDocs.Json

/-! ## Natural numbers -/

namespace Number
/-- The digits of a number other than zero do not start with a zero. -/
lemma head?_toDigits {n : Nat} (h : n ≠ 0) : (Nat.toDigits 10 n).head? ≠ some '0' := by
  induction n using Nat.strongRecOn with
  | _ n ih =>
    rcases Nat.lt_or_ge n 10 with hlt | hge
    · rw [Nat.toDigits_of_lt_base hlt]
      have hdigit : ∀ m < 10, m ≠ 0 → [Nat.digitChar m].head? ≠ some '0' := by decide
      exact hdigit n hlt h
    · rw [Nat.toDigits_of_base_le (by decide) hge, List.head?_append, Option.or_of_isSome]
      · exact ih (n / 10) (by omega) (by omega)
      · exact List.isSome_head?.mpr Nat.toDigits_ne_nil

/-- No natural number is written with a zero in front that should not be there. -/
lemma hasLeadingZero_toDigits (n : Nat) : hasLeadingZero (Nat.toDigits 10 n) = false := by
  rcases Nat.eq_zero_or_pos n with rfl | hpos
  · rfl
  · have hhead := head?_toDigits (Nat.ne_of_gt hpos)
    unfold hasLeadingZero
    split
    · next heq => simp [heq] at hhead
    · rfl

/-- A natural number is written as its digits. -/
lemma text_ofNat (n : Nat) : (ofNat n).text = Nat.toDigits 10 n := by
  simp [text, ofNat]

/-- **A natural number is read back from its digits.** -/
lemma parse?_toDigits (n : Nat) : parse? (Nat.toDigits 10 n) = some (ofNat n) := by
  have hdigit : ∀ c ∈ Nat.toDigits 10 n, c.isDigit := fun c hc =>
    Nat.isDigit_of_mem_toDigits (by decide) (by decide) hc
  have hdigits : digits? (Nat.toDigits 10 n) = some (Nat.toDigits 10 n, []) := by
    rw [digits?, List.takeWhile_eq_self_iff.mpr hdigit, List.dropWhile_eq_nil_iff.mpr hdigit]
    split
    · next hnil => exact absurd hnil Nat.toDigits_ne_nil
    · rfl
  have hparse : parseUnsigned? false (Nat.toDigits 10 n) = some (ofNat n) := by
    simp [parseUnsigned?, hdigits, hasLeadingZero_toDigits, fraction?, exponent?, ofNat]
  unfold parse?
  split
  · next text hminus =>
    rw [hminus] at hdigit
    exact absurd (hdigit '-' List.mem_cons_self) (by decide)
  · exact hparse

/-- The value of digits is not below what they are appended to. -/
lemma le_ofDigitChars (significand : Nat) (digits : List Char) :
    significand ≤ Nat.ofDigitChars 10 digits significand := by
  induction digits generalizing significand with
  | nil => exact Nat.le_refl _
  | cons c digits ih =>
    rw [Nat.ofDigitChars_cons]
    have := ih (10 * significand + (c.toNat - '0'.toNat))
    omega

/-- Digits whose value stays within bounds all find a place. -/
lemma absorb_eq {significand : Nat} {digits : List Char}
    (h : Nat.ofDigitChars 10 digits significand ≤ maxSignificand) :
    absorb significand digits = (Nat.ofDigitChars 10 digits significand, []) := by
  induction digits generalizing significand with
  | nil => rfl
  | cons c digits ih =>
    rw [Nat.ofDigitChars_cons, Nat.mul_comm] at h ⊢
    rw [absorb, if_pos (Nat.le_trans (le_ofDigitChars _ digits) h)]
    exact ih h

/-- Rounding to a double at most triples a number. -/
lemma roundToDouble_le (n : Nat) : roundToDouble n ≤ 3 * n := by
  simp only [roundToDouble]
  split
  · omega
  · next hshift =>
    have hn : n ≠ 0 := by
      rintro rfl
      exact hshift rfl
    have hunit : Nat.pow 2 (n.log2 + 1 - 53) ≤ 2 * n := calc
      2 ^ (n.log2 + 1 - 53) ≤ 2 ^ (n.log2 + 1) := Nat.pow_le_pow_right (by decide) (by omega)
      _ = 2 * 2 ^ n.log2 := Nat.pow_succ'
      _ ≤ 2 * n := Nat.mul_le_mul_left 2 (Nat.log2_self_le hn)
    have hquotient := Nat.div_mul_le_self n (Nat.pow 2 (n.log2 + 1 - 53))
    split
    · rw [Nat.add_mul, Nat.one_mul]
      omega
    · omega

/-- **A natural number that fits in 64 bits is not beyond all doubles.** -/
lemma overflows_ofNat {n : Nat} (h : n ≤ maxSignificand) : (ofNat n).overflows = false := by
  have hvalue : Nat.ofDigitChars 10 (Nat.toDigits 10 n) 0 = n :=
    Nat.ofDigitChars_toDigits (by decide) (by decide)
  have habsorb : absorb 0 (Nat.toDigits 10 n) = (n, []) := by
    rw [absorb_eq (by rwa [hvalue]), hvalue]
  have hround : roundToDouble n * roundToDouble (Nat.pow 10 0) < doubleBound := calc
    roundToDouble n * 1 ≤ 3 * maxSignificand := by
      rw [Nat.mul_one]
      exact Nat.le_trans (roundToDouble_le n) (Nat.mul_le_mul_left 3 h)
    _ < doubleBound := by decide +kernel
  simp only [overflows, ofNat, habsorb, absorb, List.length_nil, isBeyondDoubles]
  split
  · rfl
  · rw [if_neg (by decide)]
    exact decide_eq_false (Nat.not_le.mpr hround)

end Number

/-! ## Characters and tokens -/

namespace Lexer

/-- The lexer after some tokens, with nothing read of another one. -/
def after (tokens : List Token) : Lexer := ⟨tokens.reverse, .between⟩

@[simp] lemma finish_after (tokens : List Token) : (after tokens).finish = some tokens := by
  simp [finish, after]

/-- What cannot be part of a word is read as if all tokens so far were complete. -/
lemma push_of_finish {lexer : Lexer} {tokens : List Token} {c : Char}
    (h : lexer.finish = some tokens) (hc : isWordChar c = false) :
    lexer.push c = (after tokens).push c := by
  obtain ⟨emitted, mode⟩ := lexer
  cases mode with
  | between =>
    obtain rfl : emitted.reverse = tokens := by simpa [finish] using h
    simp [after]
  | word letters =>
    obtain ⟨token, htoken, rfl⟩ := Option.map_eq_some_iff.mp h
    simp [push, after, hc, htoken]
  | text units => cases h
  | escape units => cases h
  | hex units code digits => cases h

/-- A text is read to its end, where these are all tokens. -/
def Reads (lexer : Lexer) (text : List Char) (tokens : List Token) : Prop :=
  ∃ last, text.foldlM push lexer = some last ∧ last.finish = some tokens

/-- **A text spells tokens**: where nothing is read of another token, it adds these. -/
def Spells (text : List Char) (tokens : List Token) : Prop :=
  ∀ before, (after before).Reads text (before ++ tokens)

/-- **A text continues with tokens**: wherever the last token can end, it adds these. -/
def Continues (text : List Char) (tokens : List Token) : Prop :=
  ∀ (lexer : Lexer) before, lexer.finish = some before → lexer.Reads text (before ++ tokens)

/-- A text that continues after any token also does where nothing is read of one. -/
lemma Continues.spells {text : List Char} {tokens : List Token} (h : Continues text tokens) :
    Spells text tokens :=
  fun before => h _ before (finish_after before)

/-- A text that does not start with a character of a word cannot make a word longer. -/
lemma Spells.continues {c : Char} {text : List Char} {tokens : List Token}
    (h : Spells (c :: text) tokens) (hc : isWordChar c = false) : Continues (c :: text) tokens := by
  intro lexer before hfinish
  obtain ⟨last, hfold, hlast⟩ := h before
  refine ⟨last, ?_, hlast⟩
  rw [← hfold, List.foldlM_cons, List.foldlM_cons, push_of_finish hfinish hc]

lemma continues_nil : Continues [] [] := by
  intro lexer before h
  exact ⟨lexer, rfl, by rw [h, List.append_nil]⟩

/-- After a text that is read to its end comes one that continues. -/
lemma Reads.append {lexer : Lexer} {text rest : List Char} {tokens more : List Token}
    (h : lexer.Reads text tokens) (hrest : Continues rest more) :
    lexer.Reads (text ++ rest) (tokens ++ more) := by
  obtain ⟨middle, hfold, hfinish⟩ := h
  obtain ⟨last, hlast, htokens⟩ := hrest middle tokens hfinish
  refine ⟨last, ?_, htokens⟩
  rw [List.foldlM_append, hfold]
  exact hlast

/-- **What a text spells is followed by what another one continues with.** -/
lemma Spells.append {text rest : List Char} {tokens more : List Token}
    (h : Spells text tokens) (hrest : Continues rest more) :
    Spells (text ++ rest) (tokens ++ more) := by
  intro before
  rw [← List.append_assoc]
  exact (h before).append hrest

/-- What a text continues with is followed by what another one continues with. -/
lemma Continues.append {text rest : List Char} {tokens more : List Token}
    (h : Continues text tokens) (hrest : Continues rest more) :
    Continues (text ++ rest) (tokens ++ more) := by
  intro lexer before hlexer
  rw [← List.append_assoc]
  exact (h lexer before hlexer).append hrest

/-- A blank is no part of a word. -/
lemma isWordChar_of_isBlank {c : Char} (h : isBlank c = true) : isWordChar c = false := by
  simp only [isBlank, Bool.or_eq_true, decide_eq_true_eq] at h
  rcases h with ((rfl | rfl) | rfl) | rfl <;> decide

/-- A blank adds nothing. -/
lemma Spells.blank {text : List Char} {tokens : List Token} (h : Spells text tokens) (c : Char)
    (hc : isBlank c = true) : Continues (c :: text) tokens := by
  refine Spells.continues (fun before => ?_) (isWordChar_of_isBlank hc)
  obtain ⟨last, hfold, hlast⟩ := h before
  refine ⟨last, ?_, hlast⟩
  rw [List.foldlM_cons, ← hfold]
  simp [push, after, start, hc]

/-- The start of a line adds nothing. -/
lemma Spells.newLine {text : List Char} {tokens : List Token} (h : Spells text tokens)
    (level : Nat) : Continues (newLine level ++ text) tokens := by
  refine Spells.blank ?_ '\n' rfl
  change Spells (List.replicate (2 * level) ' ' ++ text) tokens
  generalize 2 * level = n
  induction n with
  | zero => exact h
  | succ n ih => exact (ih.blank ' ' rfl).spells

/-- Punctuation adds one token. -/
lemma Spells.punctuation {token : Token} {text : List Char} {tokens : List Token}
    (h : Spells text tokens) (c : Char) (hc : Token.ofPunctuation? c = some token) :
    Continues (c :: text) (token :: tokens) := by
  have hpush : isWordChar c = false ∧
      ∀ emitted, start emitted c = some ⟨token :: emitted, .between⟩ := by
    unfold Token.ofPunctuation? at hc
    split at hc <;> cases hc <;> exact ⟨rfl, fun _ => rfl⟩
  refine Spells.continues (fun before => ?_) hpush.1
  obtain ⟨last, hfold, hlast⟩ := h (before ++ [token])
  refine ⟨last, ?_, by rw [hlast, List.append_assoc]; rfl⟩
  rw [List.foldlM_cons, ← hfold]
  simp [push, after, hpush.2]

/-- Letters of a word are kept until the word ends. -/
lemma foldlM_push_word (emitted : List Token) {word : List Char}
    (h : ∀ c ∈ word, isWordChar c = true) (letters : List Char) :
    word.foldlM push ⟨emitted, .word letters⟩ =
      some ⟨emitted, .word (word.reverse ++ letters)⟩ := by
  induction word generalizing letters with
  | nil => rfl
  | cons c word ih =>
    have hc := h c List.mem_cons_self
    have hrest := ih (fun d hd => h d (List.mem_cons_of_mem c hd)) (c :: letters)
    rw [List.foldlM_cons, List.reverse_cons, List.append_assoc, List.singleton_append, ← hrest]
    simp [push, hc]

/-- A word spells a literal or a number. -/
lemma spells_word (word : List Char) {token : Token} (h : ∀ c ∈ word, isWordChar c = true)
    (hword : Token.ofWord? word = some token) (hne : word ≠ []) : Spells word [token] := by
  intro before
  cases word with
  | nil => exact absurd rfl hne
  | cons c word =>
    have hc := h c List.mem_cons_self
    have hblank : isBlank c = false := by
      by_contra hblank
      rw [isWordChar_of_isBlank (by simpa using hblank)] at hc
      cases hc
    refine ⟨⟨before.reverse, .word (word.reverse ++ [c])⟩, ?_, ?_⟩
    · rw [List.foldlM_cons, ← foldlM_push_word _ fun d hd => h d (List.mem_cons_of_mem c hd)]
      simp [push, after, start, hc, hblank]
    · simp [finish, hword]

/-! ## Strings -/

/-- A hexadecimal digit has the value it was written for. -/
lemma hexValue?_hexDigit {n : Nat} : hexValue? (hexDigit n) = some (n % 16) := by
  have hdigit : ∀ m < 16, hexValue? (Nat.digitChar m) = some m := by decide
  exact hdigit (n % 16) (Nat.mod_lt n (by decide))

/-- **An escaped character is read back.** -/
lemma foldlM_push_escape (emitted : List Token) (units : List CodeUnit) (c : Char) :
    (escape c).foldlM push ⟨emitted, .text units⟩ = some ⟨emitted, .text (.char c :: units)⟩ := by
  unfold escape
  split_ifs with hquote hslash hlf hcr htab hbs hff hcontrol
  · rw [hquote]; rfl
  · rw [hslash]; rfl
  · rw [hlf]; rfl
  · rw [hcr]; rfl
  · rw [htab]; rfl
  · rw [hbs]; rfl
  · rw [hff]; rfl
  · -- the four digits are those of the character's own number
    have hcode : (c.toNat / 16 % 16) * 16 + c.toNat % 16 = c.toNat := by omega
    have hunit : CodeUnit.ofCode c.toNat = .char c := by
      rw [CodeUnit.ofCode, if_neg (by omega), Char.ofNat_toNat]
    have hzero : hexValue? '0' = some 0 := rfl
    simp [push, hzero, hexValue?_hexDigit, hcode, hunit]
  · simp [push, hquote, hslash, hcontrol]

/-- Escaped characters are read back one after the other. -/
lemma foldlM_push_flatMap_escape (emitted : List Token) (units : List CodeUnit)
    (text : List Char) : (text.flatMap escape).foldlM push ⟨emitted, .text units⟩ =
      some ⟨emitted, .text ((text.map .char).reverse ++ units)⟩ := by
  induction text generalizing units with
  | nil => rfl
  | cons c text ih =>
    rw [List.flatMap_cons, List.foldlM_append, foldlM_push_escape]
    simp [ih]

/-- Characters that are no halves of a pair are the text. -/
lemma text?_map_char (text : List Char) : CodeUnit.text? (text.map .char) = some text := by
  induction text with
  | nil => rfl
  | cons c text ih => simp [CodeUnit.text?, ih]

/-- **A quoted string spells its text**, whatever characters it has. -/
lemma spells_quote (s : String) : Spells (quote s.toList) [.string (some s)] := by
  intro before
  refine ⟨after (before ++ [.string (some s)]), ?_, finish_after _⟩
  have hopen : (after before).push '"' = some ⟨before.reverse, .text []⟩ := rfl
  rw [quote, List.foldlM_cons, hopen, Option.bind_eq_bind, Option.bind_some, List.foldlM_append,
    foldlM_push_flatMap_escape]
  simp [push, after, text?_map_char]

end Lexer

/-! ## Tokens and values -/

mutual

/-- The tokens that spell a value. -/
def tokens : Json → List Token
  | null => [.null]
  | bool b => [.bool b]
  | number n => [.number n]
  | string text => [.string text]
  | array [] => [.openArray, .closeArray]
  | array (item :: items) => .openArray :: (tokens item ++ tokensOfItems items ++ [.closeArray])
  | object [] => [.openObject, .closeObject]
  | object ((key, value) :: members) =>
    .openObject :: .string key :: .colon ::
      (tokens value ++ tokensOfMembers members ++ [.closeObject])

/-- The tokens of the items of an array after the first one. -/
def tokensOfItems : List Json → List Token
  | [] => []
  | item :: items => .comma :: (tokens item ++ tokensOfItems items)

/-- The tokens of the members of an object after the first one. -/
def tokensOfMembers : List (Option String × Json) → List Token
  | [] => []
  | (key, value) :: members =>
    .comma :: .string key :: .colon :: (tokens value ++ tokensOfMembers members)

end

namespace Reader

mutual

/-- Where a value may stand, its tokens are read as that value. -/
lemma foldlM_push_tokens (frames : List Frame) {expects : Expectation}
    (hexpects : expects = .value ∨ expects = .valueOrEnd) :
    ∀ value : Json, value.tokens.foldlM push ⟨frames, expects, .null⟩ = some (accept frames value)
  | .null => by rcases hexpects with rfl | rfl <;> rfl
  | .bool b => by rcases hexpects with rfl | rfl <;> rfl
  | .number n => by rcases hexpects with rfl | rfl <;> rfl
  | .string text => by rcases hexpects with rfl | rfl <;> rfl
  | .array [] => by rcases hexpects with rfl | rfl <;> rfl
  | .array (item :: items) => by
    have hopen : push ⟨frames, expects, .null⟩ .openArray =
        some ⟨.array [] :: frames, .valueOrEnd, .null⟩ := by
      rcases hexpects with rfl | rfl <;> rfl
    have hclose : push ⟨.array (items.reverse ++ [item]) :: frames, .commaOrEnd, .null⟩
        .closeArray = some (accept frames (.array (item :: items))) := by
      simp [push, close]
    have hitem := foldlM_push_tokens (.array [] :: frames) (.inr rfl) item
    have hitems := foldlM_push_tokensOfItems frames [item] items
    rw [accept] at hitem
    simp [tokens, hopen, hitem, hitems, hclose]
  | .object [] => by rcases hexpects with rfl | rfl <;> rfl
  | .object ((key, value) :: members) => by
    have hopen : push ⟨frames, expects, .null⟩ .openObject =
        some ⟨.object [] none :: frames, .keyOrEnd, .null⟩ := by
      rcases hexpects with rfl | rfl <;> rfl
    have hkey : push ⟨.object [] none :: frames, .keyOrEnd, .null⟩ (.string key) =
        some ⟨.object [] key :: frames, .colon, .null⟩ := rfl
    have hcolon : push ⟨.object [] key :: frames, .colon, .null⟩ .colon =
        some ⟨.object [] key :: frames, .value, .null⟩ := rfl
    have hclose : push ⟨.object (members.reverse ++ [(key, value)]) none :: frames, .commaOrEnd,
        .null⟩ .closeObject = some (accept frames (.object ((key, value) :: members))) := by
      simp [push, close]
    have hvalue := foldlM_push_tokens (.object [] key :: frames) (.inl rfl) value
    have hmembers := foldlM_push_tokensOfMembers frames [(key, value)] members
    rw [accept] at hvalue
    simp [tokens, hopen, hkey, hcolon, hvalue, hmembers, hclose]

/-- After an item of an array further items are read. -/
lemma foldlM_push_tokensOfItems (frames : List Frame) (done : List Json) :
    ∀ items : List Json,
      (tokensOfItems items).foldlM push ⟨.array done :: frames, .commaOrEnd, .null⟩ =
        some ⟨.array (items.reverse ++ done) :: frames, .commaOrEnd, .null⟩
  | [] => rfl
  | item :: items => by
    have hitem := foldlM_push_tokens (.array done :: frames) (.inl rfl) item
    have hitems := foldlM_push_tokensOfItems frames (item :: done) items
    simp [tokensOfItems, push, pushComma, hitem, accept, hitems]

/-- After a member of an object further members are read. -/
lemma foldlM_push_tokensOfMembers (frames : List Frame)
    (done : List (Option String × Json)) :
    ∀ members : List (Option String × Json),
      (tokensOfMembers members).foldlM push ⟨.object done none :: frames, .commaOrEnd, .null⟩ =
        some ⟨.object (members.reverse ++ done) none :: frames, .commaOrEnd, .null⟩
  | [] => rfl
  | (key, value) :: members => by
    have hvalue := foldlM_push_tokens (.object done key :: frames) (.inl rfl) value
    have hmembers := foldlM_push_tokensOfMembers frames ((key, value) :: done) members
    simp [tokensOfMembers, push, pushComma, pushKey, hvalue, accept, hmembers]

end

end Reader

/-- **A value is put together from its tokens.** -/
theorem ofTokens?_tokens (value : Json) : ofTokens? value.tokens = some value := by
  rw [ofTokens?, Reader.start, Reader.foldlM_push_tokens [] (.inl rfl) value]
  rfl

/-! ## Texts of plain values -/

/-- **A plain value**, nested at most `depth` deep: every string and every key has a text, and
every number is a natural one that fits in 64 bits. -/
inductive Plain : Nat → Json → Prop
  | null {depth : Nat} : Plain depth null
  | bool {depth : Nat} {b : Bool} : Plain depth (bool b)
  | ofNat {depth n : Nat} (h : n ≤ Number.maxSignificand) : Plain depth (Json.ofNat n)
  | ofString {depth : Nat} {s : String} : Plain depth (Json.ofString s)
  | array {depth : Nat} {items : List Json} (h : ∀ item ∈ items, Plain depth item) :
      Plain (depth + 1) (array items)
  | ofMembers {depth : Nat} {members : List (String × Json)} (h : ∀ m ∈ members, Plain depth m.2) :
      Plain (depth + 1) (Json.ofMembers members)

open Lexer

/-- A digit may stand in a word. -/
lemma isWordChar_of_isDigit {c : Char} (h : c.isDigit = true) : isWordChar c = true := by
  simp [isWordChar, Char.isAlphanum, h]

/-- Digits spell their number: no literal starts with a digit. -/
lemma spells_toDigits (n : Nat) : Spells (Nat.toDigits 10 n) [.number (.ofNat n)] := by
  have hdigit : ∀ c ∈ Nat.toDigits 10 n, c.isDigit = true := fun c hc =>
    Nat.isDigit_of_mem_toDigits (by decide) (by decide) hc
  have hliteral : ∀ c word, c.isDigit = false → Nat.toDigits 10 n ≠ c :: word := by
    intro c word hc heq
    have := hdigit c (heq ▸ List.mem_cons_self)
    simp [hc] at this
  refine spells_word _ (fun c hc => isWordChar_of_isDigit (hdigit c hc)) ?_ Nat.toDigits_ne_nil
  rw [Token.ofWord?, if_neg (hliteral _ _ rfl), if_neg (hliteral _ _ rfl),
    if_neg (hliteral _ _ rfl), Number.parse?_toDigits]
  rfl

/-- The end of an array or an object, on a line of its own. -/
lemma continues_close {token : Token} (c : Char) (h : Token.ofPunctuation? c = some token)
    (level : Nat) : Continues (newLine level ++ [c]) [token] :=
  (continues_nil.spells.punctuation c h).spells.newLine level

/-- Items of an array after the first one. -/
lemma continues_layoutItems {level : Nat} {items : List Json}
    (h : ∀ item ∈ items, Spells (layout level item) item.tokens) :
    Continues (layoutItems level items) (tokensOfItems items) := by
  induction items with
  | nil => exact continues_nil
  | cons item items ih =>
    have hitems := ih fun i hi => h i (List.mem_cons_of_mem item hi)
    have hitem := (h item List.mem_cons_self).append hitems
    rw [layoutItems, tokensOfItems, List.append_assoc]
    exact (hitem.newLine level).spells.punctuation ',' rfl

/-- A key and its value. -/
lemma spells_member {level : Nat} {value : Json} {rest : List Char} {more : List Token}
    (key : String) (h : Spells (layout level value) value.tokens) (hrest : Continues rest more) :
    Spells (quoteText (some key) ++ ([':', ' '] ++ (layout level value ++ rest)))
      (.string (some key) :: .colon :: (value.tokens ++ more)) :=
  (spells_quote key).append (((h.append hrest).blank ' ' rfl).spells.punctuation ':' rfl)

/-- Members of an object after the first one. -/
lemma continues_layoutMembers {level : Nat} {members : List (String × Json)}
    (h : ∀ m ∈ members, Spells (layout level m.2) m.2.tokens) :
    Continues (layoutMembers level (members.map fun m => (some m.1, m.2)))
      (tokensOfMembers (members.map fun m => (some m.1, m.2))) := by
  induction members with
  | nil => exact continues_nil
  | cons m members ih =>
    have hmembers := ih fun i hi => h i (List.mem_cons_of_mem m hi)
    have hmember := spells_member m.1 (h m List.mem_cons_self) hmembers
    rw [List.map_cons, layoutMembers, tokensOfMembers]
    simp only [List.append_assoc]
    exact (hmember.newLine level).spells.punctuation ',' rfl

/-- **The text of a plain value spells its tokens**, at every level of indentation. -/
lemma Plain.spells_layout {depth : Nat} {value : Json} (h : Plain depth value) (level : Nat) :
    Spells (layout level value) value.tokens := by
  induction h generalizing level with
  | null => exact spells_word ['n', 'u', 'l', 'l'] (List.all_eq_true.mp rfl) rfl (by decide)
  | @bool _ b =>
    cases b with
    | true => exact spells_word ['t', 'r', 'u', 'e'] (List.all_eq_true.mp rfl) rfl (by decide)
    | false => exact spells_word ['f', 'a', 'l', 's', 'e'] (List.all_eq_true.mp rfl) rfl (by decide)
  | @ofNat _ n _ =>
    rw [Json.ofNat, layout, Number.text_ofNat]
    exact spells_toDigits n
  | ofString => exact spells_quote _
  | @array _ items _ ih =>
    cases items with
    | nil => exact ((continues_nil.spells.punctuation ']' rfl).spells.punctuation '[' rfl).spells
    | cons item items =>
      have hitems := continues_layoutItems fun i hi =>
        ih i (List.mem_cons_of_mem item hi) (level + 1)
      have hitem := (ih item List.mem_cons_self (level + 1)).append
        (hitems.append (continues_close ']' rfl level))
      simp only [layout, tokens, List.append_assoc]
      exact ((hitem.newLine (level + 1)).spells.punctuation '[' rfl).spells
  | @ofMembers _ members _ ih =>
    cases members with
    | nil =>
      exact ((continues_nil.spells.punctuation '\x7d' rfl).spells.punctuation '\x7b' rfl).spells
    | cons m members =>
      have hmembers := continues_layoutMembers fun i hi =>
        ih i (List.mem_cons_of_mem m hi) (level + 1)
      have hmember := spells_member m.1 (ih m List.mem_cons_self (level + 1))
        (hmembers.append (continues_close '\x7d' rfl level))
      simp only [Json.ofMembers, List.map_cons, layout, tokens, List.append_assoc]
      exact ((hmember.newLine (level + 1)).spells.punctuation '\x7b' rfl).spells

/-- A value is read from a text that spells its tokens. -/
lemma parse?_of_spells {text : String} {value : Json} (h : Spells text.toList value.tokens) :
    parse? text = some value := by
  obtain ⟨lexer, hfold, hfinish⟩ := h []
  have hstart : text.toList.foldlM push ⟨[], .between⟩ = some lexer := hfold
  have htokens : tokens? text.toList = some value.tokens := by
    rw [tokens?, hstart]
    exact hfinish
  rw [parse?, htokens]
  exact ofTokens?_tokens value

/-- **A plain value is read back from its text.** -/
theorem Plain.parse?_pretty {depth : Nat} {value : Json} (h : Plain depth value) :
    parse? value.pretty = some value := by
  apply parse?_of_spells
  rw [pretty, String.toList_ofList]
  exact h.spells_layout 0

/-- **A plain value is read back from its text with a line feed behind it.** -/
theorem Plain.parse?_pretty_line {depth : Nat} {value : Json} (h : Plain depth value) :
    parse? (value.pretty ++ "\n") = some value := by
  have hline := (h.spells_layout 0).append (continues_nil.spells.newLine 0)
  apply parse?_of_spells
  rw [pretty, String.toList_append, String.toList_ofList, ← List.append_nil value.tokens]
  exact hline

/-! ## Reading in full -/

lemma areSoundItems_eq_true {items : List Json} (h : ∀ item ∈ items, item.isSound = true) :
    areSoundItems items = true := by
  induction items with
  | nil => rfl
  | cons item items ih =>
    rw [areSoundItems, h item List.mem_cons_self,
      ih fun i hi => h i (List.mem_cons_of_mem item hi)]
    rfl

lemma areSoundMembers_eq_true {members : List (String × Json)}
    (h : ∀ m ∈ members, m.2.isSound = true) :
    areSoundMembers (members.map fun m => (some m.1, m.2)) = true := by
  induction members with
  | nil => rfl
  | cons m members ih =>
    rw [List.map_cons, areSoundMembers, h m List.mem_cons_self,
      ih fun i hi => h i (List.mem_cons_of_mem m hi)]
    rfl

lemma depthOfItems_le {items : List Json} {bound : Nat} (h : ∀ item ∈ items, item.depth ≤ bound) :
    depthOfItems items ≤ bound := by
  induction items with
  | nil => exact Nat.zero_le bound
  | cons item items ih =>
    exact Nat.max_le.mpr
      ⟨h item List.mem_cons_self, ih fun i hi => h i (List.mem_cons_of_mem item hi)⟩

lemma depthOfMembers_le {members : List (String × Json)} {bound : Nat}
    (h : ∀ m ∈ members, m.2.depth ≤ bound) :
    depthOfMembers (members.map fun m => (some m.1, m.2)) ≤ bound := by
  induction members with
  | nil => exact Nat.zero_le bound
  | cons m members ih =>
    exact Nat.max_le.mpr
      ⟨h m List.mem_cons_self, ih fun i hi => h i (List.mem_cons_of_mem m hi)⟩

lemma Plain.isSound {depth : Nat} {value : Json} (h : Plain depth value) :
    value.isSound = true := by
  induction h with
  | null => rfl
  | bool => rfl
  | ofNat h => rw [Json.ofNat, Json.isSound, Number.overflows_ofNat h]; rfl
  | ofString => rfl
  | array _ ih => exact areSoundItems_eq_true ih
  | ofMembers _ ih => exact areSoundMembers_eq_true ih

lemma Plain.depth_le {depth : Nat} {value : Json} (h : Plain depth value) :
    value.depth ≤ depth := by
  induction h with
  | null => exact Nat.zero_le _
  | bool => exact Nat.zero_le _
  | ofNat _ => exact Nat.zero_le _
  | ofString => exact Nat.zero_le _
  | array _ ih => exact Nat.succ_le_succ (depthOfItems_le ih)
  | ofMembers _ ih => exact Nat.succ_le_succ (depthOfMembers_le ih)

/-- **A plain value that is not nested too deep can be read in full.** -/
theorem Plain.isReadable {depth level : Nat} {value : Json} (h : Plain depth value)
    (hlevel : level + depth ≤ maxDepth) : value.isReadable level = true := by
  have hdepth := h.depth_le
  simp only [Json.isReadable, h.isSound, Bool.true_and, decide_eq_true_eq]
  omega

end LivingDocs.Json
