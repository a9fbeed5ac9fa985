import LivingDocs.Json.Token
import LivingDocs.Json.Value

/-!
# Reading JSON

Tokens are put together into a value one at a time. The arrays and objects that have been opened
and not yet closed stand on a stack, the innermost first, and the reader knows which tokens may
come next.

## Main definitions

* `LivingDocs.Json.Frame` — an array or an object that is still open.
* `LivingDocs.Json.Reader` — how far the tokens have been read.
* `LivingDocs.Json.ofTokens?`, `LivingDocs.Json.parse?` — the value of tokens and of a text.
-/

set_option autoImplicit false

namespace LivingDocs.Json

/-- **An array or an object that is still open**, with what it holds so far, the last one first.
An object also has the key of the member that is being read. -/
inductive Frame where
  | array (items : List Json)
  | object (members : List (Option String × Json)) (key : Option String)

/-- Which tokens may come next. -/
inductive Reader.Expectation where
  /-- A value. -/
  | value
  /-- A value, or the end of the array that was just opened. -/
  | valueOrEnd
  /-- A key. -/
  | key
  /-- A key, or the end of the object that was just opened. -/
  | keyOrEnd
  /-- A colon after a key. -/
  | colon
  /-- A comma, or the end of the innermost array or object. -/
  | commaOrEnd
  /-- Nothing: the value is complete. -/
  | nothing
  deriving DecidableEq, Repr

/-- **How far the tokens have been read**: the frames, the innermost first, what may come next, and
the value once it is complete. -/
structure Reader where
  frames : List Frame
  expects : Reader.Expectation
  result : Json

namespace Reader

/-- The reader before the first token. -/
def start : Reader := ⟨[], .value, .null⟩

/-- Puts a finished value where it belongs. -/
def accept (frames : List Frame) (value : Json) : Reader :=
  match frames with
  | [] => ⟨[], .nothing, value⟩
  | .array items :: frames => ⟨.array (value :: items) :: frames, .commaOrEnd, .null⟩
  | .object members key :: frames =>
    ⟨.object ((key, value) :: members) none :: frames, .commaOrEnd, .null⟩

/-- Reads a token that starts a value. -/
def pushValue (frames : List Frame) : Token → Option Reader
  | .null => some (accept frames .null)
  | .bool b => some (accept frames (.bool b))
  | .number n => some (accept frames (.number n))
  | .string text => some (accept frames (.string text))
  | .openArray => some ⟨.array [] :: frames, .valueOrEnd, .null⟩
  | .openObject => some ⟨.object [] none :: frames, .keyOrEnd, .null⟩
  | _ => none

/-- Reads a token that is the key of a member. -/
def pushKey (frames : List Frame) (token : Token) : Option Reader :=
  match token, frames with
  | .string text, .object members _ :: frames =>
    some ⟨.object members text :: frames, .colon, .null⟩
  | _, _ => none

/-- Reads a token that ends the innermost array or object. -/
def close (frames : List Frame) (token : Token) : Option Reader :=
  match token, frames with
  | .closeArray, .array items :: frames => some (accept frames (.array items.reverse))
  | .closeObject, .object members _ :: frames => some (accept frames (.object members.reverse))
  | _, _ => none

/-- Reads a comma after an item or a member. -/
def pushComma (frames : List Frame) : Option Reader :=
  match frames with
  | .array _ :: _ => some ⟨frames, .value, .null⟩
  | .object _ _ :: _ => some ⟨frames, .key, .null⟩
  | [] => none

/-- Reads one more token. -/
def push (reader : Reader) (token : Token) : Option Reader :=
  match reader.expects with
  | .value => pushValue reader.frames token
  | .valueOrEnd =>
    if token = .closeArray then close reader.frames token else pushValue reader.frames token
  | .key => pushKey reader.frames token
  | .keyOrEnd =>
    if token = .closeObject then close reader.frames token else pushKey reader.frames token
  | .colon => if token = .colon then some { reader with expects := .value } else none
  | .commaOrEnd =>
    if token = .comma then pushComma reader.frames else close reader.frames token
  | .nothing => none

/-- The value, once there are no more tokens. -/
def finish (reader : Reader) : Option Json :=
  if reader.expects = .nothing then some reader.result else none

end Reader

/-- The value that tokens spell. -/
def ofTokens? (tokens : List Token) : Option Json :=
  (tokens.foldlM Reader.push Reader.start).bind Reader.finish

/-- **The value of a JSON text.** -/
def parse? (text : String) : Option Json := (tokens? text.toList).bind ofTokens?

/-- What is said about a text that is not the JSON it should be. -/
def faultMessage : String := "<json error>"

end LivingDocs.Json
