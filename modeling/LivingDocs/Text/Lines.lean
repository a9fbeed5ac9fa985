/-!
# Lines of a text

A line ends at a line feed, and a carriage return directly before that line feed belongs to the
ending. The last line needs no ending: what follows the last line feed is a line of its own
unless it is empty, and a carriage return at its end is part of it.

## Main definitions

* `LivingDocs.Text.LineCutter` — how far a text has been cut into lines.
* `LivingDocs.Text.lines` — the lines of a string, in order.
-/

set_option autoImplicit false

namespace LivingDocs.Text

/-- **How far a text has been read**: the finished lines, the last one first, and the characters
of the current line, the last one first. -/
structure LineCutter where
  finished : List (List Char)
  current : List Char

/-- A line read backwards, without the carriage return of its ending. -/
def dropReturn : List Char → List Char
  | '\r' :: line => line
  | line => line

/-- Reads one more character. -/
def LineCutter.push (cutter : LineCutter) (c : Char) : LineCutter :=
  if c = '\n' then ⟨(dropReturn cutter.current).reverse :: cutter.finished, []⟩
  else ⟨cutter.finished, c :: cutter.current⟩

/-- The lines read, once there are no more characters. -/
def LineCutter.finish (cutter : LineCutter) : List (List Char) :=
  if cutter.current.isEmpty then cutter.finished.reverse
  else (cutter.current.reverse :: cutter.finished).reverse

/-- The lines of a string, in order. -/
def lines (s : String) : List String :=
  ((s.toList.foldl LineCutter.push ⟨[], []⟩).finish).map String.ofList

end LivingDocs.Text
