import LivingDocs.Block.Grammar

/-!
# Reading blocks

A block is read from the lines that start with its keyword line. Reading looks at the lines of the
block and at one line after it, and it says how many lines the block has. A whole text is read
step by step: a block's lines are passed over, and so is a line that starts no block or a
malformed one.

## Main definitions

* `LivingDocs.Block.Reading` — what stands at the start of some lines.
* `LivingDocs.Block.read` — reads the block at the start of the lines.
* `LivingDocs.Block.readAt` — reads the block at a position among the lines.
* `LivingDocs.Block.steps` — all readings of a text, in order.
-/

set_option autoImplicit false

namespace LivingDocs.Block

/-- **What stands at the start of some lines**: a block or nothing, and the number of lines to pass
over. -/
structure Reading where
  consumed : Nat
  entity : Option Entity
  deriving DecidableEq

/-- A line that starts no block. -/
def Reading.nothing : Reading := ⟨1, none⟩

/-- The tags on the first of the lines, if they are there, and the number of lines they take. -/
def readTags (grammar : Grammar) : List String → Except Error (OrderedSet String × Nat)
  | [] => .ok (∅, 0)
  | line :: _ =>
    if Line.mentions grammar.tags line then
      (Line.inlineItems grammar.tags grammar.separator line).map fun tags => (tags, 1)
    else .ok (∅, 0)

/-- The values that an example lists on the first of the lines and on bullet lines below it, if
they are there, and the number of lines they take. -/
def readVariables (grammar : Grammar) : List String → Except Error (OrderedSet String × Nat)
  | [] => .ok (∅, 0)
  | line :: lines =>
    if Line.mentions grammar.values line then
      (Line.bulletList grammar.bullet grammar.values lines).map fun values =>
        (OrderedSet.ofList values, 1 + values.length)
    else .ok (∅, 0)

/-- An example: the category on the keyword line, the name below it, then the values it makes use
of and the tags, both of which may be left out. -/
def readExample (grammar : Grammar) (keyword : String) (kind : ExampleKind) (number : Nat)
    (line : String) (lines : List String) : Except Error Reading := do
  let (indent, category) ← Line.cut keyword line
  match lines with
  | [] => .error (.unexpectedEnd keyword .exampleName)
  | nameLine :: lines =>
    let name ← Line.exampleName keyword indent nameLine
    let (values, variableLines) ← readVariables grammar lines
    let (tags, tagLines) ← readTags grammar (lines.drop variableLines)
    return ⟨2 + variableLines + tagLines,
      some (.ofExample ⟨name, category, values, tags, kind, .unstamped number⟩)⟩

/-- The features of a component: a line with their keyword, and bullet lines below it. -/
def readFeatures (grammar : Grammar) (keyword : String) : List String →
    Except Error (List String)
  | [] => .error (.unexpectedEnd keyword .featureList)
  | line :: lines =>
    if Line.mentions grammar.features line then
      Line.bulletList grammar.bullet grammar.features lines
    else .error (.missingKeyword grammar.features line)

/-- A component: the name on the keyword line, the description below it, then the tags, which may
be left out, and the features. -/
def readComponent (grammar : Grammar) (keyword : String) (number : Nat) (line : String)
    (lines : List String) : Except Error Reading := do
  let name ← Line.after keyword line
  match lines with
  | [] => .error (.unexpectedEnd keyword .description)
  | descLine :: lines =>
    let desc ← Line.after grammar.desc descLine
    let (tags, tagLines) ← readTags grammar lines
    let features ← readFeatures grammar keyword (lines.drop tagLines)
    return ⟨3 + tagLines + features.length,
      some (.ofComponent ⟨name, desc, tags, OrderedSet.ofList features, .unstamped number⟩)⟩

/-- A variable: the name on the keyword line, the values on bullet lines below it. -/
def readVariable (grammar : Grammar) (keyword : String) (number : Nat) (line : String)
    (lines : List String) : Except Error Reading := do
  let name ← Line.after keyword line
  let values ← Line.bulletList grammar.bullet keyword lines
  return ⟨1 + values.length,
    some (.ofVariable ⟨name, OrderedSet.ofList values, .unstamped number⟩)⟩

/-- A crosscut: the name on the keyword line. -/
def readCrosscut (keyword : String) (number : Nat) (line : String) : Except Error Reading := do
  let name ← Line.after keyword line
  return ⟨1, some (.ofCrosscut ⟨name, .unstamped number⟩)⟩

/-- The description of a journey on the first of the lines, empty if it is not there, and the
number of lines it takes. -/
def readJourneyDesc (grammar : Grammar) : List String → Except Error (String × Nat)
  | [] => .ok ("", 0)
  | line :: _ =>
    if Line.mentions grammar.desc line then
      (Line.after grammar.desc line).map fun desc => (desc, 1)
    else .ok ("", 0)

/-- A journey: the name on the keyword line, and a description below it, which may be left out. -/
def readJourney (grammar : Grammar) (keyword : String) (number : Nat) (line : String)
    (lines : List String) : Except Error Reading := do
  let name ← Line.after keyword line
  let (desc, descLines) ← readJourneyDesc grammar lines
  return ⟨1 + descLines, some (.ofJourney ⟨name, desc, .unstamped number⟩)⟩

/-- **Reads the block at the start of the lines**, the first of which has the given number. A first
line without a block keyword is passed over. -/
def read (grammar : Grammar) (number : Nat) : List String → Except Error Reading
  | [] => .ok .nothing
  | line :: lines =>
    match grammar.match? line with
    | none => .ok .nothing
    | some (keyword, .ofExample kind) => readExample grammar keyword kind number line lines
    | some (keyword, .ofComponent) => readComponent grammar keyword number line lines
    | some (keyword, .ofVariable) => readVariable grammar keyword number line lines
    | some (keyword, .ofCrosscut) => readCrosscut keyword number line
    | some (keyword, .ofJourney) => readJourney grammar keyword number line lines

/-- Reads the block at a position among the lines, counted from zero. -/
def readAt (grammar : Grammar) (lines : List String) (position : Nat) : Except Error Reading :=
  read grammar (position + 1) (lines.drop position)

/-- **One step through a text**: the number of the line where it starts, and what is read there. -/
structure Step where
  number : Nat
  result : Except Error Reading

/-- How many lines a step passes over beyond the first: those of the block, and none after a
failure. -/
def Step.further (step : Step) : Nat :=
  match step.result with
  | .ok reading => reading.consumed - 1
  | .error _ => 0

/-- **All steps through the lines**, the first of which has the given number. -/
def steps (grammar : Grammar) (number : Nat) : List String → List Step
  | [] => []
  | line :: lines =>
    let step : Step := ⟨number, read grammar number (line :: lines)⟩
    step :: steps grammar (number + 1 + step.further) (lines.drop step.further)
termination_by lines => lines.length
decreasing_by simp only [List.length_drop, List.length_cons]; omega

end LivingDocs.Block
