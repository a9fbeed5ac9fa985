import LivingDocs.Block.Reader

/-!
# The corpus of a project

All entities that a project declares, one ordered set for each kind, and the messages about its
malformed blocks. Corpora of several files are merged: entities by union, messages one list after
the other.

## Main definitions

* `LivingDocs.Corpus` — the five sets and the messages.
* `LivingDocs.Corpus.insert`, `LivingDocs.Corpus.merge` — one more entity, one more corpus.
* `LivingDocs.Corpus.ofLines` — the corpus of one file.
-/

set_option autoImplicit false

namespace LivingDocs

/-- **All entities of a project** and the messages about its malformed blocks. -/
structure Corpus where
  components : OrderedSet Component
  examples : OrderedSet Example
  vars : OrderedSet Variable
  crosscuts : OrderedSet Crosscut
  journeys : OrderedSet Journey
  /-- One message for each malformed block, in the order of files and lines. -/
  errors : List String
  deriving DecidableEq

namespace Corpus

/-- The corpus without entities and messages. -/
def empty : Corpus := ⟨∅, ∅, ∅, ∅, ∅, []⟩

instance : EmptyCollection Corpus := ⟨empty⟩

/-- The corpus with one more entity, taken as it is. -/
def insert (corpus : Corpus) : Entity → Corpus
  | .ofComponent c => { corpus with components := corpus.components.insert c }
  | .ofExample e => { corpus with examples := corpus.examples.insert e }
  | .ofVariable v => { corpus with vars := corpus.vars.insert v }
  | .ofCrosscut c => { corpus with crosscuts := corpus.crosscuts.insert c }
  | .ofJourney j => { corpus with journeys := corpus.journeys.insert j }

/-- The corpus with one more message. -/
def report (corpus : Corpus) (message : String) : Corpus :=
  { corpus with errors := corpus.errors ++ [message] }

/-- **The union of two corpora**; the messages of the first one come first. -/
def merge (a b : Corpus) : Corpus where
  components := a.components ∪ b.components
  examples := a.examples ∪ b.examples
  vars := a.vars ∪ b.vars
  crosscuts := a.crosscuts ∪ b.crosscuts
  journeys := a.journeys ∪ b.journeys
  errors := a.errors ++ b.errors

/-- Whether some block was malformed. -/
def hasErrors (corpus : Corpus) : Bool := !corpus.errors.isEmpty

/-- The number of entities of all kinds. -/
def entityCount (corpus : Corpus) : Nat :=
  corpus.components.size + corpus.examples.size + corpus.vars.size +
    corpus.crosscuts.size + corpus.journeys.size

/-- The message about a malformed block at a line of a file. -/
def errorMessage (file : String) (number : Nat) (error : Block.Error) : String :=
  s!"{file} at line {number}: {error.message}"

/-- Takes down what one step through a file has found. -/
def record (file : String) (corpus : Corpus) (step : Block.Step) : Corpus :=
  match step.result with
  | .ok ⟨_, some entity⟩ => corpus.insert (entity.stamp file)
  | .ok ⟨_, none⟩ => corpus
  | .error error => corpus.report (errorMessage file step.number error)

/-- **The corpus of one file**: every entity is stamped with the file, and a malformed block is
reported without hiding what follows it. -/
def ofLines (grammar : Block.Grammar) (file : String) (lines : List String) : Corpus :=
  (Block.steps grammar 1 lines).foldl (record file) ∅

end Corpus

end LivingDocs
