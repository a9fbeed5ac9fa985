import LivingDocs.Block.Line
import LivingDocs.Entity

/-!
# The keywords of blocks

A grammar is the table of the keywords that start a block, together with the words that mark its
parts. The standard grammar puts one stem and a colon in front of seven names.

## Main definitions

* `LivingDocs.Block.Kind` — what a block keyword introduces.
* `LivingDocs.Block.Grammar` — the keyword table.
* `LivingDocs.Block.Grammar.standard` — the table under a given stem.
* `LivingDocs.Block.Grammar.match?` — the block keyword of a line.
-/

set_option autoImplicit false

namespace LivingDocs.Block

/-- What a block keyword introduces. -/
inductive Kind where
  | ofExample (kind : ExampleKind)
  | ofComponent
  | ofVariable
  | ofCrosscut
  | ofJourney
  deriving DecidableEq, Repr

/-- **The words that give a block its shape.** -/
structure Grammar where
  /-- Block keywords, in the order in which a line is searched for them. -/
  blocks : List (String × Kind)
  /-- Introduces a description. -/
  desc : String
  /-- Introduces the tags, all on one line. -/
  tags : String
  /-- Introduces the features of a component. -/
  features : String
  /-- Introduces the values that an example makes use of. -/
  values : String
  /-- Introduces one item of a list. -/
  bullet : String
  /-- Stands between the items of a list on one line. -/
  separator : Char
  deriving DecidableEq

namespace Grammar

/-- The stem of the keywords where no other one is configured. -/
def defaultStem : String := "aerial"

/-- **The standard grammar**: the block keywords are `stem` and a name, with a colon between. -/
def standard (stem : String) : Grammar where
  blocks := [
    (stem ++ ":how-to", .ofExample .howTo),
    (stem ++ ":todo", .ofExample .todo),
    (stem ++ ":example", .ofExample .plain),
    (stem ++ ":cross-cut", .ofCrosscut),
    (stem ++ ":component", .ofComponent),
    (stem ++ ":variable", .ofVariable),
    (stem ++ ":journey", .ofJourney)]
  desc := "desc:"
  tags := "tags:"
  features := "features:"
  values := "variables:"
  bullet := "* "
  separator := ','

/-- The first block keyword of the table that stands on the line, with its kind. -/
def match? (grammar : Grammar) (line : String) : Option (String × Kind) :=
  grammar.blocks.find? fun entry => Line.mentions entry.1 line

end Grammar

end LivingDocs.Block
