import LivingDocs.Text.Search

/-!
# Command line arguments

How a list of arguments is read when the switches are known. A switch has a long name and perhaps
a letter. It may take a value, either attached to it or as the next argument, and letters of
switches without a value may stand together behind one hyphen. All other arguments are free ones,
and so is everything behind a lone `--`.

A switch with its value, and a run of free arguments, are looked at only when the next switch or
the end is reached. So a switch that is not known is refused first, whatever is wrong with the
arguments before it.

## Main definitions

* `LivingDocs.Command.Refusal` — why arguments are not accepted.
* `LivingDocs.Command.Switch`, `LivingDocs.Command.Shape` — what may be given.
* `LivingDocs.Command.Given`, `LivingDocs.Command.Shape.read` — what has been given.
-/

set_option autoImplicit false

namespace LivingDocs.Command

/-- **Why arguments are not accepted.** Asking for help or for the version ends the reading too. -/
inductive Refusal where
  /-- A free argument is missing. -/
  | missingArgument
  /-- A switch is not known, or a free argument is one too many. -/
  | unknownArgument
  /-- A command is not known. -/
  | unknownCommand
  /-- A switch is given twice that may be given once. -/
  | repeated
  /-- A value is missing, or is an empty path. -/
  | invalidValue
  /-- A value is attached to a switch that takes none. -/
  | needlessValue
  /-- Help is asked for. -/
  | help
  /-- The version is asked for. -/
  | version
  deriving DecidableEq, Repr

/-- What a switch takes. -/
inductive Takes where
  /-- Nothing; the switch is on once it is given. -/
  | nothing
  /-- Nothing; the reading ends there. -/
  | ending (refusal : Refusal)
  /-- One value that is a path, so it is not empty. -/
  | path
  /-- One value of any kind. -/
  | text
  /-- One value of any kind each time it is given. -/
  | texts
  deriving DecidableEq, Repr

/-- **A switch.** -/
structure Switch where
  /-- The name behind two hyphens. -/
  long : String
  /-- The letter behind one hyphen. -/
  short : Option Char
  takes : Takes
  deriving DecidableEq, Repr

/-- What may be given: the switches, and whether there are free arguments, which are paths. -/
structure Shape where
  switches : List Switch
  free : Bool
  deriving DecidableEq, Repr

/-- **What has been given.** -/
structure Given where
  /-- The long names of the switches without a value. -/
  flags : List String := []
  /-- The values of switches under their long names, in order. -/
  values : List (String × String) := []
  /-- The free arguments. -/
  free : List String := []
  deriving DecidableEq, Repr

namespace Given

/-- Whether a switch without a value is on. -/
def has (given : Given) (long : String) : Bool := given.flags.contains long

/-- The value of a switch. -/
def value? (given : Given) (long : String) : Option String := given.values.lookup long

/-- All values of a switch. -/
def valuesOf (given : Given) (long : String) : List String :=
  (given.values.filter fun entry => entry.1 = long).map Prod.snd

end Given

/-- What has been met but not looked at. -/
inductive Pending where
  | nothing
  /-- A switch that takes a value, with its value once that is there. -/
  | switch (switch : Switch) (value : Option String)
  /-- A run of free arguments. -/
  | free (arguments : List String)
  deriving DecidableEq, Repr

/-- How far the reading is. -/
structure Progress where
  given : Given := {}
  pending : Pending := .nothing
  /-- Whether all that follows is free. -/
  literal : Bool := false
  deriving DecidableEq, Repr

namespace Progress

/-- Takes down a switch and its value: it must not be there already if it may be given once, and a
path must not be empty. -/
def takeValue (given : Given) (switch : Switch) (value : String) : Except Refusal Given :=
  if switch.takes ≠ .texts ∧ (given.value? switch.long).isSome then .error .repeated
  else if switch.takes = .path ∧ value = "" then .error .invalidValue
  else .ok { given with values := given.values ++ [(switch.long, value)] }

/-- **Looks at what is pending.** -/
def settle (progress : Progress) : Except Refusal Progress :=
  match progress.pending with
  | .nothing => .ok progress
  | .switch _ none => .error .invalidValue
  | .switch switch (some value) => do
    return { progress with given := ← takeValue progress.given switch value, pending := .nothing }
  | .free arguments =>
    if arguments.contains "" then .error .invalidValue
    else
      let given := { progress.given with free := progress.given.free ++ arguments }
      .ok { progress with given, pending := .nothing }

/-- Meets a switch without an attached value. -/
def meet (progress : Progress) (switch : Switch) : Except Refusal Progress := do
  let progress ← progress.settle
  match switch.takes with
  | .nothing =>
    if progress.given.has switch.long then throw .repeated
    else
      let given := { progress.given with flags := switch.long :: progress.given.flags }
      return { progress with given }
  | .ending refusal => throw refusal
  | _ => return { progress with pending := .switch switch none }

/-- Meets a switch with an attached value. -/
def meetAttached (progress : Progress) (switch : Switch) (value : String) :
    Except Refusal Progress :=
  match switch.takes with
  | .nothing | .ending _ => .error .needlessValue
  | _ => do
    let progress ← progress.settle
    settle { progress with pending := .switch switch (some value) }

/-- Meets a free argument. -/
def meetFree (progress : Progress) (argument : String) : Except Refusal Progress :=
  match progress.pending with
  | .free arguments => .ok { progress with pending := .free (arguments ++ [argument]) }
  | _ => do return { ← progress.settle with pending := .free [argument] }

end Progress

namespace Shape

/-- The switch of a long name. -/
def ofLong? (shape : Shape) (name : String) : Option Switch :=
  shape.switches.find? fun switch => switch.long = name

/-- The switch of a letter. -/
def ofShort? (shape : Shape) (letter : Char) : Option Switch :=
  shape.switches.find? fun switch => switch.short = some letter

/-- Whether a switch takes a value. -/
def takesValue (switch : Switch) : Bool :=
  match switch.takes with
  | .nothing | .ending _ => false
  | _ => true

/-- Reads what stands behind two hyphens. -/
def readLong (shape : Shape) (progress : Progress) (body : List Char) :
    Except Refusal Progress :=
  match Text.splitFirst? ['='] body with
  | some (name, value) =>
    match shape.ofLong? (String.ofList name) with
    | some switch => progress.meetAttached switch (String.ofList value)
    | none => .error .unknownArgument
  | none =>
    match shape.ofLong? (String.ofList body) with
    | some switch => progress.meet switch
    | none => .error .unknownArgument

/-- What a value is that is attached to a letter; an equals sign may stand between them. -/
def attached : List Char → List Char
  | '=' :: value => value
  | value => value

/-- Reads the letters behind one hyphen; the first switch that takes a value takes the rest. -/
def readLetters (shape : Shape) (progress : Progress) : List Char → Except Refusal Progress
  | [] => .ok progress
  | letter :: letters =>
    match shape.ofShort? letter with
    | none => .error .unknownArgument
    | some switch =>
      if takesValue switch && !letters.isEmpty then
        progress.meetAttached switch (String.ofList (attached letters))
      else do
        shape.readLetters (← progress.meet switch) letters

/-- Reads an argument that is no switch: the value of a switch that waits for one, or a free
argument if there are any. -/
def readPlain (shape : Shape) (progress : Progress) (argument : String) :
    Except Refusal Progress :=
  match progress.pending, progress.literal with
  | .switch switch none, false =>
    .ok { progress with pending := .switch switch (some argument) }
  | _, _ => if shape.free then progress.meetFree argument else .error .unknownArgument

/-- Reads one argument. -/
def readOne (shape : Shape) (progress : Progress) (argument : String) :
    Except Refusal Progress :=
  if progress.literal then shape.readPlain progress argument
  else match argument.toList with
    | ['-', '-'] => .ok { progress with literal := true }
    | '-' :: '-' :: body => shape.readLong progress body
    | '-' :: letter :: letters => shape.readLetters progress (letter :: letters)
    | _ => shape.readPlain progress argument

/-- **Reads the arguments.** -/
def read (shape : Shape) (arguments : List String) : Except Refusal Given := do
  let progress ← arguments.foldlM shape.readOne {}
  return (← progress.settle).given

end Shape

end LivingDocs.Command
