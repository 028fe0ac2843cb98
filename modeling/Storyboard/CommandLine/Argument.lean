import Storyboard.CommandLine.Terminal
import Storyboard.CommandLine.Value

/-!
# Reading the arguments of a command

Arguments are read from left to right. The value of an option, or the positional argument, is judged
only when the next known option or positional argument is met, or at the end. So an argument that is
not known is reported before a bad value in front of it.
-/

namespace Storyboard.CommandLine

open Terminal (emphasized)

/-- Why arguments are refused. -/
inductive UsageError where
  | noCommand
  | unknownCommand (name : String)
  | unexpectedArgument (argument : String)
  | unneededValue (value flag : String)
  | missingValue (shown : String)
  | repeated (shown : String)
  | invalidValue (value shown why : String)
  | missingArguments
  deriving DecidableEq, Repr

/-- What the reader is told, in the styles of a terminal. -/
def UsageError.complaint : UsageError → String
  | .noCommand => "Usage: vidscript <COMMAND>\n"
  | .unknownCommand name => refusal ("unrecognized subcommand '" ++ emphasized name ++ "'")
  | .unexpectedArgument argument =>
    refusal ("unexpected argument '" ++ emphasized argument ++ "' found")
  | .unneededValue value flag =>
    refusal ("unexpected value '" ++ emphasized value ++ "' for '" ++ emphasized flag ++
      "' found; no more were expected")
  | .missingValue shown =>
    refusal ("a value is required for '" ++ emphasized shown ++ "' but none was supplied")
  | .repeated shown =>
    refusal ("the argument '" ++ emphasized shown ++ "' cannot be used multiple times")
  | .invalidValue value shown why =>
    refusal ("invalid value '" ++ emphasized value ++ "' for '" ++ emphasized shown ++ "': " ++ why)
  | .missingArguments => refusal "the following required arguments were not provided:"
where
  refusal (what : String) : String :=
    emphasized "error:" ++ " " ++ what ++ "\n\nFor more information, try '" ++
      emphasized "--help" ++ "'.\n"

/-- What the reader is told where no terminal is. -/
def UsageError.message (e : UsageError) : String :=
  Terminal.plain e.complaint

/-- What is wrong with one value. -/
inductive ValueFault where
  | missing
  | invalid (why : String)

/-- An argument with a value, and how it changes what is known so far. -/
structure Setting (α : Type) where
  /-- How messages show it. -/
  shown : String
  repeatable : Bool := false
  apply : List Char → α → Except ValueFault α

/-- An argument without a value. -/
structure Flag (α : Type) where
  name : String
  apply : α → α

/-- The arguments that a command takes. Options are listed with their names. -/
structure Usage (α : Type) where
  flags : List (Flag α)
  options : List (String × Setting α)
  positional : Setting α

/-- The placeholder for the value of an option: its name in capitals. -/
def placeholder (name : String) : String :=
  String.ofList ((name.toList.drop 2).map fun c => if c = '-' then '_' else c.toUpper)

/-- An option that is shown with its placeholder. -/
def option {α : Type} (name : String) (apply : List Char → α → Except ValueFault α) :
    String × Setting α :=
  (name, ⟨s!"{name} <{placeholder name}>", false, apply⟩)

/-- The same option, allowed more than once. -/
def allowRepeats {α : Type} (o : String × Setting α) : String × Setting α :=
  (o.1, { o.2 with repeatable := true })

/-- How far the reading is. -/
structure Reading (α : Type) where
  known : α
  /-- What was set so far, as messages show it. -/
  seen : List String := []
  /-- What waits to be judged, with its value if that has come. -/
  pending : Option (Setting α × Option String) := none
  positionalTaken : Bool := false
  /-- After `--` everything is positional. -/
  trailing : Bool := false

namespace Reading

variable {α : Type}

/-- Takes note of an argument that must not come twice. -/
def note (r : Reading α) (shown : String) (repeatable : Bool) : Except UsageError (Reading α) :=
  if !repeatable && r.seen.contains shown then .error (.repeated shown)
  else .ok { r with seen := shown :: r.seen }

/-- Judges a value: it has to be there, to be the first one and to be valid. -/
def settle (r : Reading α) (s : Setting α) : Option String → Except UsageError (Reading α)
  | none => .error (.missingValue s.shown)
  | some value => do
    let r ← r.note s.shown s.repeatable
    match s.apply value.toList r.known with
    | .ok known => return { r with known }
    | .error .missing => throw (.missingValue s.shown)
    | .error (.invalid why) => throw (.invalidValue value s.shown why)

/-- Judges what waits. -/
def resolve (r : Reading α) : Except UsageError (Reading α) :=
  match r.pending with
  | none => .ok r
  | some (s, value) => { r with pending := none }.settle s value

/-- An argument that starts with two dashes, cut at its first equals sign. -/
def long (u : Usage α) (r : Reading α) (name : String) (value : Option String) :
    Except UsageError (Reading α) :=
  match u.options.lookup name with
  | some s => do
    let r ← r.resolve
    match value with
    | some v => r.settle s (some v)
    | none => return { r with pending := some (s, none) }
  | none =>
    match u.flags.find? (·.name = name), value with
    | some flag, some v => .error (.unneededValue v flag.name)
    | some flag, none => do
      let r ← (← r.resolve).note flag.name false
      return { r with known := flag.apply r.known }
    | none, _ => .error (.unexpectedArgument name)

def positional (u : Usage α) (r : Reading α) (argument : String) :
    Except UsageError (Reading α) :=
  if r.positionalTaken then .error (.unexpectedArgument argument)
  else do
    let r ← r.resolve
    return { r with pending := some (u.positional, some argument), positionalTaken := true }

/-- The name and the value of an argument with two dashes. -/
def nameAndValue (argument : List Char) : String × Option String :=
  (String.ofList (argument.takeWhile (· ≠ '=')),
    match argument.dropWhile (· ≠ '=') with
    | [] => none
    | _ :: value => some (String.ofList value))

def step (u : Usage α) (r : Reading α) (argument : String) : Except UsageError (Reading α) :=
  if r.trailing then r.positional u argument
  else match argument.toList with
    | ['-', '-'] => .ok { r with trailing := true }
    | '-' :: '-' :: cs =>
      let (name, value) := nameAndValue ('-' :: '-' :: cs)
      r.long u name value
    | '-' :: c :: _ => .error (.unexpectedArgument (String.ofList ['-', c]))
    | _ =>
      match r.pending with
      | some (s, none) => .ok { r with pending := some (s, some argument) }
      | _ => r.positional u argument

end Reading

/-- What the arguments of a command say, starting from `blank`. -/
def Usage.read {α : Type} (u : Usage α) (blank : α) (arguments : List String) :
    Except UsageError α := do
  let r ← arguments.foldlM (Reading.step u) { known := blank }
  return (← r.resolve).known

end Storyboard.CommandLine
