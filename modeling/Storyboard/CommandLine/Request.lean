import Storyboard.CommandLine.Argument
import Storyboard.Sampling.Session

namespace Storyboard.CommandLine

structure SampleRequest where
  num : UInt32
  den : UInt32
  scene : Option Nat
  narration : List (Nat × Float)
  parallel : Bool
  threads : Option Nat
  chunkSize : Nat
  out : Option String
  deriving DecidableEq

inductive Request where
  | version
  | check (script : String) (json denyWarnings : Bool)
  | dump (script : String)
  | eval (script : String) (scene : Nat) (time : Float)
  | sample (script : String) (s : SampleRequest)
  deriving DecidableEq

/-- All that arguments can say, before a request is made of it. -/
structure Draft where
  script : Option String := none
  json : Bool := false
  denyWarnings : Bool := false
  time : Option Float := none
  scene : Option Nat := none
  num : UInt32 := 30
  den : UInt32 := 1
  /-- The newest first. -/
  narration : List (Nat × Float) := []
  parallel : Bool := false
  threads : Option Nat := none
  chunkSize : Nat := 64
  out : Option String := none

namespace Draft

/-- A value that `read` makes sense of. -/
def value {α : Type} (read : List Char → Except NumeralFault α) (set : Draft → α → Draft)
    (text : List Char) (d : Draft) : Except ValueFault Draft :=
  match read text with
  | .ok a => .ok (set d a)
  | .error fault => .error (.invalid fault.message)

/-- A path; an empty one is none. -/
def path (set : Draft → String → Draft) (text : List Char) (d : Draft) : Except ValueFault Draft :=
  if text.isEmpty then .error .missing else .ok (set d (String.ofList text))

/-- A number that a 32-bit word holds. -/
def word32 (set : Draft → UInt32 → Draft) (text : List Char) (d : Draft) :
    Except ValueFault Draft :=
  match integer text with
  | .error fault => .error (.invalid fault.message)
  | .ok z =>
    if 0 ≤ z ∧ z < UInt32.size then .ok (set d (UInt32.ofNat z.toNat))
    else .error (.invalid s!"{z} is not in 0..=4294967295")

def measured (text : List Char) (d : Draft) : Except ValueFault Draft :=
  match CommandLine.narration text with
  | .ok entry => .ok { d with narration := entry :: d.narration }
  | .error why => .error (.invalid why)

def scriptArgument : Setting Draft where
  shown := "<SCRIPT>"
  apply := path fun d script => { d with script := some script }

def sceneOption : String × Setting Draft :=
  option "--scene" (value size fun d scene => { d with scene := some scene })

end Draft

/-- The commands, with their arguments. -/
inductive Verb where
  | check
  | dump
  | eval
  | sample
  deriving DecidableEq

namespace Verb

def ofName? (name : String) : Option Verb :=
  if name = "check" then some .check
  else if name = "dump" then some .dump
  else if name = "eval" then some .eval
  else if name = "sample" then some .sample
  else none

def usage : Verb → Usage Draft
  | .check => {
      flags := [⟨"--json", fun d => { d with json := true }⟩,
        ⟨"--deny-warnings", fun d => { d with denyWarnings := true }⟩]
      options := []
      positional := Draft.scriptArgument }
  | .dump => { flags := [], options := [], positional := Draft.scriptArgument }
  | .eval => {
      flags := []
      options := [Draft.sceneOption,
        option "--time" (Draft.value float fun d time => { d with time := some time })]
      positional := Draft.scriptArgument }
  | .sample => {
      flags := [⟨"--parallel", fun d => { d with parallel := true }⟩]
      options := [
        option "--fps" (Draft.word32 fun d num => { d with num }),
        option "--fps-den" (Draft.word32 fun d den => { d with den }),
        Draft.sceneOption,
        allowRepeats (option "--narration" Draft.measured),
        option "--threads" (Draft.value size fun d n => { d with threads := some n }),
        option "--chunk-size" (Draft.value size fun d chunkSize => { d with chunkSize }),
        option "--out" (Draft.path fun d out => { d with out := some out })]
      positional := Draft.scriptArgument }

/-- The request of a complete draft. -/
def request? (d : Draft) : Verb → Option Request
  | .check => d.script.map fun script => .check script d.json d.denyWarnings
  | .dump => d.script.map .dump
  | .eval => do return .eval (← d.script) (d.scene.getD 0) (← d.time)
  | .sample => d.script.map fun script => .sample script
      ⟨d.num, d.den, d.scene, d.narration.reverse, d.parallel, d.threads, d.chunkSize, d.out⟩

def read (v : Verb) (arguments : List String) : Except UsageError Request := do
  let draft ← v.usage.read {} arguments
  match request? draft v with
  | some request => return request
  | none => throw .missingArguments

end Verb

/-- The request for the version. -/
def versionRequest (value : Option String) : Except UsageError Request :=
  match value with
  | some v => .error (.unneededValue v "--version")
  | none => .ok .version

/-- The request of a whole command line. A command after `--` is not taken for one. -/
def Request.ofArguments : List String → Except UsageError Request
  | [] => .error .noCommand
  | ["--"] => .error .noCommand
  | "--" :: name :: _ =>
    if (Verb.ofName? name).isSome then .error (.unexpectedArgument name)
    else .error (.unknownCommand name)
  | name :: arguments =>
    match Verb.ofName? name with
    | some verb => verb.read arguments
    | none =>
      match name.toList with
      | '-' :: '-' :: cs =>
        let (flag, value) := Reading.nameAndValue ('-' :: '-' :: cs)
        if flag = "--version" then versionRequest value
        else .error (.unexpectedArgument flag)
      | '-' :: 'V' :: _ => .ok .version
      | '-' :: c :: _ => .error (.unexpectedArgument (String.ofList ['-', c]))
      | _ => .error (.unknownCommand name)

end Storyboard.CommandLine
