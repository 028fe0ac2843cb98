import Storyboard.CommandLine.Host
import Storyboard.CommandLine.Request
import Storyboard.Exchange.Report

/-!
# Running requests

A run ends with an exit code: 0 if all went well, 1 if it did not, 2 if the arguments make no
request, 101 if the program breaks off.
-/

namespace Storyboard.CommandLine

/-- Why a request is not carried out to its end. -/
inductive Trouble where
  /-- The reader has been told already. -/
  | told
  | failure (message : String)
  /-- A failure of something that was about to be done. -/
  | during (context cause : String)
  | crash (detail : String)

/-- What a failure of the library comes to. -/
def Trouble.ofFailure : Failure → Trouble
  | .crash detail => .crash detail
  | e => .failure e.message

def Trouble.code : Trouble → UInt32
  | .crash _ => 101
  | _ => 1

def Trouble.report : Trouble → String
  | .told => ""
  | .failure message => s!"Error: {message}\n"
  | .during context cause => s!"Error: {context}\n\nCaused by:\n    {cause}\n"
  | .crash detail => s!"thread 'main' panicked:\n{detail}\n"

/-- An exit code, or trouble. -/
abbrev Action (m : Type → Type) := ExceptT Trouble m UInt32

variable {m : Type → Type} [Monad m]

/-- An action on files, with what to say if it fails. -/
def during {α : Type} (context : String) (action : ExceptT FileFault m α) : ExceptT Trouble m α :=
  action.adapt fun fault => .during context fault.message

/-- An action that fails with a failure of the library. -/
def orFail {α : Type} (action : ExceptT Failure m α) : ExceptT Trouble m α :=
  action.adapt .ofFailure

def lift {α : Type} (action : m α) : ExceptT Trouble m α :=
  ExceptT.lift action

namespace Host

/-- Prints a value on lines of its own. -/
def printJson (h : Host m) (v : Json) : ExceptT Trouble m Unit :=
  (h.out.write (v.pretty ++ "\n").toUTF8).adapt .failure

/-- The program of a script. A syntax error is shown where `json` says. -/
def load (h : Host m) (script : String) (json : Bool) : ExceptT Trouble m Program := do
  let text ← during s!"read script '{script}'" (h.readText script)
  match Script.parse text with
  | .ok program => return program
  | .error e =>
    if json then
      h.printJson (Json.sorted (.object [("ok", .bool false), ("error", e.toJson)]))
    else lift (h.err (e.report text.toList script))
    throw .told

def check (h : Host m) (script : String) (json denyWarnings : Bool) : Action m := do
  let program ← h.load script json
  let diagnostics := program.diagnostics
  if json then
    h.printJson (Json.sorted (.object [("ok", .bool true), ("scenes", .ofNat program.scenes.length),
      ("diagnostics", .ofList Diagnostic.toJson diagnostics)]))
  else
    for d in diagnostics do
      lift (h.err s!"warning: {d.message}\n  --> scene {d.scene} \"{d.sceneTitle}\"\n")
    lift (h.err
      s!"{script}: {program.scenes.length} scene(s), {diagnostics.length} warning(s)\n")
  return if denyWarnings && !diagnostics.isEmpty then 1 else 0

def dump (h : Host m) (script : String) : Action m := do
  let program ← h.load script false
  h.printJson program.toJson
  return 0

def eval (h : Host m) (script : String) (scene : Nat) (time : Float) : Action m := do
  let program ← h.load script false
  if !time.isFinite || time < 0.0 then
    throw (.failure "--time must be a finite number >= 0")
  let snapshot ← orFail (MonadExcept.ofExcept (program.snapshot scene time))
  h.printJson snapshot.toJson
  return 0

/-- The writer for the frames: a file, in a directory made for it, or the output stream. -/
def target (h : Host m) : Option String → ExceptT Trouble m (Writer m)
  | none => return h.out
  | some path => do
    match Path.parent? path with
    | some dir => during s!"create output dir '{dir}'" (h.makeDirectories dir)
    | none => pure ()
    during s!"create output '{path}'" (h.createFile path)

def sample (h : Host m) (script : String) (s : SampleRequest) : Action m := do
  let program ← h.load script false
  let rate ← orFail (MonadExcept.ofExcept (Rate.checked s.num s.den))
  let session ← orFail (MonadExcept.ofExcept (Session.create h.workers program
    { rate, parallel := s.parallel, threads := s.threads, chunkSize := s.chunkSize,
      narration := s.narration }))
  let writer ← h.target s.out
  let stats ← orFail (session.sample writer.lines s.scene)
  writer.flush.adapt .failure
  lift (h.err s!"sampled {stats.total} frame(s), {stats.still} static\n")
  match s.out with
  | some path => lift (h.err s!"wrote {path}\n")
  | none => pure ()
  return 0

/-- Carries out a request. -/
def act (h : Host m) : Request → Action m
  | .version => do
    (h.out.write "vidscript 0.1.0\n".toUTF8).adapt .failure
    return 0
  | .check script json denyWarnings => h.check script json denyWarnings
  | .dump script => h.dump script
  | .eval script scene time => h.eval script scene time
  | .sample script s => h.sample script s

/-- Runs a command line. -/
def run (h : Host m) (arguments : List String) : m UInt32 := do
  match Request.ofArguments arguments with
  | .error e =>
    h.err e.message
    return 2
  | .ok request =>
    match ← (h.act request).run with
    | .ok code => return code
    | .error trouble =>
      h.err trouble.report
      return trouble.code

end Host
end Storyboard.CommandLine
