import Storyboard.CommandLine.Path
import Storyboard.Sampling.Lines
import Storyboard.Sampling.Session
import Storyboard.Script.Parse

namespace Storyboard.CommandLine

/-- Why a file or a directory is refused. -/
inductive FileFault where
  | missing
  | exists
  | notDirectory
  | isDirectory
  | nameTooLong
  /-- The bytes of the file are no text. -/
  | notText
  | other (detail : String)
  deriving DecidableEq, Repr

def FileFault.message : FileFault → String
  | .missing => "No such file or directory (os error 2)"
  | .exists => "File exists (os error 17)"
  | .notDirectory => "Not a directory (os error 20)"
  | .isDirectory => "Is a directory (os error 21)"
  | .nameTooLong => "File name too long (os error 36)"
  | .notText => "stream did not contain valid UTF-8"
  | .other detail => detail

/-- Files, workers and the two output streams, with effects in `m`. -/
structure Host (m : Type → Type) where
  readFile : String → ExceptT FileFault m ByteArray
  /-- Makes a directory, if it is not there. The one that it lies in must be there. -/
  makeDirectory : String → ExceptT FileFault m Unit
  /-- Makes a file, or empties the one that is there, and gives a writer for it. -/
  createFile : String → ExceptT FileFault m (Writer m)
  workers : Workers
  out : Writer m
  err : String → m Unit

namespace Host

variable {m : Type → Type} [Monad m]

/-- Makes the first of some directories, each of which lies in the next one. The next one is only
made if the first one cannot be made without it. -/
def makeFirst (h : Host m) : List String → ExceptT FileFault m Unit
  | [] => pure ()
  | path :: rest =>
    tryCatch (h.makeDirectory path) fun fault =>
      if fault = .missing then do
        h.makeFirst rest
        h.makeDirectory path
      else throw fault

/-- Makes a directory and those it lies in, as far as they are not there. -/
def makeDirectories (h : Host m) (path : String) : ExceptT FileFault m Unit :=
  h.makeFirst (Path.beginnings path)

/-- The text of a file. -/
def readText (h : Host m) (path : String) : ExceptT FileFault m String := do
  let bytes ← h.readFile path
  match String.fromUTF8? bytes with
  | some text => return text
  | none => throw .notText

/-- The program of a script in a file. -/
def readProgram (h : Host m) (path : String) : ExceptT Failure m Program := do
  let text ← (h.readText path).adapt fun fault => .transfer fault.message
  match Script.parse text with
  | .ok program => return program
  | .error e => throw (.script e)

end Host
end Storyboard.CommandLine
