import Storyboard.CommandLine.Run

namespace Storyboard.CommandLine

/-- The fault with a code of the system. Some calls give the code with its sign turned. -/
def codedFault (code : UInt32) (detail : String) : FileFault :=
  if code = 2 ∨ code = -2 then .missing
  else if code = 17 ∨ code = -17 then .exists
  else if code = 20 ∨ code = -20 then .notDirectory
  else if code = 21 ∨ code = -21 then .isDirectory
  else if code = 36 ∨ code = -36 then .nameTooLong
  else .other s!"{detail} (os error {code})"

/-- The fault behind an error of the system. -/
def fileFault : IO.Error → FileFault
  | .noFileOrDirectory _ code detail => codedFault code detail
  | .noSuchThing _ code detail => codedFault code detail
  | .alreadyExists _ code detail => codedFault code detail
  | .inappropriateType _ code detail => codedFault code detail
  | .permissionDenied _ code detail => codedFault code detail
  | .resourceExhausted _ code detail => codedFault code detail
  | .resourceVanished code detail => codedFault code detail
  | .invalidArgument _ code detail => codedFault code detail
  | .otherError code detail => codedFault code detail
  | e => .other (toString e)

/-- Runs an action of the system. -/
def attempt {α : Type} (action : IO α) : ExceptT FileFault IO α :=
  ExceptT.mk do
    try return .ok (← action)
    catch e => return .error (fileFault e)

def streamWriter (write : ByteArray → IO Unit) (flush : IO Unit) : Writer IO where
  write bytes := (attempt (write bytes)).adapt FileFault.message
  flush := (attempt flush).adapt FileFault.message

/-- Makes a directory that may be there already. -/
def makeDirectory (path : String) : IO Unit := do
  try IO.FS.createDir path
  catch e =>
    let place ← try IO.FS.realPath path catch _ => throw e
    unless ← place.isDir do throw e

/-- The machine that the program runs on. -/
def machine : IO (Host IO) := do
  let stdout ← IO.getStdout
  let stderr ← IO.getStderr
  return {
    readFile := fun path => attempt (IO.FS.readBinFile path)
    makeDirectory := fun path => attempt (makeDirectory path)
    createFile := fun path => do
      let handle ← attempt (IO.FS.Handle.mk path .write)
      return streamWriter handle.write handle.flush
    workers := fun _ => .ok ()
    out := streamWriter stdout.write stdout.flush
    err := fun text => stderr.putStr text }

end Storyboard.CommandLine

def main (arguments : List String) : IO UInt32 := do
  (← Storyboard.CommandLine.machine).run arguments
