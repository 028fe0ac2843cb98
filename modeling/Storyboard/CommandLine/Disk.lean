import Storyboard.CommandLine.Host
import Storyboard.CommandLine.Path

/-!
# A disk in memory

Files and directories, and the directory that a command runs in. A path is followed step by step,
and every step but the last has to lead to a directory.
-/

namespace Storyboard.CommandLine

inductive Node where
  | directory
  | file (bytes : ByteArray)

/-- A place on the disk: the names on the way to it from the root. -/
abbrev Place := List String

/-- What lies on the disk, the newest first. The places on the way to `home` are directories. -/
structure Disk where
  home : Place
  nodes : List (Place × Node) := []

namespace Disk

def node? (d : Disk) (place : Place) : Option Node :=
  if place.isPrefixOf d.home then some .directory else d.nodes.lookup place

/-- Puts a node in a place, instead of the one that is there. -/
def put (d : Disk) (place : Place) (n : Node) : Disk :=
  if (d.nodes.lookup place).isSome then
    { d with nodes := d.nodes.map fun entry => if entry.1 = place then (place, n) else entry }
  else { d with nodes := (place, n) :: d.nodes }

theorem lookup_map_same {place : Place} {n : Node} {entries : List (Place × Node)}
    (there : (entries.lookup place).isSome) :
    (entries.map fun entry => if entry.1 = place then (place, n) else entry).lookup place =
      some n := by
  induction entries with
  | nil => simp at there
  | cons entry rest ih =>
    obtain ⟨spot, node⟩ := entry
    by_cases same : spot = place
    · simp [same]
    · have other : (place == spot) = false := by simpa using Ne.symm same
      rw [List.lookup_cons, other] at there
      simpa [same, List.lookup_cons, other] using ih there

theorem home_put (d : Disk) (place : Place) (n : Node) : (d.put place n).home = d.home := by
  unfold put
  split <;> rfl

theorem node?_put (d : Disk) {place : Place} (h : ¬ place.isPrefixOf d.home) (n : Node) :
    (d.put place n).node? place = some n := by
  rw [node?, home_put, if_neg h]
  unfold put
  split
  · rename_i there
    exact lookup_map_same there
  · simp

/-- Adds to the end of a file. -/
def append (d : Disk) (place : Place) (bytes : ByteArray) : Disk :=
  match d.node? place with
  | some (.file before) => d.put place (.file (before ++ bytes))
  | _ => d

/-- What a directory has under a name. -/
def look (d : Disk) (dir : Place) (name : String) : Except FileFault (Option Node) :=
  if Path.nameLimit < name.utf8ByteSize then .error .nameTooLong
  else .ok (d.node? (dir ++ [name]))

/-- Takes a step from a directory to another one. -/
def enter (d : Disk) (dir : Place) (step : String) : Except FileFault Place := do
  if step = "." then return dir
  else if step = ".." then return dir.dropLast
  else match ← d.look dir step with
    | some .directory => return dir ++ [step]
    | some (.file _) => throw .notDirectory
    | none => throw .missing

/-- The directory in which the last step of a path is to be taken, and that step. -/
def reach (d : Disk) (path : String) : Except FileFault (Place × String) := do
  if Path.lengthLimit < path.utf8ByteSize then throw .nameTooLong
  else
    let steps := Path.steps path
    let start := if Path.isAbsolute path then [] else d.home
    return (← steps.dropLast.foldlM d.enter start, steps.getLast?.getD ".")

def read (d : Disk) (path : String) : Except FileFault ByteArray := do
  let (dir, step) ← d.reach path
  if Path.isDots step then throw .isDirectory
  else match ← d.look dir step with
    | some .directory => throw .isDirectory
    | some (.file bytes) => if Path.endsInSlash path then throw .notDirectory else return bytes
    | none => throw .missing

/-- The place of a new or emptied file, and the disk with it. -/
def create (d : Disk) (path : String) : Except FileFault (Place × Disk) := do
  let (dir, step) ← d.reach path
  if Path.isDots step || Path.endsInSlash path then throw .isDirectory
  else match ← d.look dir step with
    | some .directory => throw .isDirectory
    | _ => return (dir ++ [step], d.put (dir ++ [step]) (.file .empty))

/-- The disk with a directory, which may be there already. -/
def makeDirectory (d : Disk) (path : String) : Except FileFault Disk := do
  let (dir, step) ← d.reach path
  if Path.isDots step then return d
  else match ← d.look dir step with
    | some .directory => return d
    | some (.file _) => throw .exists
    | none => return d.put (dir ++ [step]) .directory

end Disk

/-- A disk with what was written to the two streams. -/
structure Room where
  disk : Disk
  out : ByteArray := .empty
  err : String := ""

namespace Room

/-- A writer that adds to a file of the disk. -/
def fileWriter (place : Place) : Writer (StateM Room) where
  write bytes := modifyThe Room fun r => { r with disk := r.disk.append place bytes }
  flush := pure ()

/-- Works on the disk, with workers that may be there or not. -/
def host (workers : Workers) : Host (StateM Room) where
  workers
  readFile path := do
    let r ← getThe Room
    MonadExcept.ofExcept (r.disk.read path)
  makeDirectory path := do
    let r ← getThe Room
    set { r with disk := ← MonadExcept.ofExcept (r.disk.makeDirectory path) }
  createFile path := do
    let r ← getThe Room
    let (place, disk) ← MonadExcept.ofExcept (r.disk.create path)
    set { r with disk }
    return fileWriter place
  out := {
    write := fun bytes => modifyThe Room fun r => { r with out := r.out ++ bytes }
    flush := pure () }
  err text := modifyThe Room fun r => { r with err := r.err ++ text }

end Room
end Storyboard.CommandLine
