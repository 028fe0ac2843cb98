import Storyboard.Sampling.Lines

/-!
# A writer that may run full

A tank takes bytes up to its room and then refuses every write that is not empty. What fits of the
write that fills it is kept.
-/

namespace Storyboard

structure Tank where
  written : ByteArray
  /-- How many more bytes fit; without it all do. -/
  room : Option Nat
  flushFails : Bool

namespace Tank

/-- How many of `n` bytes are taken. -/
def taken (t : Tank) (n : Nat) : Nat :=
  match t.room with
  | none => n
  | some room => min room n

theorem taken_le (t : Tank) (n : Nat) : t.taken n ≤ n := by
  unfold taken
  split
  · exact Nat.le_refl n
  · exact Nat.min_le_right _ _

/-- The tank after an attempt to write. -/
def pour (t : Tank) (bytes : ByteArray) : Tank :=
  { t with
    written := t.written ++ bytes.extract 0 (t.taken bytes.size)
    room := t.room.map (· - bytes.size) }

def writer : Writer (StateM Tank) where
  write bytes := do
    let t ← getThe Tank
    set (t.pour bytes)
    if t.taken bytes.size < bytes.size then throw "writer is full"
  flush := do
    if (← getThe Tank).flushFails then throw "flush failed"

end Tank
end Storyboard
