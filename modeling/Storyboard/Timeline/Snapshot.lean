import Storyboard.Timeline.Opacity
import Storyboard.Failure

namespace Storyboard

structure Snapshot where
  scene : UInt64
  time : Float
  canvas : Canvas
  elements : List ElementState
  deriving DecidableEq

namespace Program

/-- The scene at an index, counted from 0. -/
def scene (p : Program) (index : Nat) : Except Failure Scene :=
  match p.scenes[index]? with
  | some s => .ok s
  | none => .error (.noScene index p.scenes.length)

def snapshot (p : Program) (index : Nat) (t : Float) : Except Failure Snapshot :=
  (p.scene index).map fun s => ⟨UInt64.ofNat index, t, p.canvas, s.statesAt t⟩

end Program
end Storyboard
