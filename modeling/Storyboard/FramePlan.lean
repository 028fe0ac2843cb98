import Storyboard.Rate
import Storyboard.Program
import Storyboard.Decimal.Text

/-!
# Frame plans

A plan fixes at which times a scene is sampled: frame `k` stands at `k * den / num` seconds.
-/

namespace Storyboard

/-- The greater of two numbers; a NaN gives way, and of equal ones the second counts. -/
def greater (a b : Float) : Float :=
  if a.isNaN then b else if a ≤ b then b else a

/-- How long a scene plays: its declared length or the measured narration, whichever is longer. -/
def Scene.effectiveDuration (s : Scene) (narration : Option Float) : Float :=
  match narration with
  | some audio => if audio.isFinite then greater s.duration audio else s.duration
  | none => s.duration

structure FramePlan where
  rate : Rate
  duration : Float
  frameCount : UInt64
  deriving DecidableEq

namespace FramePlan

/-- A plan for a length in seconds. Even an empty scene has one frame. -/
def ofDuration (rate : Rate) (duration : Float) : Except Failure FramePlan :=
  if !duration.isFinite || duration < 0.0 then
    .error (.validation
      ("sample duration must be finite and >= 0, got " ++ messageNumber duration))
  else .ok ⟨rate, duration, max (rate.framesCovering duration) 1⟩

def ofScene (scene : Scene) (rate : Rate) (narration : Option Float) : Except Failure FramePlan :=
  ofDuration rate (scene.effectiveDuration narration)

/-- When a frame is sampled, in seconds from the start of the scene. -/
def timeOf (p : FramePlan) (frame : UInt64) : Float :=
  p.rate.lengthOf frame

/-- The first `n` frames with their times, or all if there are fewer. -/
def firstFrames (p : FramePlan) (n : Nat) : List (UInt64 × Float) :=
  (List.range (min n p.frameCount.toNat)).map fun k => (UInt64.ofNat k, p.timeOf (UInt64.ofNat k))

/-- All frames with their times, in order. -/
def frames (p : FramePlan) : List (UInt64 × Float) :=
  p.firstFrames p.frameCount.toNat

/-- How many frames a list has room for. With its time a frame takes 16 bytes, and no list takes
more than `2 ^ 63 - 1`. -/
def mostListed : Nat :=
  9223372036854775807 / 16

/-- There is room for a list of all frames. -/
def Listable (p : FramePlan) : Prop :=
  p.frameCount.toNat ≤ mostListed

instance (p : FramePlan) : Decidable p.Listable :=
  inferInstanceAs (Decidable (_ ≤ _))

/-- All frames as one list, which is made before the first of them is drawn. -/
def listFrames (p : FramePlan) : Except Failure (List (UInt64 × Float)) :=
  if p.Listable then .ok p.frames else .error .overflow

end FramePlan
end Storyboard
