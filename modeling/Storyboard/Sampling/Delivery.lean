import Storyboard.Failure
import Storyboard.Fingerprint
import Storyboard.Rate
import Storyboard.Timeline.Snapshot

/-!
# What sampling delivers

The frames of a scene are delivered between its header and its end. A sink takes the deliveries one
by one and may refuse any of them.
-/

namespace Storyboard

/-- What is announced of a scene before its first frame. -/
structure Header where
  scene : UInt64
  title : String
  canvas : Canvas
  rate : Rate
  frameCount : UInt64
  duration : Float
  narration : Option String
  deriving DecidableEq

structure SampledFrame where
  frame : UInt64
  fingerprint : Fingerprint
  /-- The frame before it in the scene has the same fingerprint. -/
  repeatsPrevious : Bool
  snapshot : Snapshot
  deriving DecidableEq

inductive Delivery where
  | header (h : Header)
  | frame (f : SampledFrame)
  | sceneEnd
  deriving DecidableEq

/-- Where deliveries go, with effects in `m`. -/
abbrev Sink (m : Type → Type) := Delivery → ExceptT Failure m Unit

end Storyboard
