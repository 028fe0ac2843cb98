import Storyboard.Exact
import Storyboard.Failure

/-!
# Frame rates

A rate is a fraction of whole numbers. How many frames cover a length is decided on the exact value
of the product of length and rate, so that the decision itself rounds nothing.
-/

namespace Storyboard

/-- `num` frames in `den` seconds. -/
structure Rate where
  num : UInt32
  den : UInt32
  deriving DecidableEq, Repr

namespace Rate

/-- A rate with both parts above zero. -/
def checked (num den : UInt32) : Except Failure Rate :=
  if den = 0 then .error (.validation "Fps den must be > 0")
  else if num = 0 then .error (.validation "Fps num must be > 0")
  else .ok ⟨num, den⟩

def perSecond (r : Rate) : Float :=
  r.num.toFloat / r.den.toFloat

/-- The length of a number of frames, in seconds. -/
def lengthOf (r : Rate) (frames : UInt64) : Float :=
  frames.toFloat * r.den.toFloat / r.num.toFloat

/-- How far a product may lie from a whole number and still count as that number: the double
nearest to `1e-9`. -/
def noise : Rat :=
  4835703278458517 / 4835703278458516698824704

/-- The whole number nearest to a non-negative number, a half going up. -/
def nearest (p : Rat) : Int :=
  (p + 1 / 2).floor

/-- Frames to cover a length of `p` frames: the nearest whole number if only noise is between, else
the next one up. -/
def wholeFrames (p : Rat) : Int :=
  let near := nearest p
  if (p - near).abs < noise then near else p.ceil

/-- A whole number in a 64-bit word, the largest word for what does not fit. -/
def saturate (n : Int) : UInt64 :=
  if n.toNat < UInt64.size then UInt64.ofNat n.toNat else UInt64.ofNat (UInt64.size - 1)

/-- The frames that cover `secs`. Nothing is needed for a length that is not above zero or that has
no finite product with the rate. -/
def framesCovering (r : Rate) (secs : Float) : UInt64 :=
  match exactValue? (secs * r.perSecond) with
  | none => 0
  | some p => if p ≤ 0 then 0 else saturate (wholeFrames p)

end Rate
end Storyboard
