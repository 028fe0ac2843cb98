import Storyboard.Sampling.Delivery

namespace Storyboard

structure Refusal where
  /-- What was handed over, the newest first. -/
  newest : List Delivery
  /-- Which delivery is refused, counted from 0. -/
  index : Option Nat
  failure : Failure

namespace Refusal

def deliveries (r : Refusal) : List Delivery :=
  r.newest.reverse

def sink : Sink (StateM Refusal) := fun d => do
  let r ← getThe Refusal
  set { r with newest := d :: r.newest }
  if r.index = some r.newest.length then throw r.failure

end Refusal
end Storyboard
