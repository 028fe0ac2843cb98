import Storyboard.Program

/-!
# Opacity of elements over time

Every element starts out visible. Fades are applied in the order in which they are declared, not by
time: of those that say anything about an instant, the last declared one decides.
-/

namespace Storyboard

/-- Brings a number between 0 and 1; a NaN stays. -/
def clampUnit (x : Float) : Float :=
  let x := if x < 0.0 then 0.0 else x
  if 1.0 < x then 1.0 else x

/-- The opacity that a fade beginning at `start` gives at time `t`; none before it begins. A fade
without length is over at once. -/
def Fade.opacityAt? (f : Fade) (start t : Float) : Option Float :=
  let stop := start + f.duration
  if f.duration == 0.0 then
    if start ≤ t then some f.direction.terminal else none
  else if start ≤ t ∧ t ≤ stop then
    let progress := clampUnit ((t - start) / f.duration)
    some (match f.direction with
      | .fadeIn => progress
      | .fadeOut => 1.0 - progress)
  else if stop < t then some f.direction.terminal
  else none

/-- An element as it is at one instant. -/
structure ElementState where
  id : String
  figure : Figure
  opacity : Float
  position : Point
  deriving DecidableEq

/-- Before any fade an element is fully visible at its anchor. -/
def Element.initialState (e : Element) : ElementState :=
  ⟨e.id, e.figure, 1.0, e.anchor⟩

/-- Sets the opacity of the last state with the id; the earlier ones are shadowed. -/
def setOpacity (id : String) (opacity : Float) : List ElementState → List ElementState
  | [] => []
  | s :: rest =>
    if rest.any (·.id == id) then s :: setOpacity id opacity rest
    else if s.id = id then { s with opacity } :: rest
    else s :: rest

theorem setOpacity_ids (id : String) (opacity : Float) (states : List ElementState) :
    (setOpacity id opacity states).map (·.id) = states.map (·.id) := by
  fun_induction setOpacity id opacity states <;> simp_all

/-- Applies a command of an event at `start`. A target that is not declared changes nothing. -/
def Command.apply (start t : Float) (states : List ElementState) : Command → List ElementState
  | .fade f =>
    match f.opacityAt? start t with
    | some opacity => setOpacity f.target opacity states
    | none => states

def Event.apply (t : Float) (states : List ElementState) (e : Event) : List ElementState :=
  e.commands.foldl (Command.apply e.time t) states

/-- The state of every element at time `t`, in the order of declaration. -/
def Scene.statesAt (s : Scene) (t : Float) : List ElementState :=
  s.timeline.foldl (Event.apply t) (s.elements.map Element.initialState)

end Storyboard
