import Storyboard.Geometry

/-!
# Programs

What a script says: a canvas and scenes in playback order. Order is kept everywhere, since fades
are applied in the order in which they are declared.
-/

namespace Storyboard

/-- What an element draws. -/
inductive Figure where
  | text (content : String)
  | circle (radius : Float)
  deriving DecidableEq

/-- The word that declares the figure in a script. -/
def Figure.keyword : Figure → String
  | .text _ => "text"
  | .circle _ => "circle"

/-- A drawable thing with a name and an anchor in script space. -/
structure Element where
  id : String
  anchor : Point
  figure : Figure
  deriving DecidableEq

inductive Direction where
  | fadeIn
  | fadeOut
  deriving DecidableEq

/-- The opacity once a fade is over. -/
def Direction.terminal : Direction → Float
  | .fadeIn => 1.0
  | .fadeOut => 0.0

/-- A linear change of the opacity of the element named `target`. -/
structure Fade where
  target : String
  direction : Direction
  duration : Float
  deriving DecidableEq

/-- What an event does; fading is the only verb. -/
inductive Command where
  | fade (f : Fade)
  deriving DecidableEq

def Command.target : Command → String
  | .fade f => f.target

/-- Commands that begin `time` seconds into the scene. -/
structure Event where
  time : Float
  commands : List Command
  deriving DecidableEq

structure Scene where
  title : String
  duration : Float
  narration : Option String
  elements : List Element
  timeline : List Event
  deriving DecidableEq

structure Program where
  canvas : Canvas
  scenes : List Scene
  deriving DecidableEq

/-- Some element of the scene has this id. -/
def Scene.declares (s : Scene) (id : String) : Bool :=
  s.elements.any (·.id == id)

end Storyboard
