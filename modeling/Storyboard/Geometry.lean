/-!
# Script space and raster space

Script space has its origin at the canvas centre and Y pointing up; raster space has its origin at
the top left and Y pointing down.
-/

namespace Storyboard

structure Point where
  x : Float
  y : Float
  deriving DecidableEq

/-- The canvas size in pixels. -/
structure Canvas where
  width : UInt32
  height : UInt32
  deriving DecidableEq

def Canvas.center (c : Canvas) : Point :=
  ⟨c.width.toFloat / 2, c.height.toFloat / 2⟩

/-- The map `(x, y) ↦ (xx * x + xy * y + dx, yx * x + yy * y + dy)`. -/
structure Affine where
  xx : Float
  yx : Float
  xy : Float
  yy : Float
  dx : Float
  dy : Float
  deriving DecidableEq

namespace Affine

/-- The image of a point, each sum taken from left to right. -/
def apply (a : Affine) (p : Point) : Point :=
  ⟨a.xx * p.x + a.xy * p.y + a.dx, a.yx * p.x + a.yy * p.y + a.dy⟩

/-- Script space to raster space: flip Y, then move the origin to the canvas centre. -/
def toRaster (c : Canvas) : Affine :=
  ⟨1.0, 0.0, 0.0, -1.0, c.center.x, c.center.y⟩

end Affine
end Storyboard
