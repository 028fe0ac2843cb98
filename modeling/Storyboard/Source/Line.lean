import Storyboard.Source.Stretch

/-!
# Lines of a text

A newline ends a line, and a carriage return just before it belongs to the line end. A carriage
return alone does not end a line.
-/

namespace Storyboard

/-- Without a carriage return at its end. -/
def dropReturn (cs : List Char) : List Char :=
  if cs.getLast? = some '\r' then cs.dropLast else cs

/-- The lines of a text. What follows the last newline is a line only if it is not empty. -/
def lines (text : List Char) : List (List Char) :=
  let all := stretches '\n' text
  all.dropLast.map dropReturn ++ (all.getLast?.filter fun last => !last.isEmpty).toList

end Storyboard
